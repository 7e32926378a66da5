import SecurityKey.Manager
import SecurityKey.Proofs.Diagnosis
import SecurityKey.Proofs.Dialog.Steps
import SecurityKey.Proofs.Procedure
/-!
# A refused PIN and the question after it

When a key refuses a new PIN, the user is told how long it must be. Where the tool did not say so,
the key is asked once more. This second question can fail like any other, and must not hide the
refusal.

**Outcomes** (`PinOutcome.Fitting`). An outcome is a refusal exactly if the error in it is one, in
every place where a dialog makes an outcome (`fitting_run`). So a refusal without a minimum length
is what `unexplained` says, and nothing else is asked about.

**The first length counts** (`kind_withMinLength`). A minimum length that is known is never
replaced, and nothing else of an error changes.

Main statement: `runDialog_settled`.
-/

namespace SecurityKey

/-! ## What outcomes carry -/

/-- The minimum length that a kind of error gives. -/
def ErrorKind.minLength? : ErrorKind → Option Nat
  | .policyViolation minLength => minLength
  | _ => none

namespace DeviceError

variable {error : DeviceError} {own : Option Nat}

/-- A refusal keeps the minimum length that it has and takes another one only if it has none. -/
theorem kind_withMinLength (h : error.kind = .policyViolation own) (minLength : Option Nat) :
    (error.withMinLength minLength).kind = .policyViolation (own.or minLength) := by
  rw [withMinLength, h]
  cases own with
  | none => rfl
  | some n => exact h

@[simp] theorem withMinLength_none (error : DeviceError) : error.withMinLength none = error := by
  rw [withMinLength]
  split
  · next h => rw [← h]
  · rfl

end DeviceError

namespace PinOutcome

variable {error : DeviceError} {outcome : PinOutcome}

/-- The minimum length that an outcome gives. -/
def minLength? (outcome : PinOutcome) : Option Nat :=
  outcome.error?.bind fun error => error.kind.minLength?

/-- An outcome, whatever minimum length is known: where a dialog ended, with the text of the error
and the kind of it. -/
def withoutMinLength : PinOutcome → PinOutcome
  | .policyViolation error => .policyViolation error.withoutMinLength
  | .otherError error => .otherError error.withoutMinLength
  | outcome => outcome

/-- Whether an outcome is a refusal that does not say how long a PIN must be. -/
def unexplained : PinOutcome → Bool
  | .policyViolation error => error.kind.minLength?.isNone
  | _ => false

/-- An outcome is a refusal exactly if its error is. -/
def Fitting (outcome : PinOutcome) : Prop :=
  ∀ error, outcome.error? = some error →
    (outcome = .policyViolation error ↔ ∃ minLength, error.kind = .policyViolation minLength)

theorem fitting_success : Fitting .success := fun _ h => nomatch h

theorem fitting_timeout : Fitting .timeout := fun _ h => nomatch h

theorem fitting_policyViolation_iff :
    Fitting (.policyViolation error) ↔ ∃ minLength, error.kind = .policyViolation minLength := by
  simp [Fitting, error?]

theorem fitting_otherError_iff :
    Fitting (.otherError error) ↔ ∀ minLength, error.kind ≠ .policyViolation minLength := by
  simp [Fitting, error?]

/-- Wherever an outcome is made of an error, it fits. -/
theorem fitting_ofError (error : DeviceError) : Fitting (ofError error) := by
  rw [ofError]
  split
  · next minLength h => exact fitting_policyViolation_iff.2 ⟨minLength, h⟩
  · next h => exact fitting_otherError_iff.2 h

theorem fitting_ofCompletion (output : String) : Fitting (ofCompletion output) := by
  rw [ofCompletion]
  split
  · exact fitting_ofError _
  · exact fitting_success

theorem fitting_ofUnfinished (output : String) : Fitting (Dialog.ofUnfinished output) := by
  rw [Dialog.ofUnfinished]
  split
  · exact fitting_ofError _
  · exact fitting_timeout

end PinOutcome

/-! ## The outcomes of a dialog -/

namespace Dialog

open PinOutcome

variable {dialog : Dialog} {talk after : Conversation} {stage next : Stage}

/-- A stage that is the end has an outcome that fits. -/
def Stage.Fits : Stage → Prop
  | .finished outcome => outcome.Fitting
  | _ => True

theorem fits_cutShort (wait : Wait) : (cutShort wait).Fits := by
  cases wait with
  | ended before => exact fitting_ofError _
  | matched index before => exact fitting_timeout
  | timedOut before => exact fitting_timeout

theorem fitting_complete {outcome : PinOutcome}
    (h : dialog.complete talk = (.ok outcome, after)) : outcome.Fitting := by
  rw [complete] at h
  split at h
  · split at h
    · cases h
      exact fitting_ofCompletion _
    · cases h
  · cases h
    exact fitting_ofCompletion _
  · split at h
    · cases h
      exact fitting_ofCompletion _
    · cases h
      exact fitting_ofUnfinished _
    · cases h
  · cases h

theorem fits_step (hstage : stage.Fits) (h : dialog.step stage talk = (.ok next, after)) :
    next.Fits := by
  cases stage with
  | start =>
    cases h
    split_ifs <;> trivial
  | opening =>
    rw [step] at h
    split at h
    · split_ifs at h
      · cases h
        trivial
      · cases h
        trivial
      · rw [next_of_sendCurrentPin h]
        trivial
    · cases h
      exact fits_cutShort _
    · cases h
  | touched =>
    refine of_answer (fun h => ?_) fits_cutShort h
    rw [next_of_sendCurrentPin h]
    trivial
  | newPin =>
    refine of_answer (fun h => ?_) fits_cutShort h
    rw [next_of_sendThen h]
    trivial
  | confirm =>
    refine of_answer (fun h => ?_) fits_cutShort h
    rw [next_of_sendThen h]
    trivial
  | completion =>
    rw [step] at h
    split at h
    · next heq =>
      cases h
      exact fitting_complete heq
    · cases h
  | finished outcome =>
    cases h
    exact hstage

theorem fitting_advance {fuel : Nat} {outcome : PinOutcome} (hstage : stage.Fits)
    (h : (dialog.advance fuel stage talk).1 = .ok outcome) : outcome.Fitting := by
  induction fuel generalizing stage talk with
  | zero =>
    cases stage with
    | finished outcome =>
      cases h
      exact hstage
    | _ =>
      cases h
      exact fitting_timeout
  | succ fuel ih =>
    rw [advance_succ] at h
    split at h
    · next heq => exact ih (fits_step hstage heq) h
    · cases h

/-- Every outcome of a dialog fits its error, whatever the tool does. -/
theorem fitting_run {script : Script} {outcome : PinOutcome}
    (h : (dialog.run script).1 = .ok outcome) : outcome.Fitting := by
  have hstart : Stage.start.Fits := trivial
  exact fitting_advance hstart h

theorem fitting_answer {answer : Except Failure PinOutcome} {outcome : PinOutcome}
    (h : Procedure.DialogAnswer dialog answer) (hanswer : answer = .ok outcome) :
    outcome.Fitting := by
  cases h with
  | notStarted failure => cases hanswer
  | played script => exact fitting_run hanswer

end Dialog

/-! ## The question about the length -/

namespace Manager

open Procedure PinOutcome

variable {tool : Tool} {past : List Exchange} {handle : String} {dialog : Dialog}

/-- The minimum length that the answer to the question gives. The exit code does not matter. -/
def minLengthIn? : Except Failure Reply → Option Nat
  | .ok reply => PinPolicy.minLength? reply.stdout
  | .error _ => none

/-- What comes of a dialog that ended with `answer`, if `reply` is what a question about the length
is answered. -/
structure Settled (handle : String) (dialog : Dialog) (answer : Except Failure PinOutcome)
    (reply : Except Failure Reply) (trace : List Exchange) (result : Except Failure PinOutcome) :
    Prop where
  /-- Nothing but the dialog makes it fail. -/
  fails : ∀ failure, result = .error failure ↔ answer = .error failure
  /-- The outcome of the dialog stays as it is, but for the minimum length. -/
  stays : ∀ outcome, answer = .ok outcome →
    ∃ final, result = .ok final ∧ final.withoutMinLength = outcome.withoutMinLength
  /-- The key is asked once, without a PIN, if it refused the PIN and did not say how long it must
  be, and not at all otherwise. -/
  asks : trace = .conversed (dialog.invocation handle) dialog answer ::
    if answer.toOption.any unexplained then
      [.ran (.deviceInfo handle none) dialog.timeouts.invocation reply] else []
  /-- A minimum length that the dialog gave counts before the one that the key answers. -/
  length : ∀ outcome final, answer = .ok outcome → result = .ok final →
    final.minLength? =
      outcome.minLength?.or (if outcome.unexplained then minLengthIn? reply else none)
  fitting : ∀ final, result = .ok final → final.Fitting

variable {answer : Except Failure PinOutcome} {error : DeviceError}

/-- A refusal that is not explained carries a policy violation without a length. -/
theorem refusal_of_unexplained (hfitting : ∀ outcome, answer = .ok outcome → outcome.Fitting)
    (h : answer.toOption.any unexplained = true) :
    ∃ error, answer = .ok (.policyViolation error) ∧ error.kind = .policyViolation none := by
  obtain ⟨outcome, rfl⟩ : ∃ outcome, answer = .ok outcome := by
    cases answer with
    | error failure => cases h
    | ok outcome => exact ⟨outcome, rfl⟩
  cases outcome with
  | policyViolation error =>
    obtain ⟨minLength, hkind⟩ := fitting_policyViolation_iff.1 (hfitting _ rfl)
    have hnone : minLength = none := by
      simpa [Except.toOption, unexplained, hkind, ErrorKind.minLength?] using h
    exact ⟨error, rfl, hnone ▸ hkind⟩
  | _ => cases h

/-! ### What is asked -/

/-- What a tool makes of the dialog. -/
theorem follow_talk (tool : Tool) (past : List Exchange) (handle : String) (dialog : Dialog) :
    follow tool past
        (ExceptT.mk (talk (dialog.invocation handle) dialog) : Attempt PinOutcome).run =
      ([.conversed (dialog.invocation handle) dialog
        (tool.talk past (dialog.invocation handle) dialog)],
        tool.talk past (dialog.invocation handle) dialog) :=
  rfl

/-- Any other answer than a refusal that is not explained is the end. -/
theorem follow_runDialog_explained
    (h : tool.talk past (dialog.invocation handle) dialog = answer)
    (hexplained : answer.toOption.any unexplained = false) :
    follow tool past (runDialog handle dialog).run =
      ([.conversed (dialog.invocation handle) dialog answer], answer) := by
  have htalk := follow_talk tool past handle dialog
  rw [h] at htalk
  cases answer with
  | error failure => exact follow_attempt_error _ htalk
  | ok outcome =>
    rw [runDialog, follow_attempt_ok _ htalk]
    cases outcome with
    | policyViolation error =>
      have hkind : error.kind ≠ .policyViolation none := by
        intro hkind
        simp [Except.toOption, unexplained, hkind, ErrorKind.minLength?] at hexplained
      dsimp only
      rw [if_neg hkind]
      rfl
    | _ => rfl

/-- Behind a refusal that is not explained, the key is asked. -/
theorem follow_runDialog_unexplained {talked : Exchange} {reply : Except Failure Reply}
    (h : tool.talk past (dialog.invocation handle) dialog = .ok (.policyViolation error))
    (htalked : talked =
      .conversed (dialog.invocation handle) dialog (.ok (.policyViolation error)))
    (hkind : error.kind = .policyViolation none)
    (hreply : tool.run (past ++ [talked]) (.deviceInfo handle none) dialog.timeouts.invocation =
      reply) :
    follow tool past (runDialog handle dialog).run =
      ([talked, .ran (.deviceInfo handle none) dialog.timeouts.invocation reply],
        .ok (.policyViolation (error.withMinLength (minLengthIn? reply)))) := by
  have htalk := follow_talk tool past handle dialog
  rw [h, ← htalked] at htalk
  have hcall : follow tool (past ++ [talked])
      (ExceptT.lift (Procedure.call (.deviceInfo handle none) dialog.timeouts.invocation) :
        Attempt (Except Failure Reply)).run =
      ([.ran (.deviceInfo handle none) dialog.timeouts.invocation reply], .ok reply) := by
    rw [← hreply]
    rfl
  rw [runDialog, follow_attempt_ok _ htalk]
  dsimp only
  rw [if_pos hkind, follow_attempt_ok _ hcall]
  cases reply with
  | ok reply => rfl
  | error failure =>
    -- Without an answer the refusal is given as it is, and no length is added to it.
    rw [minLengthIn?, DeviceError.withMinLength_none]
    rfl

/-! ### What comes of it -/

theorem settled_explained (hfitting : ∀ outcome, answer = .ok outcome → outcome.Fitting)
    (h : answer.toOption.any unexplained = false) (reply : Except Failure Reply) :
    Settled handle dialog answer reply [.conversed (dialog.invocation handle) dialog answer]
      answer where
  fails _ := Iff.rfl
  stays outcome houtcome := ⟨outcome, houtcome, rfl⟩
  asks := by rw [h]; rfl
  length outcome final houtcome hfinal := by
    obtain rfl : outcome = final := Except.ok.inj (houtcome.symm.trans hfinal)
    rw [houtcome] at h
    rw [if_neg (by simpa [Except.toOption] using h), Option.or_none]
  fitting := hfitting

theorem settled_unexplained (hkind : error.kind = .policyViolation none)
    (reply : Except Failure Reply) :
    let talked : Exchange :=
      .conversed (dialog.invocation handle) dialog (.ok (.policyViolation error))
    Settled handle dialog (.ok (.policyViolation error)) reply
      [talked, .ran (.deviceInfo handle none) dialog.timeouts.invocation reply]
      (.ok (.policyViolation (error.withMinLength (minLengthIn? reply)))) := by
  have hunexplained : (PinOutcome.policyViolation error).unexplained = true := by
    simp [unexplained, hkind, ErrorKind.minLength?]
  have hlength := DeviceError.kind_withMinLength hkind (minLengthIn? reply)
  constructor
  case fails => simp
  case stays =>
    intro outcome houtcome
    cases houtcome
    exact ⟨_, rfl, by rw [withoutMinLength, DeviceError.withoutMinLength_withMinLength]; rfl⟩
  case asks =>
    rw [if_pos (by simpa [Except.toOption] using hunexplained)]
  case length =>
    intro outcome final houtcome hfinal
    cases houtcome
    cases hfinal
    rw [if_pos hunexplained]
    simp [minLength?, error?, hkind, hlength, ErrorKind.minLength?]
  case fitting =>
    intro final hfinal
    cases hfinal
    exact fitting_policyViolation_iff.2 ⟨_, hlength⟩

/-- **A refusal is never hidden** by the question about the length that follows it, whatever the
tool does in the dialog and whatever it answers. -/
theorem runDialog_settled (tool : Tool) (past : List Exchange) (handle : String)
    (dialog : Dialog) :
    let answer := tool.talk past (dialog.invocation handle) dialog
    let asking := past ++ [.conversed (dialog.invocation handle) dialog answer]
    let reply := tool.run asking (.deviceInfo handle none) dialog.timeouts.invocation
    Settled handle dialog answer reply (follow tool past (runDialog handle dialog).run).1
      (follow tool past (runDialog handle dialog).run).2 := by
  intro answer asking reply
  have hfitting : ∀ outcome, answer = .ok outcome → outcome.Fitting := fun outcome =>
    Dialog.fitting_answer (tool.dialogAnswer_talk past (dialog.invocation handle) dialog)
  by_cases hunexplained : answer.toOption.any unexplained = true
  · obtain ⟨error, hanswer, hkind⟩ := refusal_of_unexplained hfitting hunexplained
    have hreply : tool.run
        (past ++ [.conversed (dialog.invocation handle) dialog (.ok (.policyViolation error))])
        (.deviceInfo handle none) dialog.timeouts.invocation = reply := by
      rw [← hanswer]
    rw [follow_runDialog_unexplained hanswer rfl hkind hreply, hanswer]
    exact settled_unexplained hkind reply
  · have hexplained := Bool.eq_false_iff.2 hunexplained
    rw [follow_runDialog_explained rfl hexplained]
    exact settled_explained hfitting hexplained reply

end Manager

end SecurityKey
