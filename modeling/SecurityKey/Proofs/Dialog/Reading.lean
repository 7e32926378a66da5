import Mathlib.Tactic.Common
import SecurityKey.Dialog
import SecurityKey.Proofs.Conversation
import SecurityKey.Proofs.Dialog.Steps
/-!
# What a PIN dialog makes of the tool's text

A dialog sees the tool's text piece by piece: a prompt may come in several pieces, several prompts
in one, and the touch of the key together with the prompt behind it. `reading` is what it makes of
a text that is there as a whole. A dialog that sees the end of the output ends in this outcome, and
one that does not had something in its way (`run_reading`). So the pieces make no difference.

**Simulation.** Each stage has its own reading of the text that is still to be consumed
(`readingAt`). One step keeps it (`step_reading`): what the step consumes is what the reading
passes over. A step that cannot, because a wait comes to its deadline or the connection breaks, ends
the dialog before the end of the output.
-/

namespace SecurityKey.Dialog

open Text Log

/-! ## The reading of a text -/

/-- The outcome by the text behind the prompt for the new PIN. -/
def readConfirm (text : List Char) : PinOutcome :=
  match splitOnce? confirmPrompt.toList text with
  | some (_, text) => .ofCompletion (String.ofList text)
  | none => .ofEarlyExit (String.ofList text)

/-- The outcome by the text behind the prompt for the current PIN, or by all of it where there is
no current PIN. -/
def readNewPin (text : List Char) : PinOutcome :=
  match splitOnce? newPinPrompt.toList text with
  | some (_, text) => readConfirm text
  | none => .ofEarlyExit (String.ofList text)

/-- The outcome by the text behind the request for a touch. -/
def readTouched (text : List Char) : PinOutcome :=
  match splitOnce? currentPinPrompt.toList text with
  | some (_, text) => readNewPin text
  | none => .ofEarlyExit (String.ofList text)

/-- The outcome by all of the text where there is a current PIN. -/
def readOpening (text : List Char) : PinOutcome :=
  match earliest? (openers.map String.toList) text with
  | some found =>
    if found.index < touchMarks.length then readTouched found.after else readNewPin found.after
  | none => .ofEarlyExit (String.ofList text)

/-- What a dialog makes of the text of a tool. -/
def reading (dialog : Dialog) (text : List Char) : PinOutcome :=
  if dialog.current.isSome then readOpening text else readNewPin text

/-- What a dialog at a stage makes of the text that is still to be consumed. -/
def readingAt (dialog : Dialog) (text : List Char) : Stage → PinOutcome
  | .start => dialog.reading text
  | .opening => readOpening text
  | .touched => readTouched text
  | .newPin => readNewPin text
  | .confirm => readConfirm text
  | .completion => .ofCompletion (String.ofList text)
  | .finished outcome => outcome

/-! ## Simulation -/

variable {dialog : Dialog} {talk after : Conversation} {stage next : Stage}

/-- No request that may open a change holds another one. -/
theorem apart_openers : Apart (openers.map String.toList) := by
  rw [apart_iff_occurs]
  decide

/-- Where a step can lead from a stage at which the reading of the text is `outcome`: on to a stage
at which the reading of what is left is the same, or to the end of the dialog. Where the end of the
output was not seen, something stood in the way. -/
inductive Reads (dialog : Dialog) (outcome : PinOutcome) :
    Except Failure Stage × Conversation → Prop
  | onward {next : Stage} {talk : Conversation} :
      0 < next.rank → dialog.readingAt talk.rest next = outcome → .ended ∉ talk.log →
      Reads dialog outcome (.ok next, talk)
  | finished {talk : Conversation} :
      .ended ∈ talk.log → Reads dialog outcome (.ok (.finished outcome), talk)
  | cutOff {other : PinOutcome} {talk : Conversation} :
      .ended ∉ talk.log → ¬ Undisturbed talk.log →
      Reads dialog outcome (.ok (.finished other), talk)
  | broken {failure : Failure} {talk : Conversation} :
      .ended ∉ talk.log → ¬ Undisturbed talk.log → Reads dialog outcome (.error failure, talk)

theorem reads_sendThen {line : String} (next : Stage) (hnext : 0 < next.rank)
    (h : .ended ∉ talk.log) :
    Reads dialog (dialog.readingAt talk.rest next) (sendThen talk line next) := by
  rw [sendThen]
  rcases hsend : talk.send line with ⟨result, after⟩
  have hunended : .ended ∉ (talk.send line).2.log := mt Conversation.ended_send.1 h
  have hrest := talk.rest_send line
  rw [hsend] at hunended hrest
  cases result with
  | ok _ => exact .onward hnext (by rw [hrest]) hunended
  | error failure => exact .broken hunended (Conversation.disturbed_of_send hsend)

theorem reads_sendCurrentPin (h : .ended ∉ talk.log) :
    Reads dialog (readNewPin talk.rest) (dialog.sendCurrentPin talk) := by
  rw [sendCurrentPin]
  split
  · exact reads_sendThen .newPin (by decide) h
  · exact .onward (by decide) rfl h

/-- A wait for a prompt goes on with the text behind it, or the text was all there was. -/
theorem reads_answer {prompt : String} {within : Nat} {read : List Char → PinOutcome}
    {reply : Conversation → Except Failure Stage × Conversation}
    (hreply : ∀ talk, .ended ∉ talk.log → Reads dialog (read talk.rest) (reply talk))
    (h : .ended ∉ talk.log) :
    Reads dialog
      (match splitOnce? prompt.toList talk.rest with
        | some (_, text) => read text
        | none => .ofEarlyExit (String.ofList talk.rest))
      (answer talk prompt within reply) := by
  rw [answer]
  rcases hexpect : talk.expect [prompt] within with ⟨result, after⟩
  cases Conversation.expect_one_waited hexpect h with
  | matched found hfound _ hrest hunended =>
    rw [splitOnce?_of_earliest? hfound, ← hrest]
    exact hreply after hunended
  | ended hnone hbefore hended =>
    rw [splitOnce?_eq_none hnone, ← hbefore, String.ofList_toList]
    exact .finished hended
  | timedOut _ hunended hdisturbed => exact .cutOff hunended hdisturbed
  | failed failure hunended hdisturbed => exact .broken hunended hdisturbed

theorem reads_opening (h : .ended ∉ talk.log) :
    Reads dialog (readOpening talk.rest) (dialog.step .opening talk) := by
  rw [step, readOpening]
  rcases hexpect : talk.expect openers dialog.timeouts.prompt with ⟨result, after⟩
  cases Conversation.expect_waited apart_openers hexpect h with
  | matched found hfound _ hrest hunended =>
    rw [hfound]
    dsimp only
    rw [← hrest]
    split_ifs
    · exact .onward (by decide) rfl hunended
    · exact .onward (by decide) rfl hunended
    · exact reads_sendCurrentPin hunended
  | ended hnone hbefore hended =>
    rw [hnone, ← hbefore, String.ofList_toList]
    exact .finished hended
  | timedOut _ hunended hdisturbed => exact .cutOff hunended hdisturbed
  | failed failure hunended hdisturbed => exact .broken hunended hdisturbed

/-- The last of the text is read as a whole, whether or not the mark of a refusal is in it, and
however long the tool takes to print it. -/
theorem reads_completion (h : .ended ∉ talk.log) :
    Reads dialog (.ofCompletion (String.ofList talk.rest)) (dialog.step .completion talk) := by
  rw [step, complete]
  rcases hprobe : talk.expect [DeviceError.policyMark] dialog.timeouts.policyProbe
    with ⟨result, after⟩
  cases Conversation.expect_one_waited hprobe h with
  | @matched before found hfound hbefore hrest hunended =>
    dsimp only
    rcases hend : after.expectEnd dialog.timeouts.policyProbe with ⟨result, last⟩
    cases Conversation.expectEnd_waited hend hunended with
    | @ended tail _ htail hended =>
      have htext : String.ofList talk.rest = before ++ DeviceError.policyMark ++ tail := by
        rw [append_of_splitOnce? (splitOnce?_of_earliest? hfound), ← hbefore, ← hrest, ← htail,
          String.ext_iff]
        simp
      rw [htext]
      exact .finished hended
    | matched found hfound => simp at hfound
    | timedOut _ hunended hdisturbed => exact .cutOff hunended hdisturbed
    | failed failure hunended hdisturbed => exact .broken hunended hdisturbed
  | ended _ hbefore hended =>
    rw [← hbefore, String.ofList_toList]
    exact .finished hended
  | timedOut hrest hunended _ =>
    -- Nothing was consumed, so the end is waited for with the same text left.
    dsimp only
    rcases hend : after.expectEnd dialog.timeouts.prompt with ⟨result, last⟩
    cases Conversation.expectEnd_waited hend hunended with
    | ended _ hbefore hended =>
      rw [← hrest, ← hbefore, String.ofList_toList]
      exact .finished hended
    | matched found hfound => simp at hfound
    | timedOut _ hunended hdisturbed => exact .cutOff hunended hdisturbed
    | failed failure hunended hdisturbed => exact .broken hunended hdisturbed
  | failed failure hunended hdisturbed => exact .broken hunended hdisturbed

/-- **One step keeps the reading.** -/
theorem step_reading (hrank : 0 < stage.rank) (h : .ended ∉ talk.log) :
    Reads dialog (dialog.readingAt talk.rest stage) (dialog.step stage talk) := by
  cases stage with
  | start =>
    rw [step, readingAt, reading]
    split_ifs
    · exact .onward (by decide) rfl h
    · exact .onward (by decide) rfl h
  | opening => exact reads_opening h
  | touched => exact reads_answer (fun talk h => reads_sendCurrentPin h) h
  | newPin => exact reads_answer (fun talk h => reads_sendThen .confirm (by decide) h) h
  | confirm => exact reads_answer (fun talk h => reads_sendThen .completion (by decide) h) h
  | completion => exact reads_completion h
  | finished outcome => cases hrank

/-! ## Whole dialogs -/

theorem advance_finished (fuel : Nat) (outcome : PinOutcome) :
    dialog.advance fuel (.finished outcome) talk = (.ok outcome, talk.close) := by
  cases fuel <;> rfl

/-- **A dialog from any stage** sees the end of the output and comes to the reading at its stage,
or something stands in its way. -/
theorem advance_reading {fuel : Nat} (hfuel : stage.rank ≤ fuel) (hrank : 0 < stage.rank)
    (h : .ended ∉ talk.log) :
    (.ended ∈ (dialog.advance fuel stage talk).2.log ∧
        (dialog.advance fuel stage talk).1 = .ok (dialog.readingAt talk.rest stage)) ∨
      (.ended ∉ (dialog.advance fuel stage talk).2.log ∧
        ¬ Undisturbed (dialog.advance fuel stage talk).2.log) := by
  -- The rank falls with every step, so the steps do not run out before the dialog is finished.
  induction fuel generalizing stage talk with
  | zero => omega
  | succ fuel ih =>
    have hreads : Reads dialog _ _ := step_reading hrank h
    rw [advance_succ]
    rcases hstep : dialog.step stage talk with ⟨result, after⟩
    rw [hstep] at hreads
    generalize dialog.readingAt talk.rest stage = outcome at hreads ⊢
    cases hreads with
    | onward hnext hreading hunended =>
      have hless := rank_step hrank hstep
      subst hreading
      exact ih (by omega) hnext hunended
    | finished hended =>
      dsimp only
      rw [advance_finished]
      exact .inl ⟨Conversation.ended_close.2 hended, rfl⟩
    | cutOff hunended hdisturbed =>
      dsimp only
      rw [advance_finished]
      exact .inr ⟨mt Conversation.ended_close.1 hunended,
        mt Conversation.undisturbed_close.1 hdisturbed⟩
    | broken hunended hdisturbed =>
      exact .inr ⟨mt Conversation.ended_close.1 hunended,
        mt Conversation.undisturbed_close.1 hdisturbed⟩

/-- A dialog comes to the reading of the whole text, or something stands in its way. -/
theorem run_reading (dialog : Dialog) (script : Script) :
    (.ended ∈ (dialog.run script).2.log ∧
        (dialog.run script).1 = .ok (dialog.reading (Conversation.textOf script.cues))) ∨
      (.ended ∉ (dialog.run script).2.log ∧ ¬ Undisturbed (dialog.run script).2.log) := by
  have hrank : Stage.start.rank ≤ maxSteps := Nat.le_refl maxSteps
  have hunended : .ended ∉ (Conversation.begin script).log := List.not_mem_nil
  exact advance_reading hrank (by decide) hunended

end SecurityKey.Dialog
