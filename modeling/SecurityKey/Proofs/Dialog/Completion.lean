import SecurityKey.Dialog
import SecurityKey.Proofs.Conversation
import SecurityKey.Proofs.Diagnosis
/-!
# How the last stage of a PIN dialog comes out

Behind the last line a dialog looks for the mark of a refusal, but only briefly. It stops there if
it finds the mark, and otherwise waits for the end of the output once more. None of this matters for
the outcome: what was seen is one text, from the end of the last prompt to where the dialog stopped
reading, and the outcome depends on this text and on whether the output had ended
(`concluded`).

Main statement: `complete_concluded`. The text in which a mark was found is put together again from
its parts, so nothing of it is lost and nothing is seen twice, and where the mark of a refusal is in
it, the dialog reports a refusal.
-/

namespace SecurityKey

open Text Log

/-! ## Connections that hold -/

namespace Conversation

/-- No read fails. -/
def Connected (cues : List (Cue String)) : Prop :=
  ∀ reason, .readError reason ∉ cues

variable {marks : List String} {talk : Conversation} {deadline since : Nat}
  {cues : List (Cue String)} {ending : Except Failure Wait × Conversation}

theorem Connected.tail {cue : Cue String} (h : Connected (cue :: cues)) : Connected cues :=
  fun reason hmem => h reason (List.mem_cons_of_mem cue hmem)

theorem Connected.cons {cue : Cue String} (h : Connected cues)
    (hcue : ∀ reason, cue ≠ .readError reason) : Connected (cue :: cues) := by
  intro reason hmem
  rcases List.mem_cons.1 hmem with heq | hmem
  · exact hcue reason heq.symm
  · exact h reason hmem

/-- Where the connection holds, a wait does not fail, and the connection holds on. -/
theorem Listening.connected (h : Listening marks deadline since talk cues ending)
    (connected : Connected cues) :
    (∃ wait, ending.1 = .ok wait) ∧ Connected ending.2.cues := by
  induction h with
  | found => exact ⟨⟨_, rfl⟩, connected⟩
  | ended => exact ⟨⟨_, rfl⟩, connected⟩
  | emit chunk _ _ ih => exact ih connected.tail
  | delay ms _ _ _ ih => exact ih connected.tail
  | heard _ _ _ ih => exact ih connected.tail
  | late => exact ⟨⟨_, rfl⟩, connected.tail.cons (by simp)⟩
  | unheard => exact ⟨⟨_, rfl⟩, connected⟩
  | hang => exact ⟨⟨_, rfl⟩, connected⟩
  | failed reason => exact absurd List.mem_cons_self (connected reason)

/-- What a wait sees: the text that was in the buffer and the text that it reads. -/
def seen (talk : Conversation) (more : List Event) : List Char :=
  talk.buffer.toList ++ output more

/-- How a wait can end where the connection holds. -/
inductive Sees (marks : List String) (talk after : Conversation) (more : List Event) : Wait → Prop
  | matched {index : Nat} {mark before : String} :
      marks[index]? = some mark → .ended ∉ more →
      talk.seen more = before.toList ++ mark.toList ++ after.buffer.toList →
      Sees marks talk after more (.matched index before)
  | ended {before : String} :
      .ended ∈ more → before.toList = talk.seen more → Sees marks talk after more (.ended before)
  | timedOut {before : String} :
      .ended ∉ more → before.toList = talk.seen more → after.buffer = before →
      Sees marks talk after more (.timedOut before)

/-- **A wait gives what it saw**, as one text or cut around a mark. -/
theorem expect_sees (connected : Connected talk.cues) (marks : List String) (within : Nat) :
    ∃ wait after more, talk.expect marks within = (.ok wait, after) ∧ Connected after.cues ∧
      after.log = talk.log ++ more ∧ textOf talk.cues = output more ++ textOf after.cues ∧
      Sees marks talk after more wait := by
  obtain ⟨⟨wait, hwait⟩, hafter⟩ : (∃ wait, (talk.expect marks within).1 = .ok wait) ∧
      Connected (talk.expect marks within).2.cues := (listening ..).connected connected
  obtain ⟨more, hlistened⟩ := talk.expect_listened marks within
  refine ⟨wait, _, more, Prod.ext hwait rfl, hafter, hlistened.log, hlistened.text, ?_⟩
  rw [hwait] at hlistened
  have hunended : (∀ before, wait ≠ .ended before) → .ended ∉ more := by
    intro hne hended
    obtain ⟨before, hbefore⟩ := hlistened.ended hended
    exact hne before (Except.ok.inj hbefore)
  cases hlistened.ending with
  | matched found hfound hbefore hrest =>
    obtain ⟨⟨chars, hchars, htext⟩, _⟩ := earliest?_eq_some_iff.1 hfound
    rw [List.getElem?_map] at hchars
    obtain ⟨mark, hmark, rfl⟩ := Option.map_eq_some_iff.1 hchars
    refine .matched hmark (hunended (by simp)) ?_
    rw [hbefore, hrest]
    exact htext
  | ended _ hbefore hended => exact .ended hended hbefore
  | timedOut _ hbefore _ hbuffer => exact .timedOut (hunended (by simp)) hbefore hbuffer

/-- A wait for the end of the output gives all that it saw, whether or not the end came. -/
theorem expectEnd_sees (connected : Connected talk.cues) (within : Nat) :
    ∃ text last more, last.log = talk.log ++ more ∧
      textOf talk.cues = output more ++ textOf last.cues ∧ text.toList = talk.seen more ∧
      (talk.expectEnd within = (.ok (.ended text), last) ∧ .ended ∈ more ∨
        talk.expectEnd within = (.ok (.timedOut text), last) ∧ .ended ∉ more) := by
  obtain ⟨wait, last, more, hexpect, _, hlog, htext, hsees⟩ := expect_sees connected [] within
  cases hsees with
  | matched hmark => cases hmark
  | ended hended hbefore => exact ⟨_, last, more, hlog, htext, hbefore, .inl ⟨hexpect, hended⟩⟩
  | timedOut hended hbefore _ =>
    exact ⟨_, last, more, hlog, htext, hbefore, .inr ⟨hexpect, hended⟩⟩

theorem seen_append (talk : Conversation) (more further : List Event) :
    talk.seen (more ++ further) = talk.seen more ++ output further := by
  rw [seen, seen, output_append, List.append_assoc]

end Conversation

namespace Dialog

open Conversation (Connected)

variable {dialog : Dialog} {talk : Conversation}

/-! ## The outcome of a text -/

/-- The outcome by what was seen behind the last prompt and by whether the output had ended: the
error in it, if there is one, or else success only at the end of the output. -/
def concluded (text : List Char) (ended : Bool) : PinOutcome :=
  match DeviceError.classify? (String.ofList text) with
  | some error => .ofError error
  | none => if ended then .success else .timeout

theorem ofCompletion_eq_concluded (text : String) :
    PinOutcome.ofCompletion text = concluded text.toList true := by
  rw [PinOutcome.ofCompletion, concluded, String.ofList_toList]
  rfl

theorem ofUnfinished_eq_concluded (text : String) :
    ofUnfinished text = concluded text.toList false := by
  rw [ofUnfinished, concluded, String.ofList_toList]
  rfl

/-- The mark of a refusal makes the outcome a refusal, whether or not the output has ended. -/
theorem concluded_of_policyMark {text : List Char}
    (h : DeviceError.policyMark.toList <:+: text) :
    ∃ error, ∀ ended, concluded text ended = .policyViolation error := by
  rw [← String.toList_ofList (l := text)] at h
  obtain ⟨minLength, herror⟩ := DeviceError.classify?_of_policyMark h
  refine ⟨⟨.policyViolation minLength, trimmed (String.ofList text)⟩, fun ended => ?_⟩
  rw [concluded, herror]
  rfl

/-! ## The last stage -/

/-- The last stage of a dialog, in which `more` happened, comes out by what was seen. -/
structure Concludes (talk : Conversation) (more : List Event)
    (ending : Except Failure PinOutcome × Conversation) : Prop where
  log : ending.2.log = talk.log ++ more
  /-- What was read and what is still to come are the text of the tool. -/
  text : Conversation.textOf talk.cues = output more ++ Conversation.textOf ending.2.cues
  outcome : ending.1 = .ok (concluded (talk.seen more) (.ended ∈ more))

variable {after : Conversation} {more : List Event}

/-- What two waits did, one after the other, is what was done in all. -/
theorem concludes_append {last : Conversation} {further : List Event} {outcome : PinOutcome}
    (hlog : after.log = talk.log ++ more)
    (htext : Conversation.textOf talk.cues = output more ++ Conversation.textOf after.cues)
    (hlog' : last.log = after.log ++ further)
    (htext' : Conversation.textOf after.cues = output further ++ Conversation.textOf last.cues)
    (houtcome : outcome = concluded (talk.seen (more ++ further)) (.ended ∈ more ++ further)) :
    Concludes talk (more ++ further) (.ok outcome, last) where
  log := by rw [hlog', hlog, List.append_assoc]
  text := by rw [htext, htext', output_append, List.append_assoc]
  outcome := congrArg Except.ok houtcome

/-- Where the mark of a refusal was found, the outcome is a refusal, however much is still read. -/
theorem concludes_refused {before : String} (hlog : after.log = talk.log ++ more)
    (htext : Conversation.textOf talk.cues = output more ++ Conversation.textOf after.cues)
    (hseen : talk.seen more =
      before.toList ++ DeviceError.policyMark.toList ++ after.buffer.toList)
    (connected : Connected after.cues) (within : Nat) :
    ∃ further, Concludes talk (more ++ further)
      (match after.expectEnd within with
        | (.ok rest, talk) =>
          (.ok (.ofCompletion (before ++ DeviceError.policyMark ++ textOf rest)), talk)
        | (.error failure, talk) => (.error failure, talk)) := by
  obtain ⟨rest, last, further, hlog', htext', hrest, hend⟩ :=
    Conversation.expectEnd_sees connected within
  -- Cut around the mark and put together again, this is the text that was seen.
  have hwhole : (before ++ DeviceError.policyMark ++ rest).toList =
      talk.seen (more ++ further) := by
    rw [Conversation.seen_append, hseen, String.toList_append, String.toList_append, hrest,
      Conversation.seen]
    simp
  have hin : DeviceError.policyMark.toList <:+: talk.seen (more ++ further) := by
    rw [← hwhole]
    exact ⟨before.toList, rest.toList, by simp⟩
  obtain ⟨error, hrefused⟩ := concluded_of_policyMark hin
  have houtcome : PinOutcome.ofCompletion (before ++ DeviceError.policyMark ++ rest) =
      concluded (talk.seen (more ++ further)) (.ended ∈ more ++ further) := by
    rw [ofCompletion_eq_concluded, hwhole, hrefused, hrefused]
  refine ⟨further, ?_⟩
  rcases hend with ⟨heq, _⟩ | ⟨heq, _⟩
  · rw [heq]
    exact concludes_append hlog htext hlog' htext' houtcome
  · rw [heq]
    exact concludes_append hlog htext hlog' htext' houtcome

/-- Where it was not found in time, all of the text is still in the buffer, and the end of the
output is waited for once more. -/
theorem concludes_unrefused (hlog : after.log = talk.log ++ more)
    (htext : Conversation.textOf talk.cues = output more ++ Conversation.textOf after.cues)
    (hbuffer : after.buffer.toList = talk.seen more) (hunended : .ended ∉ more)
    (connected : Connected after.cues) (within : Nat) :
    ∃ further, Concludes talk (more ++ further)
      (match after.expectEnd within with
        | (.ok (.ended before), talk) => (.ok (.ofCompletion before), talk)
        | (.ok wait, talk) => (.ok (ofUnfinished (textOf wait)), talk)
        | (.error failure, talk) => (.error failure, talk)) := by
  obtain ⟨text, last, further, hlog', htext', hall, hend⟩ :=
    Conversation.expectEnd_sees connected within
  have hwhole : text.toList = talk.seen (more ++ further) := by
    rw [Conversation.seen_append, ← hbuffer, hall, Conversation.seen]
  refine ⟨further, ?_⟩
  rcases hend with ⟨heq, hended⟩ | ⟨heq, hended⟩
  · rw [heq]
    refine concludes_append hlog htext hlog' htext' ?_
    rw [ofCompletion_eq_concluded, hwhole, decide_eq_true (List.mem_append_right more hended)]
  · rw [heq]
    refine concludes_append hlog htext hlog' htext' ?_
    have hnever : .ended ∉ more ++ further := by simp [hunended, hended]
    rw [textOf, ofUnfinished_eq_concluded, hwhole, decide_eq_false hnever]

theorem concludes_complete (dialog : Dialog) (connected : Connected talk.cues) :
    ∃ more, Concludes talk more (dialog.complete talk) := by
  obtain ⟨wait, after, more, hexpect, hafter, hlog, htext, hsees⟩ :=
    Conversation.expect_sees connected [DeviceError.policyMark] dialog.timeouts.policyProbe
  rw [complete, hexpect]
  cases hsees with
  | ended hended hbefore =>
    refine ⟨more, hlog, htext, ?_⟩
    dsimp only
    rw [ofCompletion_eq_concluded, hbefore, decide_eq_true hended]
  | @matched index mark before hmark _ hseen =>
    have hmem : mark = DeviceError.policyMark := List.mem_singleton.1 (List.mem_of_getElem? hmark)
    rw [hmem] at hseen
    obtain ⟨further, h⟩ := concludes_refused hlog htext hseen hafter dialog.timeouts.policyProbe
    exact ⟨_, h⟩
  | timedOut hunended hbefore hbuffer =>
    have hheld : after.buffer.toList = talk.seen more := by rw [hbuffer, hbefore]
    obtain ⟨further, h⟩ :=
      concludes_unrefused hlog htext hheld hunended hafter dialog.timeouts.prompt
    exact ⟨_, h⟩

/-- **The last stage of a dialog** comes out as if all that was seen had been read first and then
been searched for an error: whether the mark of a refusal was found at once, and whether the output
ended meanwhile, later or not at all. If the mark of a refusal was seen, it is a refusal. -/
theorem complete_concluded (dialog : Dialog) {talk : Conversation}
    (connected : Connected talk.cues) :
    ∃ more, Concludes talk more (dialog.complete talk) ∧
      (DeviceError.policyMark.toList <:+: talk.seen more →
        ∃ error, (dialog.complete talk).1 = .ok (.policyViolation error)) := by
  obtain ⟨more, hconcludes⟩ := concludes_complete dialog connected
  refine ⟨more, hconcludes, fun hmark => ?_⟩
  obtain ⟨error, hrefused⟩ := concluded_of_policyMark hmark
  exact ⟨error, by rw [hconcludes.outcome, hrefused]⟩

/-- A refusal whose mark is in the buffer in part, and comes to its end when it is hardly waited for
any more. More is printed, and the output does not end. -/
def refusedLate : Conversation :=
  { Conversation.begin ⟨[.delay 1000, .emit "_POLICY_VIOLATION", .delay 999, .emit "\nminpinlen: ",
      .emit "6", .hang], none⟩ with
    buffer := "FIDO_ERR_PIN" }

theorem complete_concluded_refusedLate :
    Connected refusedLate.cues ∧
      ∃ more, Concludes refusedLate more
          ((set ⟨⟨"1234"⟩⟩ .standard false).complete refusedLate) ∧
        .ended ∉ more ∧ DeviceError.policyMark.toList <:+: refusedLate.seen more ∧
        ((set ⟨⟨"1234"⟩⟩ .standard false).complete refusedLate).1 =
          .ok (.policyViolation ⟨.policyViolation (some 6),
            "FIDO_ERR_PIN_POLICY_VIOLATION\nminpinlen: 6"⟩) := by
  have connected : Connected refusedLate.cues := by
    intro reason hmem
    simp [refusedLate, Conversation.begin] at hmem
  obtain ⟨more, hconcludes, _⟩ :=
    complete_concluded (set ⟨⟨"1234"⟩⟩ .standard false) connected
  have hmore : more =
      ((set ⟨⟨"1234"⟩⟩ .standard false).complete refusedLate).2.log := hconcludes.log.symm
  refine ⟨connected, more, hconcludes, ?_, ?_, ?_⟩
  · rw [hmore]
    decide
  · rw [hmore, ← occurs_iff]
    decide
  · rw [hconcludes.outcome, hmore]
    decide

end Dialog

end SecurityKey
