import SecurityKey.Dialog
import SecurityKey.Proofs.Conversation
import SecurityKey.Proofs.Dialog.Steps
/-!
# Dialogs under a veil

A veil hides what the lines say that are sent to the tool, and nothing else of a conversation: how
many there are, when each is sent, what is read, when the user is told to touch the key, how much
time passes. The PINs of a dialog are hidden with the lines, since they go nowhere else.

What a dialog does, it does under the veil as well. This holds of each wait and each line
(`listen_veiled`, `send_veiled`), so of each step (`step_veiled`), and so of the whole dialog
(`run_veiled`).
-/

namespace SecurityKey

/-- An event without what a line says. -/
def Event.veiled : Event → Event
  | .sent _ => .sent ""
  | .unsent _ => .unsent ""
  | event => event

/-- A log without what the lines say. -/
def Event.veiledLog (log : List (Nat × Event)) : List (Nat × Event) :=
  log.map fun (time, event) => (time, event.veiled)

theorem Event.veiledLog_append (log more : List (Nat × Event)) :
    veiledLog (log ++ more) = veiledLog log ++ veiledLog more :=
  List.map_append

/-! ## Conversations -/

namespace Conversation

/-- A conversation without what the lines say. -/
def veiled (talk : Conversation) : Conversation :=
  { talk with
    outbox := talk.outbox.map fun _ => ""
    heard := talk.heard.map fun _ => ""
    events := Event.veiledLog talk.events }

/-- What a step in a conversation gives, which is not hidden, and the conversation after it. -/
def veil {α : Type} (after : α × Conversation) : α × Conversation :=
  (after.1, after.2.veiled)

variable {talk : Conversation} {marks : List String} {deadline since time within : Nat}
  {cues : List (Cue String)}

theorem record_veiled (talk : Conversation) (event : Event) :
    (talk.record event).veiled = talk.veiled.record event.veiled := by
  simp [record, veiled, Event.veiledLog]

theorem pass_veiled : (talk.pass since time).veiled = talk.veiled.pass since time := by
  rw [pass, pass, show talk.veiled.clock = talk.clock from rfl]
  split_ifs
  · exact record_veiled { talk with clock := time } (.waited since)
  · rfl

theorem giveUp_veiled :
    talk.veiled.giveUp cues since deadline = veil (talk.giveUp cues since deadline) := by
  rw [giveUp, giveUp, ← pass_veiled]
  exact congrArg (Prod.mk _)
    (record_veiled { talk.pass since deadline with cues := cues } .silent).symm

/-- **A wait** does the same under the veil, and gives the same. -/
theorem listen_veiled :
    listen marks deadline since talk.veiled cues =
      veil (listen marks deadline since talk cues) := by
  have hbuffer : ∀ talk : Conversation, talk.veiled.buffer = talk.buffer := fun _ => rfl
  induction cues generalizing talk since with
  | nil =>
    rw [listen, listen, hbuffer]
    cases find? marks talk.buffer with
    | some found => rfl
    | none =>
      exact congrArg (Prod.mk _) (record_veiled { talk with cues := [], buffer := "" } .ended).symm
  | cons cue cues ih =>
    cases hfind : find? marks talk.buffer with
    | some found =>
      -- No cue is played.
      cases cue <;> (rw [listen, listen, hbuffer, hfind]; rfl)
    | none =>
      cases cue with
      | emit chunk =>
        rw [listen, listen, hbuffer, hfind]
        dsimp only
        rw [← ih, record_veiled]
        rfl
      | delay ms =>
        rw [listen, listen, hbuffer, hfind]
        dsimp only
        rw [show talk.veiled.clock = talk.clock from rfl]
        split_ifs
        · rw [← pass_veiled, ih]
        · rw [← pass_veiled, ih]
        · exact giveUp_veiled
      | awaitLine =>
        rw [listen, listen, hbuffer, hfind]
        dsimp only
        cases houtbox : talk.outbox with
        | nil =>
          rw [show talk.veiled.outbox = [] by rw [veiled, houtbox]; rfl]
          exact giveUp_veiled
        | cons line outbox =>
          rw [show talk.veiled.outbox = "" :: outbox.map fun _ => "" by rw [veiled, houtbox]; rfl]
          rw [← ih]
          simp [veiled]
      | hang =>
        rw [listen, listen, hbuffer, hfind]
        exact giveUp_veiled
      | readError reason =>
        rw [listen, listen, hbuffer, hfind]
        exact congrArg (Prod.mk _)
          (record_veiled { talk with cues := cues } (.readFailed reason)).symm

theorem expect_veiled : talk.veiled.expect marks within = veil (talk.expect marks within) :=
  listen_veiled

theorem deliver_veiled : talk.deliver.veiled = talk.veiled.deliver := by
  simp [deliver, veiled, Event.veiledLog, Event.veiled]

/-- **A line** is sent in the same way whatever it says. -/
theorem send_veiled (line : String) : talk.veiled.send "" = veil (talk.send line) := by
  have houtbox : talk.veiled.outbox ++ [""] = (talk.outbox ++ [line]).map fun _ => "" := by
    simp [veiled]
  rw [send_eq, send_eq, ← deliver_veiled, houtbox]
  by_cases hfail : talk.sendFailsAt = some (talk.attempts + 1)
  · rw [if_pos hfail, if_pos (show talk.veiled.sendFailsAt = some (talk.veiled.attempts + 1) from
      hfail)]
    exact congrArg (Prod.mk _)
      (record_veiled { talk.deliver with attempts := talk.attempts + 1 } (.unsent line)).symm
  · rw [if_neg hfail, if_neg (show talk.veiled.sendFailsAt ≠ some (talk.veiled.attempts + 1) from
      hfail)]
    exact congrArg (Prod.mk _) (record_veiled { talk.deliver with
      attempts := talk.attempts + 1, outbox := talk.outbox ++ [line] } (.sent line)).symm

theorem close_veiled (talk : Conversation) : talk.close.veiled = talk.veiled.close := by
  rw [close, record_veiled, deliver_veiled]
  rfl

end Conversation

/-! ## Dialogs -/

namespace Dialog

open Conversation

/-- A dialog without its PINs. -/
def veiled (dialog : Dialog) : Dialog :=
  { dialog with current := dialog.current.map fun _ => ⟨""⟩, newPin := ⟨⟨""⟩⟩ }

variable {dialog : Dialog} {talk : Conversation} {stage : Stage}

theorem sendThen_veiled (line : String) (next : Stage) :
    sendThen talk.veiled "" next = veil (sendThen talk line next) := by
  rw [sendThen, sendThen, send_veiled line]
  obtain ⟨result, after⟩ := talk.send line
  cases result <;> rfl

theorem sendCurrentPin_veiled :
    dialog.veiled.sendCurrentPin talk.veiled = veil (dialog.sendCurrentPin talk) := by
  rw [sendCurrentPin, sendCurrentPin, veiled]
  cases dialog.current with
  | none => rfl
  | some pin => exact sendThen_veiled pin.text .newPin

theorem answer_veiled {prompt : String} {within : Nat}
    {reply reply' : Conversation → Except Failure Stage × Conversation}
    (hreply : ∀ talk : Conversation, reply' talk.veiled = veil (reply talk)) :
    answer talk.veiled prompt within reply' = veil (answer talk prompt within reply) := by
  rw [answer, answer, expect_veiled]
  obtain ⟨result, after⟩ := talk.expect [prompt] within
  cases result with
  | error failure => rfl
  | ok wait =>
    cases wait with
    | matched index before => exact hreply after
    | ended before => rfl
    | timedOut before => rfl

theorem complete_veiled : dialog.veiled.complete talk.veiled = veil (dialog.complete talk) := by
  rw [complete, complete, show dialog.veiled.timeouts = dialog.timeouts from rfl, expect_veiled]
  obtain ⟨result, after⟩ := talk.expect [DeviceError.policyMark] dialog.timeouts.policyProbe
  have hend : ∀ within, after.veiled.expectEnd within = veil (after.expectEnd within) :=
    fun _ => expect_veiled
  cases result with
  | error failure => rfl
  | ok wait =>
    cases wait with
    | matched index before =>
      dsimp only [veil]
      rw [hend]
      obtain ⟨result, last⟩ := after.expectEnd dialog.timeouts.policyProbe
      cases result <;> rfl
    | ended before => rfl
    | timedOut before =>
      dsimp only [veil]
      rw [hend]
      obtain ⟨result, last⟩ := after.expectEnd dialog.timeouts.prompt
      cases result with
      | error failure => rfl
      | ok wait => cases wait <;> rfl

/-- **A step** of a dialog goes to the same stage under the veil. -/
theorem step_veiled : dialog.veiled.step stage talk.veiled = veil (dialog.step stage talk) := by
  have htimeouts : dialog.veiled.timeouts = dialog.timeouts := rfl
  have hobserved : dialog.veiled.observed = dialog.observed := rfl
  cases stage with
  | start =>
    rw [step, step, show dialog.veiled.current.isSome = dialog.current.isSome by simp [veiled]]
    rfl
  | opening =>
    rw [step, step, htimeouts, expect_veiled]
    obtain ⟨result, after⟩ := talk.expect openers dialog.timeouts.prompt
    cases result with
    | error failure => rfl
    | ok wait =>
      cases wait with
      | matched index before =>
        dsimp only [veil]
        rw [hobserved]
        split_ifs
        · rfl
        · rfl
        · exact sendCurrentPin_veiled
      | ended before => rfl
      | timedOut before => rfl
  | touched => exact answer_veiled fun _ => sendCurrentPin_veiled
  | newPin => exact answer_veiled fun _ => sendThen_veiled dialog.newPin.pin.text .confirm
  | confirm => exact answer_veiled fun _ => sendThen_veiled dialog.newPin.pin.text .completion
  | completion =>
    rw [step, step, complete_veiled]
    obtain ⟨result, after⟩ := dialog.complete talk
    cases result <;> rfl
  | finished outcome => rfl

theorem advance_veiled (fuel : Nat) :
    dialog.veiled.advance fuel stage talk.veiled = veil (dialog.advance fuel stage talk) := by
  induction fuel generalizing stage talk with
  | zero =>
    -- The dialog is closed, with its outcome or as one that takes too long.
    cases stage <;> exact congrArg (Prod.mk _) (close_veiled talk).symm
  | succ fuel ih =>
    rw [advance_succ, advance_succ, step_veiled]
    obtain ⟨result, after⟩ := dialog.step stage talk
    cases result with
    | ok next => exact ih
    | error failure => exact congrArg (Prod.mk _) (close_veiled after).symm

/-- **A whole dialog** goes the same way under the veil, and ends the same. -/
theorem run_veiled (script : Script) : dialog.veiled.run script = veil (dialog.run script) :=
  show dialog.veiled.advance maxSteps .start (Conversation.begin script).veiled = _ from
    advance_veiled maxSteps

end Dialog

end SecurityKey
