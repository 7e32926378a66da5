import SecurityKey.Conversation
import SecurityKey.Invocation
import SecurityKey.Timeouts
/-!
# Setting and changing a PIN

Both dialogs go through a few stages. To change a PIN, the tool may first ask for a touch of the
key, then for the current PIN; to set or to change one, it asks for the new PIN, for the same PIN
again, and then it ends. Every wait is bounded, and every way through the stages is at most six
steps long.

A tool that ends before the last prompt has failed, whatever it printed. One that ends after it
has succeeded unless it printed an error. A refused PIN is reported at once, so after the last line
the mark of a refusal is waited for only briefly, and whatever else is printed is added to it.

The conversation is closed once, at the end, however the dialog goes.
-/

namespace SecurityKey

open Text

/-- Where a dialog ended. -/
inductive PinOutcome
  | success
  /-- The key refused the new PIN. -/
  | policyViolation (error : DeviceError)
  | otherError (error : DeviceError)
  /-- The tool stopped answering. -/
  | timeout
deriving DecidableEq

namespace PinOutcome

/-- Whether the PIN was set. -/
def isSuccess : PinOutcome → Bool
  | .success => true
  | _ => false

/-- The error behind an outcome. -/
def error? : PinOutcome → Option DeviceError
  | .policyViolation error | .otherError error => some error
  | .success | .timeout => none

/-- The outcome that an error makes. -/
def ofError (error : DeviceError) : PinOutcome :=
  match error.kind with
  | .policyViolation _ => .policyViolation error
  | _ => .otherError error

/-- The outcome of a dialog that went through, by the output from the last prompt on. -/
def ofCompletion (output : String) : PinOutcome :=
  match DeviceError.classify? output with
  | some error => ofError error
  | none => .success

/-- The outcome of a dialog that ended too early, by the output since the last prompt. -/
def ofEarlyExit (output : String) : PinOutcome :=
  ofError (DeviceError.ofFailure output)

end PinOutcome

/-- A PIN dialog to be run. -/
structure Dialog where
  /-- The PIN to be changed, if there is one. -/
  current : Option Pin
  newPin : NewPin
  timeouts : Timeouts
  /-- Whether anybody wants to know that a touch is needed. -/
  observed : Bool
deriving DecidableEq

namespace Dialog

/-- A dialog that sets a first PIN. -/
def set (newPin : NewPin) (timeouts : Timeouts) (observed : Bool) : Dialog :=
  ⟨none, newPin, timeouts, observed⟩

/-- A dialog that replaces `current`. -/
def change (current : Pin) (newPin : NewPin) (timeouts : Timeouts) (observed : Bool) : Dialog :=
  ⟨some current, newPin, timeouts, observed⟩

/-- The invocation that a dialog goes with. -/
def invocation (dialog : Dialog) (handle : String) : Invocation :=
  match dialog.current with
  | none => .setPin handle
  | some _ => .changePin handle

/-! ## Prompts -/

/-- Asks for the current PIN. -/
def currentPinPrompt : String := "Enter current PIN"

/-- Asks for the new PIN. -/
def newPinPrompt : String := "Enter new PIN"

/-- Asks for the new PIN once more. -/
def confirmPrompt : String := "Enter the same PIN again"

/-- What asks for a touch of the key. -/
def touchMarks : List String := ["Touch", "Tap", "Waiting for user"]

/-- What a change may begin with: a touch, or the prompt for the current PIN. -/
def openers : List String := touchMarks ++ [currentPinPrompt]

/-! ## Stages -/

/-- The stages of a dialog. -/
inductive Stage
  | start
  /-- The current PIN or a touch is about to be asked for. -/
  | opening
  /-- The key was to be touched, and the current PIN is about to be asked for. -/
  | touched
  /-- The new PIN is about to be asked for. -/
  | newPin
  /-- The new PIN is about to be asked for once more. -/
  | confirm
  /-- The last line was sent. -/
  | completion
  | finished (outcome : PinOutcome)
deriving DecidableEq

/-- The end of a dialog whose wait found no prompt. -/
def cutShort : Wait → Stage
  | .ended before => .finished (.ofEarlyExit before)
  | .timedOut _ | .matched .. => .finished .timeout

/-- Sends a line and goes on to a stage. -/
def sendThen (talk : Conversation) (line : String) (next : Stage) :
    Except Failure Stage × Conversation :=
  match talk.send line with
  | (.ok (), talk) => (.ok next, talk)
  | (.error failure, talk) => (.error failure, talk)

/-- Sends the current PIN, which only a change has, and goes on to the new one. -/
def sendCurrentPin (dialog : Dialog) (talk : Conversation) :
    Except Failure Stage × Conversation :=
  match dialog.current with
  | some pin => sendThen talk pin.text .newPin
  | none => (.ok .newPin, talk)

/-- Waits for a prompt, answers it with a line and goes on to a stage. -/
def answer (talk : Conversation) (prompt : String) (within : Nat)
    (reply : Conversation → Except Failure Stage × Conversation) :
    Except Failure Stage × Conversation :=
  match talk.expect [prompt] within with
  | (.ok (.matched ..), talk) => reply talk
  | (.ok wait, talk) => (.ok (cutShort wait), talk)
  | (.error failure, talk) => (.error failure, talk)

/-- The text of a wait. -/
def textOf : Wait → String
  | .matched _ before | .ended before | .timedOut before => before

/-- The outcome where the output may not have ended: an error that was printed, or a timeout. -/
def ofUnfinished (output : String) : PinOutcome :=
  match DeviceError.classify? output with
  | some error => .ofError error
  | none => .timeout

/-- Waits for the tool to end after the last line. -/
def complete (dialog : Dialog) (talk : Conversation) :
    Except Failure PinOutcome × Conversation :=
  match talk.expect [DeviceError.policyMark] dialog.timeouts.policyProbe with
  | (.ok (.matched _ before), talk) =>
    match talk.expectEnd dialog.timeouts.policyProbe with
    | (.ok rest, talk) =>
      (.ok (.ofCompletion (before ++ DeviceError.policyMark ++ textOf rest)), talk)
    | (.error failure, talk) => (.error failure, talk)
  | (.ok (.ended before), talk) => (.ok (.ofCompletion before), talk)
  | (.ok (.timedOut _), talk) =>
    match talk.expectEnd dialog.timeouts.prompt with
    | (.ok (.ended before), talk) => (.ok (.ofCompletion before), talk)
    | (.ok wait, talk) => (.ok (ofUnfinished (textOf wait)), talk)
    | (.error failure, talk) => (.error failure, talk)
  | (.error failure, talk) => (.error failure, talk)

/-- One step from a stage to the next. -/
def step (dialog : Dialog) (stage : Stage) (talk : Conversation) :
    Except Failure Stage × Conversation :=
  match stage with
  | .start => (.ok (if dialog.current.isSome then .opening else .newPin), talk)
  | .opening =>
    match talk.expect openers dialog.timeouts.prompt with
    | (.ok (.matched index _), talk) =>
      if index < touchMarks.length then
        (.ok .touched, if dialog.observed then talk.notify else talk)
      else dialog.sendCurrentPin talk
    | (.ok wait, talk) => (.ok (cutShort wait), talk)
    | (.error failure, talk) => (.error failure, talk)
  | .touched => answer talk currentPinPrompt dialog.timeouts.touch dialog.sendCurrentPin
  | .newPin =>
    answer talk newPinPrompt dialog.timeouts.prompt fun talk =>
      sendThen talk dialog.newPin.pin.text .confirm
  | .confirm =>
    answer talk confirmPrompt dialog.timeouts.prompt fun talk =>
      sendThen talk dialog.newPin.pin.text .completion
  | .completion =>
    match dialog.complete talk with
    | (.ok outcome, talk) => (.ok (.finished outcome), talk)
    | (.error failure, talk) => (.error failure, talk)
  | .finished outcome => (.ok (.finished outcome), talk)

/-- Takes at most `fuel` steps from a stage and closes the conversation. -/
def advance (dialog : Dialog) : Nat → Stage → Conversation →
    Except Failure PinOutcome × Conversation
  | _, .finished outcome, talk => (.ok outcome, talk.close)
  | 0, _, talk => (.ok .timeout, talk.close)
  | fuel + 1, stage, talk =>
    match dialog.step stage talk with
    | (.ok next, talk) => dialog.advance fuel next talk
    | (.error failure, talk) => (.error failure, talk.close)

/-- The most steps that a dialog takes. -/
def maxSteps : Nat := 6

/-- Runs a dialog with a tool that does what a script says. -/
def run (dialog : Dialog) (script : Script) : Except Failure PinOutcome × Conversation :=
  dialog.advance maxSteps .start (.begin script)

example :
    (run (.set ⟨⟨"1234"⟩⟩ .standard true)
      ⟨[.emit "Enter new PIN: ", .awaitLine, .emit "Enter the same PIN again: ", .awaitLine],
        none⟩).1.toOption = some .success := by decide

end Dialog

end SecurityKey
