import SecurityKey.Pin
import SecurityKey.Text.Case
import SecurityKey.Text.Lines
/-!
# Prompts

The user's input is a list of lines, each without the blanks around it. Behind its end every line
that is read is empty, for ever.

A new PIN is asked for until two entries in a row are the same and not empty. Behind the end of the
input there is no such entry, so asking for one would never end, and `askNewPin` says so.
-/

namespace SecurityKey.CommandLine

open Text

/-- The lines of the user's input. -/
def inputLines (input : String) : List String :=
  (lines input.toList).map fun line => String.ofList (trim line)

/-- The next line, and the input after it. -/
def nextLine : List String → String × List String
  | [] => ("", [])
  | line :: rest => (line, rest)

/-- Whether an answer means yes. -/
def isYes (answer : String) : Bool :=
  lowered answer.toList = ['y'] || lowered answer.toList = ['y', 'e', 's']

/-- Asks for a PIN. -/
def pinPrompt : String := "Enter PIN: "

/-- Asks for a new PIN. -/
def newPinPrompt : String := "Enter new PIN: "

/-- Asks for a new PIN once more. -/
def samePinPrompt : String := "Enter the same PIN again: "

/-- Asks for a new PIN: what is printed, and the PIN with the input after it if the input has one.
If not, the question is asked for ever. -/
def askNewPin : List String → String × Option (NewPin × List String)
  | [] => (newPinPrompt, none)
  | first :: rest =>
    if first.isEmpty then
      let (printed, answer) := askNewPin rest
      (newPinPrompt ++ "The PIN must not be empty.\n" ++ printed, answer)
    else match rest with
      | [] => (newPinPrompt ++ samePinPrompt, none)
      | again :: rest =>
        match NewPin.confirm? ⟨first⟩ ⟨again⟩ with
        | some newPin => (newPinPrompt ++ samePinPrompt, some (newPin, rest))
        | none =>
          let (printed, answer) := askNewPin rest
          (newPinPrompt ++ samePinPrompt ++ "The PINs do not match, try again.\n" ++ printed,
            answer)

end SecurityKey.CommandLine
