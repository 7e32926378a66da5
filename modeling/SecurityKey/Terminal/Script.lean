import SecurityKey.Terminal.Emulator
import SecurityKey.Terminal.Shell
/-!
# Texts in an AppleScript program

Between double quotes, a backslash and a double quote are written with a backslash before them, and
an unescaped double quote ends the text.

Where terminal windows are opened by such a program, the command line to run in the window stands
in it as a text.
-/

namespace SecurityKey.Script

/-- A text with `piece` in place of every `c`. -/
def replaced (c : Char) (piece text : List Char) : List Char :=
  text.flatMap fun d => if d = c then piece else [d]

/-- The written form of a text. The backslashes come first, so that the ones before the quotes are
not written twice. -/
def escape (text : String) : String :=
  String.ofList (replaced '"' ['\\', '"'] (replaced '\\' ['\\', '\\'] text.toList))

/-- Reads a text from behind its opening quote: the text, and what follows the closing quote. -/
def read? : List Char → Option (List Char × List Char)
  | [] => none
  | '"' :: s => some ([], s)
  | '\\' :: c :: s =>
    if c = '\\' || c = '"' then (read? s).map fun (text, rest) => (c :: text, rest) else none
  | c :: s => if c = '\\' then none else (read? s).map fun (text, rest) => (c :: text, rest)

example : escape "say \"hi\" \\" = "say \\\"hi\\\" \\\\" := by decide

/-- What stands before the command line in the program that runs it. -/
def opening : String := "tell application \"Terminal\" to do script \""

/-- The program that opens a terminal window and runs a command line in it. -/
def running (line : String) : String :=
  opening ++ escape line ++ "\""

/-- The command that opens a terminal window by such a program and runs an invocation of `tool` in
it. -/
def command (tool : String) (invocation : Invocation) : Terminal.Command :=
  ⟨"osascript", ["-e", running (Shell.commandLine tool invocation.args),
    "-e", "tell application \"Terminal\" to activate"]⟩

end SecurityKey.Script
