import SecurityKey.Invocation
import SecurityKey.Failure
/-!
# Handing an invocation to a terminal window

Deleting a passkey and managing fingerprints ask the user to confirm and to touch the key, so they
run in a terminal window of their own, and nobody waits for them. The first terminal program of a
fixed list that is installed is taken.
-/

namespace SecurityKey

namespace Terminal

/-- A program and its arguments. -/
structure Command where
  program : String
  args : List String
deriving DecidableEq

/-- The known terminal programs in order of preference, with the flag before the command to run. -/
def emulators : List (String × String) := [
  ("gnome-terminal", "--"),
  ("x-terminal-emulator", "-e"),
  ("xterm", "-e"),
  ("konsole", "-e"),
  ("lxterminal", "-e"),
  ("tilix", "-e"),
  ("mate-terminal", "-e")]

/-- The command that opens a terminal window and runs an invocation of `tool` in it. -/
def command (installed : String → Bool) (tool : String) (invocation : Invocation) :
    Except Failure Command :=
  match emulators.find? fun (program, _) => installed program with
  | some (program, flag) => .ok ⟨program, flag :: tool :: invocation.args⟩
  | none => .error .noTerminal

end Terminal

end SecurityKey
