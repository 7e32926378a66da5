import SecurityKey.Simulation.Recording
import SecurityKey.Terminal.Shell
/-!
# The command line

Runs a command of `fido2-manage` on a recorded session, which is read from standard input, and
prints what the command prints. A terminal window that the command opens is told about, not opened.
-/

namespace SecurityKey

/-- The text of a stream from here to its end, behind `text`. -/
partial def readAll (stream : IO.FS.Stream) (text : String) : IO String := do
  let line ← stream.getLine
  if line.isEmpty then return text else readAll stream (text ++ line)

/-- Prints what a command line leaves behind, and gives its exit code. -/
def tell (outcome : Simulation.Outcome) : IO UInt32 := do
  IO.print outcome.stdout
  IO.eprint outcome.stderr
  match outcome.launched with
  | some window => IO.eprintln (Shell.commandLine window.program window.args)
  | none => pure ()
  return UInt32.ofNat (outcome.exitCode.getD 1)

end SecurityKey

/-- Runs a command line on the session that standard input has. -/
def main (args : List String) : IO UInt32 := do
  let text ← SecurityKey.readAll (← IO.getStdin) ""
  match SecurityKey.Simulation.Recording.read? text with
  | some recording =>
    let timeout ← IO.getEnv "FIDO2_MANAGE_TIMEOUT"
    let configured ← IO.getEnv "FIDO2_TOKEN_PATH"
    SecurityKey.tell (recording.surroundings args timeout configured).run
  | none =>
    IO.eprintln "Standard input holds no recorded session."
    return 2
