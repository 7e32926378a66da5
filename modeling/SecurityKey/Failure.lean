import SecurityKey.Diagnosis
import SecurityKey.Text.Quoted
/-!
# Failures of an operation

An operation fails because the tool could not be run or talked to, because the device reported an
error, because time ran out, or because there is nothing to work on. `Failure.message` has the
wording of them all.
-/

namespace SecurityKey

open Text

/-- Why an operation failed. Times are in milliseconds. -/
inductive Failure
  /-- The tool could not be started. -/
  | launch (program reason : String)
  /-- Reading from the tool or writing to it failed. -/
  | inputOutput (reason : String)
  /-- The terminal for a conversation with the tool could not be had. -/
  | terminal (reason : String)
  /-- There is no terminal window to hand an invocation to. -/
  | noTerminal
  /-- The device listing failed. -/
  | exited (code : Option Int) (stderr : String)
  /-- The device reported an error. -/
  | device (error : DeviceError)
  /-- The tool did not finish in time. -/
  | timeout (operation : String) (after : Nat)
  | noSuchDevice (ordinal : Nat)
  | pinRequired
  | noResettableDevice
  | replugWindowElapsed
deriving DecidableEq

/-- The text of a failure. -/
def Failure.message : Failure → String
  | .launch program reason => "Failed to launch " ++ program ++ ": " ++ reason
  | .inputOutput reason => "I/O error while talking to the tool: " ++ reason
  | .terminal reason => "Pseudo-terminal error: " ++ reason
  | .noTerminal => "No terminal emulator found to run the command in"
  | .exited code stderr =>
    "Tool exited with status " ++ someOrNone (code.map signedNumeral) ++ ": " ++ stderr
  | .device error => error.message
  | .timeout operation after =>
    operation ++ " timed out after " ++ numeral (after / 1000) ++ "s"
  | .noSuchDevice ordinal =>
    "No device with number " ++ numeral ordinal ++ "; refresh the device list"
  | .pinRequired => "A PIN is required for this operation"
  | .noResettableDevice => "No device suitable for a factory reset was found"
  | .replugWindowElapsed =>
    "The reset window after replugging the key has elapsed; replug it and try again"

end SecurityKey
