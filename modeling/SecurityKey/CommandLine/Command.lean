import SecurityKey.CommandLine.Arguments
import SecurityKey.Pin
/-!
# The commands

What can be asked for on the command line, with the options that go with it. Bounds on waiting are
given in seconds. The bound on invocations and prompts can also come from the environment, which
is looked at only if the option is not there.
-/

namespace SecurityKey.CommandLine

open Text

/-- A command with its operands and options. -/
inductive Command
  | list
  | info (device : Nat) (pin : Option Pin) (basic : Bool)
  | passkeys (device : Nat) (pin : Option Pin)
  | deletePasskey (id : String) (device : Nat)
  | setPin (device : Nat)
  | changePin (device : Nat) (pin : Option Pin)
  | reset (yes : Bool)
  | listFingerprints (device : Nat) (pin : Option Pin)
  | addFingerprint (device : Nat)
  | deleteFingerprint (id : String) (device : Nat)
  | renameFingerprint (id name : String) (device : Nat)
deriving DecidableEq

/-- A whole command line. -/
structure Settings where
  /-- Where the tool is said to be. -/
  tool : Option String
  /-- Seconds to wait for the tool and for each of its prompts. -/
  timeout : Nat
  /-- Seconds to wait for a touch of the key. -/
  touchTimeout : Nat
  command : Command
deriving DecidableEq

/-! ## Options -/

/-- Whether a value is a number of 64 bits. -/
def isNumber (value : String) : Bool :=
  (readUInt64? value.toList).isSome

/-- The number that a value is, if it was accepted. -/
def numberOf (value : String) : Nat :=
  (readUInt64? value.toList).getD 0

/-- Asks for help. -/
def helpOption : OptionSpec := ⟨"help", some 'h', .help⟩

/-- The number of the device, the first one if it is not given. -/
def deviceOption : OptionSpec := ⟨"device", some 'd', .value isNumber⟩

/-- The PIN of the device. -/
def pinOption : OptionSpec := ⟨"pin", none, .value fun _ => true⟩

/-- The options before the command. -/
def globalOptions : List OptionSpec := [
  ⟨"tool", none, .value fun path => !path.isEmpty⟩,
  ⟨"timeout", none, .value isNumber⟩,
  ⟨"touch-timeout", none, .value isNumber⟩,
  ⟨"verbose", some 'v', .flag⟩,
  helpOption,
  ⟨"version", some 'V', .version⟩]

/-- Reads the options and operands of a command. -/
def scanCommand (specs : List OptionSpec) (count : Nat) (args : List String) :
    Except Halt Scanned := do
  let (scanned, _) ← scan (helpOption :: specs) (some count) .empty args
  if scanned.operands.length = count then return scanned else throw .usage

/-- The device that was asked for. -/
def Scanned.device (scanned : Scanned) : Nat :=
  ((scanned.get? "device").map numberOf).getD 1

/-- The PIN that was given. -/
def Scanned.pin? (scanned : Scanned) : Option Pin :=
  (scanned.get? "pin").map Pin.mk

/-- An operand, by its place. -/
def Scanned.operand (scanned : Scanned) (index : Nat) : String :=
  (scanned.operands[index]?).getD ""

/-! ## Commands -/

/-- How the command line is used. -/
def usage : String :=
  "Usage: fido2-manage [OPTIONS] COMMAND\n\n" ++
  "Commands:\n" ++
  "  list                              List connected security keys\n" ++
  "  info [--basic]                    Show device information and storage\n" ++
  "  passkeys                          List the passkeys stored on a key\n" ++
  "  delete-passkey ID                 Delete a passkey\n" ++
  "  set-pin                           Set a PIN on a key that has none\n" ++
  "  change-pin                        Change the PIN of a key\n" ++
  "  reset [--yes]                     Factory reset a key\n" ++
  "  fingerprints list                 List enrolled fingerprints\n" ++
  "  fingerprints add                  Enroll a new fingerprint\n" ++
  "  fingerprints delete ID            Delete a fingerprint\n" ++
  "  fingerprints rename ID NAME       Rename a fingerprint\n\n" ++
  "Options before the command:\n" ++
  "  --tool PATH  --timeout SECONDS  --touch-timeout SECONDS  -v\n\n" ++
  "Options of commands:\n" ++
  "  -d, --device NUMBER  --pin PIN\n"

/-- The names of the commands without those on fingerprints. -/
def commands : List String :=
  ["list", "info", "passkeys", "delete-passkey", "set-pin", "change-pin", "reset", "help"]

/-- The names of the commands on fingerprints. -/
def fingerprintCommands : List String := ["list", "add", "delete", "rename", "help"]

/-- What a request for help on a command leads to, if `known` are the names of commands. -/
def helpOn (known : List String) : List String → Halt
  | [] => .help
  | [name] => if name ∈ known then .help else .usage
  | _ => .usage

/-- Reads a command on fingerprints. -/
def readFingerprints (args : List String) : Except Halt Command := do
  let (_, rest) ← scan [helpOption] none .empty args
  match rest with
  | "list" :: args =>
    let s ← scanCommand [deviceOption, pinOption] 0 args
    return .listFingerprints s.device s.pin?
  | "add" :: args =>
    let s ← scanCommand [deviceOption] 0 args
    return .addFingerprint s.device
  | "delete" :: args =>
    let s ← scanCommand [deviceOption] 1 args
    return .deleteFingerprint (s.operand 0) s.device
  | "rename" :: args =>
    let s ← scanCommand [deviceOption] 2 args
    return .renameFingerprint (s.operand 0) (s.operand 1) s.device
  | "help" :: names => throw (helpOn fingerprintCommands names)
  | _ => throw .usage

/-- Reads a command. -/
def readCommand : List String → Except Halt Command
  | "list" :: args => do
    let _ ← scanCommand [] 0 args
    return .list
  | "info" :: args => do
    let s ← scanCommand [deviceOption, pinOption, ⟨"basic", none, .flag⟩] 0 args
    return .info s.device s.pin? (s.has "basic")
  | "passkeys" :: args => do
    let s ← scanCommand [deviceOption, pinOption] 0 args
    return .passkeys s.device s.pin?
  | "delete-passkey" :: args => do
    let s ← scanCommand [deviceOption] 1 args
    return .deletePasskey (s.operand 0) s.device
  | "set-pin" :: args => do
    let s ← scanCommand [deviceOption] 0 args
    return .setPin s.device
  | "change-pin" :: args => do
    let s ← scanCommand [deviceOption, pinOption] 0 args
    return .changePin s.device s.pin?
  | "reset" :: args => do
    let s ← scanCommand [⟨"yes", none, .flag⟩] 0 args
    return .reset (s.has "yes")
  | "fingerprints" :: args => readFingerprints args
  | "help" :: "fingerprints" :: names => throw (helpOn fingerprintCommands names)
  | "help" :: names => throw (helpOn commands names)
  | _ => throw .usage

/-- The seconds that an option or, without it, the environment gives. -/
def secondsOf (given environment : Option String) (standard : Nat) : Except Halt Nat :=
  match given, environment with
  | some value, _ => .ok (numberOf value)
  | none, some value => if isNumber value then .ok (numberOf value) else .error .usage
  | none, none => .ok standard

/-- Reads a command line. `environment` is the bound that the environment gives, if it gives
one. -/
def read (environment : Option String) (args : List String) : Except Halt Settings := do
  let (scanned, rest) ← scan globalOptions none .empty args
  let command ← readCommand rest
  let timeout ← secondsOf (scanned.get? "timeout") environment 20
  let touchTimeout ← secondsOf (scanned.get? "touch-timeout") none 30
  return { tool := scanned.get? "tool", timeout, touchTimeout, command }

example : (read none ["--timeout", "5", "info", "-d2", "--basic"]).toOption =
    some ⟨none, 5, 30, .info 2 none true⟩ := by decide

end SecurityKey.CommandLine
