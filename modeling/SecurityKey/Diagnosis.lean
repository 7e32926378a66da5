import SecurityKey.PinPolicy
import SecurityKey.Text.Case
/-!
# Errors that a device reports

The tool's error text is searched for eight known marks. The first mark of the table that occurs
anywhere in the text gives the kind of the error, so a rejected PIN is told from the general
failure that is printed beside it. A text without a known mark is an unknown error if it holds
`FIDO_ERR` or, in any case of its letters, the word `error`, and no error otherwise.

Each kind says what the user should do about it, and whether the operation can go on.
-/

namespace SecurityKey

open Text

/-- The kinds of errors that devices report. -/
inductive ErrorKind
  | invalidPin
  /-- Too many wrong PINs: the key has to be plugged in again. -/
  | pinAuthBlocked
  /-- The key has no PIN. -/
  | pinRequired
  /-- The key is too old to manage passkeys. -/
  | legacyDevice
  | internalDeviceError
  /-- The key refused a new PIN. The shortest PIN it takes is given where it is known. -/
  | policyViolation (minLength : Option Nat)
  | unknown
deriving DecidableEq

/-- What the user should do about an error. -/
inductive Remedy
  | retryPin
  | replugDevice
  | setPin
  | basicInfoOnly
  | chooseStrongerPin (minLength : Option Nat)
  /-- Nothing is known: the tool's own text has to do. -/
  | reportRaw
deriving DecidableEq

/-- Whether the same operation can be tried again at once. -/
def Remedy.retryable : Remedy → Bool
  | .retryPin => true
  | _ => false

namespace ErrorKind

/-- What to do about an error of this kind. -/
def remedy : ErrorKind → Remedy
  | .invalidPin => .retryPin
  | .pinAuthBlocked | .internalDeviceError => .replugDevice
  | .pinRequired => .setPin
  | .legacyDevice => .basicInfoOnly
  | .policyViolation minLength => .chooseStrongerPin minLength
  | .unknown => .reportRaw

/-- Whether nothing more can be done until the user acts. -/
def isTerminal : ErrorKind → Bool
  | .pinAuthBlocked | .pinRequired | .internalDeviceError => true
  | _ => false

/-- The text for the user. -/
def message : ErrorKind → String
  | .invalidPin => "Invalid PIN provided. Enter the PIN again"
  | .pinAuthBlocked =>
    "Wrong PIN provided too many times. Reinsert the key before trying again"
  | .pinRequired =>
    "No PIN set for this key. Passkeys can be managed only with a PIN set; set a PIN first"
  | .legacyDevice =>
    "This is an older key (probably FIDO2.0). No passkey management is possible with this key; " ++
      "only basic information will be shown"
  | .internalDeviceError =>
    "Internal error communicating with the device. Unplug and replug the device, then refresh " ++
      "the device list"
  | .policyViolation minLength =>
    "The provided PIN does not fulfill the requirements of your device. The PIN has to be at " ++
      "least " ++ (minLength.map numeral).getD "unknown" ++
      " long and must not be an easily guessable sequence, like e.g. 123456"
  | .unknown => "Unrecognised device error"

end ErrorKind

/-- An error that a device reported, with the text it was found in. -/
structure DeviceError where
  kind : ErrorKind
  raw : String
deriving DecidableEq

namespace DeviceError

/-- The text for the user. An unknown error shows what the tool said. -/
def message (error : DeviceError) : String :=
  match error.kind with
  | .unknown => trimmed error.raw
  | kind => kind.message

/-- What to do about an error. -/
def remedy (error : DeviceError) : Remedy :=
  error.kind.remedy

/-- Adds the minimum length to a policy violation that has none. -/
def withMinLength (error : DeviceError) (minLength : Option Nat) : DeviceError :=
  match error.kind with
  | .policyViolation none => { error with kind := .policyViolation minLength }
  | _ => error

/-- The mark of a new PIN that the device's policy refused. -/
def policyMark : String := "FIDO_ERR_PIN_POLICY_VIOLATION"

/-- The known marks and their kinds, the more telling ones first. -/
def marks : List (String × ErrorKind) := [
  (policyMark, .policyViolation none),
  ("FIDO_ERR_PIN_AUTH_BLOCKED", .pinAuthBlocked),
  ("FIDO_ERR_PIN_INVALID", .invalidPin),
  ("FIDO_ERR_INVALID_ARGUMENT", .invalidPin),
  ("FIDO_ERR_PIN_REQUIRED", .pinRequired),
  ("FIDO_ERR_PIN_NOT_SET", .pinRequired),
  ("FIDO_ERR_INVALID_CBOR", .legacyDevice),
  ("FIDO_ERR_INTERNAL", .internalDeviceError)]

/-- The kind of the first known mark that occurs in a text. -/
def knownKind? (text : List Char) : Option ErrorKind :=
  (marks.find? fun (mark, _) => occurs mark.toList text).map Prod.snd

/-- Whether a text speaks of an error at all. -/
def mentionsError (text : List Char) : Bool :=
  occurs "FIDO_ERR".toList text || occurs "error".toList (lowered text)

/-- The kind of error that a text reports, if any. -/
def kindOf? (text : List Char) : Option ErrorKind :=
  (knownKind? text).or (if mentionsError text then some .unknown else none)

/-- The error that a text reports, if any. -/
def classify? (text : String) : Option DeviceError :=
  (kindOf? text.toList).map fun kind =>
    (⟨kind, trimmed text⟩ : DeviceError).withMinLength (PinPolicy.minLength? text)

/-- The error behind the text of an invocation that is known to have failed. -/
def ofFailure (text : String) : DeviceError :=
  (classify? text).getD ⟨.unknown, trimmed text⟩

example : (classify? "FIDO_ERR_PIN_POLICY_VIOLATION\nminpinlen: 6\n").map kind =
    some (.policyViolation (some 6)) := by decide

end DeviceError

end SecurityKey
