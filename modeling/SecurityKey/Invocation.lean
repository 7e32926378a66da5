import SecurityKey.Pin
import SecurityKey.Text.Quoted
/-!
# Invocations of the tool

Thirteen operations, each with its own argument list. The device's handle always comes last, and
the PIN right before it, behind the flag `-w`. A PIN that stands for none is left out.

Whatever follows a `-w` is masked wherever arguments are shown.
-/

namespace SecurityKey

/-- One invocation of the tool. -/
inductive Invocation
  | listDevices
  /-- What the device says about the passkeys it stores. -/
  | storageInfo (handle : String) (pin : Option Pin)
  /-- What the device says about itself. -/
  | deviceInfo (handle : String) (pin : Option Pin)
  /-- The sites that have passkeys on the device. -/
  | listDomains (handle : String) (pin : Option Pin)
  /-- The passkeys of one site. -/
  | listCredentials (handle : String) (pin : Option Pin) (domain : String)
  | deleteCredential (handle id : String)
  /-- Sets a first PIN, in conversation. -/
  | setPin (handle : String)
  /-- Changes the PIN, in conversation. -/
  | changePin (handle : String)
  | factoryReset (handle : String)
  | listFingerprints (handle : String) (pin : Option Pin)
  | enrollFingerprint (handle : String)
  | deleteFingerprint (handle id : String)
  | renameFingerprint (handle id name : String)
deriving DecidableEq

namespace Invocation

/-- The name of the operation, for messages. -/
def operation : Invocation → String
  | .listDevices => "list devices"
  | .storageInfo .. => "storage info"
  | .deviceInfo .. => "device info"
  | .listDomains .. => "list domains"
  | .listCredentials .. => "list credentials"
  | .deleteCredential .. => "delete credential"
  | .setPin .. => "set PIN"
  | .changePin .. => "change PIN"
  | .factoryReset .. => "factory reset"
  | .listFingerprints .. => "list fingerprints"
  | .enrollFingerprint .. => "enroll fingerprint"
  | .deleteFingerprint .. => "delete fingerprint"
  | .renameFingerprint .. => "rename fingerprint"

/-- The flag before a PIN. -/
def pinFlag : String := "-w"

/-- The arguments that pass a PIN on. -/
def pinArgs (pin : Option Pin) : List String :=
  match Pin.forTool? pin with
  | some text => [pinFlag, text]
  | none => []

/-- The arguments of an invocation. -/
def args : Invocation → List String
  | .listDevices => ["-L"]
  | .storageInfo handle pin => ["-I", "-c"] ++ pinArgs pin ++ [handle]
  | .deviceInfo handle pin => ["-I"] ++ pinArgs pin ++ [handle]
  | .listDomains handle pin => ["-L", "-r"] ++ pinArgs pin ++ [handle]
  | .listCredentials handle pin domain => ["-L", "-k", domain] ++ pinArgs pin ++ [handle]
  | .deleteCredential handle id => ["-D", "-i", id, handle]
  | .setPin handle => ["-S", handle]
  | .changePin handle => ["-C", handle]
  | .factoryReset handle => ["-R", handle]
  | .listFingerprints handle pin => ["-L", "-e"] ++ pinArgs pin ++ [handle]
  | .enrollFingerprint handle => ["-S", "-e", handle]
  | .deleteFingerprint handle id => ["-D", "-e", "-i", id, handle]
  | .renameFingerprint handle id name => ["-S", "-e", "-i", id, "-n", name, handle]

/-- Stands where a PIN may stand. -/
def mask : String := "***"

/-- Arguments as they may be shown behind `previous`: what directly follows the PIN flag is
masked. -/
def redactAfter (previous : String) : List String → List String
  | [] => []
  | arg :: rest => (if previous = pinFlag then mask else arg) :: redactAfter arg rest

/-- The arguments of an invocation as they may be shown. -/
def redactedArgs (invocation : Invocation) : List String :=
  redactAfter "" invocation.args

/-- An invocation as it may be shown. -/
def shown (invocation : Invocation) : String :=
  "Invocation \x7b operation: " ++ Text.quoted invocation.operation ++ ", args: " ++
    Text.quotedList invocation.redactedArgs ++ " \x7d"

end Invocation

end SecurityKey
