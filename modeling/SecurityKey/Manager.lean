import SecurityKey.Credential
import SecurityKey.Fingerprint
import SecurityKey.Pattern.Notation
import SecurityKey.Pattern.Search
import SecurityKey.Procedure
import SecurityKey.Session
/-!
# Managing security keys

The operations on connected devices, each a procedure of requests to the tool. Those that talk to
one device hold its lock while they do. An operation that fails leaves its session as it was:
attributes are kept only from a load that went through, and a new PIN only if the device took it.
-/

namespace SecurityKey

/-- A procedure that can fail. -/
abbrev Attempt := ExceptT Failure Procedure

/-- How devices are managed: the bounds on waiting, and which handles a factory reset may go to. -/
structure Manager where
  timeouts : Timeouts
  /-- The reset pattern as it was written. -/
  resetNotation : String
  resetPattern : Pattern

namespace Manager

/-- A manager, if the reset pattern is one. -/
def ofPattern? (timeouts : Timeouts) (resetNotation : String) : Option Manager :=
  (Pattern.read? resetNotation).map fun resetPattern => { timeouts, resetNotation, resetPattern }

/-- The handles that accept a factory reset: registry entries and raw HID devices. -/
def standardReset : String := "(ioreg://\\d+|/dev/hidraw\\d+)"

/-- A manager with what it goes by. -/
def shown (manager : Manager) : String :=
  "Fido2Manager \x7b timeouts: " ++ manager.timeouts.shown ++ ", reset_pattern: " ++
    Text.quoted manager.resetNotation ++ ", .. \x7d"

/-! ## Running the tool -/

/-- Runs the tool. What it replies is no failure, whatever it says. -/
def runTool (call : Invocation) (within : Nat) : Attempt Reply :=
  .mk (Procedure.call call within)

/-- Runs the tool, and fails with the device error in its reply. -/
def runChecked (call : Invocation) (within : Nat) : Attempt Reply := do
  let reply ← runTool call within
  match reply.deviceError? with
  | some error => throw (.device error)
  | none => return reply

/-- Holds the lock of a handle from here on. -/
def withLock {α : Type} (handle : String) (body : Attempt α) : Attempt α :=
  .mk (Procedure.holding handle body.run)

/-! ## Listing and selecting -/

/-- Lists the connected devices. The listing never reports a device error: it works or it fails. -/
def tryListDevices (manager : Manager) : Attempt (List Device) := do
  let reply ← runTool .listDevices manager.timeouts.invocation
  if reply.succeeded then return Device.ofListing reply.stdout
  else throw (.exited reply.code reply.stderr)

/-- The connected devices, or none if they cannot be listed. -/
def listDevices (manager : Manager) : Procedure (List Device) := do
  match ← manager.tryListDevices.run with
  | .ok devices => return devices
  | .error _ => return []

/-- A session on the device with a number in a fresh listing. -/
def selectDevice (manager : Manager) (ordinal : Nat) (pin : Option Pin) : Attempt Session := do
  let devices ← manager.tryListDevices
  match devices.find? fun device => device.ordinal = ordinal with
  | some device => return Session.begin device pin
  | none => throw (.noSuchDevice ordinal)

/-! ## Loading attributes -/

/-- What was loaded, with the warning that a legacy device gives. -/
structure AttributeLoad where
  attributes : Attributes
  warning : Option DeviceError

/-- Loads what a device says about its storage, then what it says about itself. A legacy device
cannot tell about its storage, which is no more than a warning. -/
def loadReports (handle : String) (pin : Option Pin) (within : Nat) : Attempt AttributeLoad := do
  let storage ← runTool (.storageInfo handle pin) within
  let stored : AttributeLoad ←
    match storage.deviceError? with
    | some error =>
      if error.kind = .legacyDevice then pure ⟨.empty, some error⟩ else throw (.device error)
    | none => pure ⟨.ofReport storage.stdout, none⟩
  let info ← runChecked (.deviceInfo handle pin) within
  return ⟨stored.attributes.extend info.stdout, stored.warning⟩

/-- Loads all attributes into a session, with its PIN. -/
def loadAttributes (manager : Manager) (session : Session) :
    Procedure (Session × Except Failure (Option DeviceError)) :=
  .holding session.handle do
    match ← (loadReports session.handle session.pin? manager.timeouts.invocation).run with
    | .ok load => return (session.withAttributes load.attributes, .ok load.warning)
    | .error failure => return (session, .error failure)

/-- Loads into a session what its device says about itself, without a PIN. -/
def loadBasicAttributes (manager : Manager) (session : Session) :
    Procedure (Session × Except Failure Unit) :=
  .holding session.handle do
    match ← (runChecked (.deviceInfo session.handle none) manager.timeouts.invocation).run with
    | .ok reply => return (session.withAttributes (.ofReport reply.stdout), .ok ())
    | .error failure => return (session, .error failure)

/-! ## Passkeys and fingerprints -/

/-- The PIN of a session, for operations that need one. -/
def requirePin (session : Session) : Attempt Pin :=
  match session.pin? with
  | some pin => return pin
  | none => throw .pinRequired

/-- Lists the passkeys of sites, one after the other. -/
def listSites (handle : String) (pin : Option Pin) (within : Nat) :
    List String → Attempt (List Site)
  | [] => return []
  | domain :: domains => do
    let reply ← runChecked (.listCredentials handle pin domain) within
    let sites ← listSites handle pin within domains
    return Site.ofListing domain reply.stdout :: sites

/-- Lists all passkeys on a session's device by site. The first failure ends the walk, and nothing
that was gathered before it is kept. -/
def listCredentials (manager : Manager) (session : Session) : Attempt (List Site) := do
  let pin ← requirePin session
  withLock session.handle do
    let within := manager.timeouts.invocation
    let reply ← runChecked (.listDomains session.handle (some pin)) within
    listSites session.handle (some pin) within (Site.domainsOf reply.stdout)

/-- Lists the fingerprints on a session's device. -/
def listFingerprints (manager : Manager) (session : Session) : Attempt (List Fingerprint) := do
  let pin ← requirePin session
  withLock session.handle do
    let reply ←
      runChecked (.listFingerprints session.handle (some pin)) manager.timeouts.invocation
    return Fingerprint.ofListing reply.stdout

/-! ## Setting and changing the PIN -/

/-- Runs a PIN dialog with a device. If the new PIN was refused and the tool did not say how long
it must be, the device is asked; that answer never stands in for the refusal. -/
def runDialog (handle : String) (dialog : Dialog) : Attempt PinOutcome := do
  let outcome ← ExceptT.mk (Procedure.talk (dialog.invocation handle) dialog)
  match outcome with
  | .policyViolation error =>
    if error.kind = .policyViolation none then
      let answer ← ExceptT.lift
        (Procedure.call (.deviceInfo handle none) dialog.timeouts.invocation)
      match answer with
      | .ok reply =>
        return .policyViolation (error.withMinLength (PinPolicy.minLength? reply.stdout))
      | .error _ => return outcome
    else return outcome
  | _ => return outcome

/-- Runs a PIN dialog with a session's device. The new PIN becomes the session's if the device took
it. -/
def pinDialog (session : Session) (dialog : Dialog) :
    Procedure (Session × Except Failure PinOutcome) :=
  .holding session.handle do
    match ← (runDialog session.handle dialog).run with
    | .ok .success => return (session.enterPin dialog.newPin.pin, .ok .success)
    | outcome => return (session, outcome)

/-- Sets a first PIN. -/
def setPin (manager : Manager) (session : Session) (newPin : NewPin) (observed : Bool) :
    Procedure (Session × Except Failure PinOutcome) :=
  pinDialog session (.set newPin manager.timeouts observed)

/-- Changes the PIN of a session. -/
def changePin (manager : Manager) (session : Session) (newPin : NewPin) (observed : Bool) :
    Procedure (Session × Except Failure PinOutcome) :=
  match session.pin? with
  | none => return (session, .error .pinRequired)
  | some current => pinDialog session (.change current newPin manager.timeouts observed)

/-! ## Factory reset -/

/-- The part of the first handle that matches the reset pattern, of those that have one. -/
def resettable? (pattern : Pattern) (handles : List String) : Option String :=
  handles.findSome? pattern.find?

example : (Pattern.read? standardReset).bind
    (resettable? · ["pcsc://slot0", "x/dev/hidraw12:1"]) = some "/dev/hidraw12" := by
  decide +kernel

/-- Resets the device with a handle that was plugged in at some time, unless that is too long
ago. -/
def resetDevice (manager : Manager) (handle : String) (pluggedIn : Int) : Attempt Unit := do
  let now ← ExceptT.lift Procedure.now
  if now - pluggedIn > manager.timeouts.replugWindow then throw .replugWindowElapsed
  else
    let _ ← runChecked (.factoryReset handle) manager.timeouts.touch
    return ()

/-- Resets the first listed device that accepts it. Its lock is taken before the clock is read. -/
def factoryReset (manager : Manager) (pluggedIn : Int) : Attempt String := do
  let devices ← manager.tryListDevices
  match resettable? manager.resetPattern (devices.map Device.handle) with
  | none => throw .noResettableDevice
  | some handle =>
    withLock handle do
      manager.resetDevice handle pluggedIn
      return handle

/-- The whole seconds that are left for a reset of a key that was plugged in `age` milliseconds
ago, one that has begun included. -/
def resetSecondsLeft (manager : Manager) (age : Nat) : Nat :=
  (manager.timeouts.replugWindow - age + 999) / 1000

end Manager

end SecurityKey
