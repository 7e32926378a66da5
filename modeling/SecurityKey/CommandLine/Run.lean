import SecurityKey.CommandLine.Command
import SecurityKey.CommandLine.Prompt
import SecurityKey.Manager
/-!
# Running a command

A command is a procedure over the lines of the user's input: it prints, asks, and uses the
manager's operations. A device is always selected before a PIN is asked for, and nothing is printed
of a list that could not be read to its end.

What goes wrong is told in one line, and what to do about it in another where a device error says
so.
-/

namespace SecurityKey.CommandLine

/-- Why a command did not succeed. -/
inductive Trouble
  | failed (failure : Failure)
  /-- The device stopped answering in a PIN dialog. -/
  | unresponsive
  /-- The input ended where a new PIN is asked for until there is one: the command never ends. -/
  | endless
deriving DecidableEq

/-- A procedure that prints and may end in trouble. -/
abbrev Job := ExceptT Trouble Procedure

/-! ## Pieces -/

/-- Prints a text. -/
def say (text : String) : Job Unit :=
  ExceptT.lift (Procedure.print text)

/-- Prints a line. -/
def sayLine (line : String) : Job Unit :=
  say (line ++ "\n")

/-- Does what may fail. -/
def attempt {α : Type} (body : Attempt α) : Job α :=
  ExceptT.mk do
    match ← body.run with
    | .ok result => return .ok result
    | .error failure => return .error (.failed failure)

/-- Does what may fail on a session. -/
def onSession {α : Type} (body : Procedure (Session × Except Failure α)) : Job (Session × α) :=
  ExceptT.mk do
    match ← body with
    | (session, .ok result) => return .ok (session, result)
    | (_, .error failure) => return .error (.failed failure)

/-- Selects a device and says which. -/
def select (manager : Manager) (device : Nat) : Job Session := do
  let session ← attempt (manager.selectDevice device none)
  sayLine ("🔑 " ++ session.device.shown)
  return session

/-- The PIN that was given, or one that is asked for, and the input after it. -/
def resolvePin (pin : Option Pin) (input : List String) : Job (Pin × List String) :=
  match pin with
  | some pin => return (pin, input)
  | none => do
    say pinPrompt
    let (line, rest) := nextLine input
    return (⟨line⟩, rest)

/-- Asks for a new PIN. -/
def resolveNewPin (input : List String) : Job NewPin := do
  let (printed, answer) := askNewPin input
  say printed
  match answer with
  | some (newPin, _) => return newPin
  | none => throw .endless

/-- Selects a device and loads its attributes, with its PIN. -/
def openSession (manager : Manager) (device : Nat) (pin : Option Pin) (input : List String) :
    Job Session := do
  let session ← select manager device
  let (pin, _) ← resolvePin pin input
  let (session, warning) ← onSession (manager.loadAttributes (session.enterPin pin))
  match warning with
  | some error => sayLine ("⚠ " ++ error.message)
  | none => pure ()
  return session

/-! ## Commands -/

/-- Lists the connected devices. -/
def list (manager : Manager) : Job Unit := do
  let devices ← attempt manager.tryListDevices
  if devices.isEmpty then sayLine "No FIDO2 devices found!"
  else
    sayLine "Connected devices:"
    devices.forM fun device => sayLine ("  " ++ device.shown ++ "  " ++ device.handle)

/-- Yes or no, with its mark. -/
def yesNo (yes : Bool) : String :=
  if yes then "✅ Yes" else "❌ No"

/-- Prints the attributes of a session and what its device can do. -/
def sayAttributes (session : Session) : Job Unit := do
  sayLine "\n📊 Device information:"
  session.attributes.rows.forM fun row => sayLine ("  " ++ row.render)
  let capabilities := session.capabilities
  sayLine "\n🛠 Available actions:"
  sayLine ("  Manage passkeys: " ++ yesNo capabilities.passkeys)
  sayLine ("  Change PIN: " ++ yesNo capabilities.changePin)
  sayLine ("  Manage fingerprints: " ++ yesNo capabilities.fingerprints)

/-- Shows what a device says about itself. -/
def info (manager : Manager) (device : Nat) (pin : Option Pin) (basic : Bool)
    (input : List String) : Job Unit := do
  if basic then
    let session ← select manager device
    let (session, _) ← onSession (manager.loadBasicAttributes session)
    sayAttributes session
  else
    sayAttributes (← openSession manager device pin input)

/-- Prints a passkey. -/
def sayCredential (credential : Credential) : Job Unit := do
  sayLine ("  Credential ID: " ++ credential.id)
  if credential.user.isEmpty then pure () else sayLine ("    User: " ++ credential.user)
  if credential.email.isEmpty then pure () else sayLine ("    Email: " ++ credential.email)

/-- Lists the passkeys on a device by site. -/
def passkeys (manager : Manager) (device : Nat) (pin : Option Pin) (input : List String) :
    Job Unit := do
  let session ← openSession manager device pin input
  if session.capabilities.passkeys then
    let sites ← attempt (manager.listCredentials session)
    sites.forM fun site => do
      sayLine ("\n🌐 " ++ site.domain)
      site.credentials.forM sayCredential
  else sayLine "No passkeys stored on this key."

/-- Hands an invocation on a device to a terminal window. -/
def handOff (manager : Manager) (device : Nat) (call : String → Invocation) : Job Unit := do
  let session ← select manager device
  attempt (ExceptT.mk (Procedure.handOff (call session.handle)))

/-- Hands the deletion of a passkey to a terminal window. -/
def deletePasskey (manager : Manager) (id : String) (device : Nat) : Job Unit := do
  handOff manager device (.deleteCredential · id)
  sayLine "🗑 Confirm the deletion in the new terminal window."
  sayLine "Run `fido2-manage passkeys` afterwards to check the result."

/-- Tells how a PIN dialog ended. -/
def finish (outcome : PinOutcome) (done : String) : Job Unit :=
  match outcome with
  | .success => sayLine ("✅ " ++ done)
  | .policyViolation error | .otherError error => throw (.failed (.device error))
  | .timeout => throw .unresponsive

/-- Sets a first PIN. -/
def setPin (manager : Manager) (device : Nat) (input : List String) : Job Unit := do
  let session ← select manager device
  let newPin ← resolveNewPin input
  let (_, outcome) ← onSession (manager.setPin session newPin false)
  finish outcome "PIN set successfully!"

/-- Changes the PIN of a device. -/
def changePin (manager : Manager) (device : Nat) (pin : Option Pin) (input : List String) :
    Job Unit := do
  let session ← select manager device
  let (pin, input) ← resolvePin pin input
  let newPin ← resolveNewPin input
  let (_, outcome) ← onSession (manager.changePin (session.enterPin pin) newPin true)
  finish outcome "PIN changed successfully!"

/-- Resets a device that has just been plugged in again. -/
def resetNow (manager : Manager) : Job Unit := do
  say "Unplug the key, plug it back in and press Enter..."
  let pluggedIn ← ExceptT.lift Procedure.now
  sayLine ("👆 Touch the key within " ++ Text.numeral (manager.timeouts.touch / 1000) ++
    "s when it blinks.")
  let handle ← attempt (manager.factoryReset pluggedIn)
  sayLine ("✅ " ++ handle ++ " was reset.")

/-- Resets a device, after asking whether to. -/
def reset (manager : Manager) (yes : Bool) (input : List String) : Job Unit := do
  sayLine
    "⚠ A factory reset deletes every passkey and the PIN. This cannot be undone."
  if yes then resetNow manager
  else
    say "Continue? [y/N]: "
    if isYes (nextLine input).1 then resetNow manager else sayLine "Reset cancelled."

/-- Lists the fingerprints on a device. -/
def listFingerprints (manager : Manager) (device : Nat) (pin : Option Pin)
    (input : List String) : Job Unit := do
  let session ← openSession manager device pin input
  if session.capabilities.fingerprints then
    let fingerprints ← attempt (manager.listFingerprints session)
    if fingerprints.isEmpty then sayLine "No fingerprints enrolled."
    else fingerprints.forM fun fingerprint =>
      sayLine ("  " ++ fingerprint.id ++ "  " ++
        (if fingerprint.name.isEmpty then "(unnamed)" else fingerprint.name))
  else sayLine "This key has no fingerprint sensor."

/-- Runs a command. -/
def run (manager : Manager) (input : List String) : Command → Job Unit
  | .list => list manager
  | .info device pin basic => info manager device pin basic input
  | .passkeys device pin => passkeys manager device pin input
  | .deletePasskey id device => deletePasskey manager id device
  | .setPin device => setPin manager device input
  | .changePin device pin => changePin manager device pin input
  | .reset yes => reset manager yes input
  | .listFingerprints device pin => listFingerprints manager device pin input
  | .addFingerprint device => do
    handOff manager device .enrollFingerprint
    sayLine "👆 Follow the prompts in the new terminal window."
  | .deleteFingerprint id device => do
    handOff manager device (.deleteFingerprint · id)
    sayLine "🗑 Confirm the deletion in the new terminal window."
  | .renameFingerprint id name device => do
    handOff manager device (.renameFingerprint · id name)
    sayLine "✏ Renaming in the new terminal window."

/-! ## Trouble -/

/-- What to do about a device error. -/
def hintFor? : Remedy → Option String
  | .retryPin => some "Run the command again with the correct PIN."
  | .replugDevice => some "Unplug and replug the key, then run `fido2-manage list`."
  | .setPin => some "Set a PIN first with `fido2-manage set-pin`."
  | .basicInfoOnly => some "Run `fido2-manage info --basic` to see what the key reports."
  | .chooseStrongerPin _ => some "Choose a longer PIN that is not a simple sequence."
  | .reportRaw => none

/-- What is printed about trouble: what went wrong, and what to do about it. -/
def Trouble.report : Trouble → String
  | .failed failure =>
    let hint := match failure with
      | .device error => hintFor? error.remedy
      | _ => none
    "❌ " ++ failure.message ++ "\n" ++ (hint.map fun hint => "💡 " ++ hint ++ "\n").getD ""
  | .unresponsive => "❌ The key stopped responding. Replug it and try again.\n"
  | .endless => ""

/-- The exit code of a command, if it ends. -/
def exitCode? : Except Trouble Unit → Option Nat
  | .ok () => some 0
  | .error .endless => none
  | .error _ => some 1

end SecurityKey.CommandLine
