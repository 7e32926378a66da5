import SecurityKey.Manager
/-!
# Actions on a session

Everything that can be done with a session, as data, so that one function performs any sequence of
actions. `Manager.perform` gives the session back with the answer, and `Manager.serve` also takes
the requests that begin and end sessions.
-/

namespace SecurityKey

/-- What can be done with a session. -/
inductive Action
  | enterPin (pin : Pin)
  | loadAttributes
  | loadBasicAttributes
  | listCredentials
  | listFingerprints
  | setPin (newPin : NewPin) (observed : Bool)
  | changePin (newPin : NewPin) (observed : Bool)
  | deleteCredential (id : String)
  | enrollFingerprint
  | deleteFingerprint (id : String)
  | renameFingerprint (id name : String)
deriving DecidableEq

/-- What can be asked for with or without a session. -/
inductive Request
  | listDevices
  | tryListDevices
  /-- Ends the session and lists the devices. -/
  | refresh
  | select (ordinal : Nat) (pin : Option Pin)
  | factoryReset (pluggedIn : Int)
  /-- Ends the session. -/
  | finish
deriving DecidableEq

/-- The session that is left when a request is given up before it is served. A session that was to
end has ended. -/
def Request.sessionIfGivenUp (session : Option Session) : Request → Option Session
  | .refresh | .finish => none
  | _ => session

/-- What is answered. -/
inductive Answer
  | nothing
  | warning (error : Option DeviceError)
  | devices (devices : List Device)
  | sites (sites : List Site)
  | fingerprints (fingerprints : List Fingerprint)
  | pinOutcome (outcome : PinOutcome)
  | handle (handle : String)
deriving DecidableEq

namespace Manager

/-- Performs an action on a session. -/
def perform (manager : Manager) (session : Session) (action : Action) :
    Procedure (Session × Except Failure Answer) := do
  match action with
  | .enterPin pin => return (session.enterPin pin, .ok .nothing)
  | .loadAttributes =>
    let (session, answer) ← manager.loadAttributes session
    return (session, answer.map .warning)
  | .loadBasicAttributes =>
    let (session, answer) ← manager.loadBasicAttributes session
    return (session, answer.map fun _ => .nothing)
  | .listCredentials =>
    let answer ← (manager.listCredentials session).run
    return (session, answer.map .sites)
  | .listFingerprints =>
    let answer ← (manager.listFingerprints session).run
    return (session, answer.map .fingerprints)
  | .setPin newPin observed =>
    let (session, answer) ← manager.setPin session newPin observed
    return (session, answer.map .pinOutcome)
  | .changePin newPin observed =>
    let (session, answer) ← manager.changePin session newPin observed
    return (session, answer.map .pinOutcome)
  | .deleteCredential id => handOff session (.deleteCredential session.handle id)
  | .enrollFingerprint => handOff session (.enrollFingerprint session.handle)
  | .deleteFingerprint id => handOff session (.deleteFingerprint session.handle id)
  | .renameFingerprint id name => handOff session (.renameFingerprint session.handle id name)
where
  /-- Hands an invocation to a terminal window. -/
  handOff (session : Session) (call : Invocation) :
      Procedure (Session × Except Failure Answer) := do
    let answer ← Procedure.handOff call
    return (session, answer.map fun _ => .nothing)

/-- Serves a request where there may be a session. -/
def serve (manager : Manager) (session : Option Session) (request : Request) :
    Procedure (Option Session × Except Failure Answer) := do
  match request with
  | .listDevices => return (session, .ok (.devices (← manager.listDevices)))
  | .tryListDevices =>
    let answer ← manager.tryListDevices.run
    return (session, answer.map .devices)
  | .refresh => return (none, .ok (.devices (← manager.listDevices)))
  | .select ordinal pin =>
    match ← (manager.selectDevice ordinal pin).run with
    | .ok selected => return (some selected, .ok .nothing)
    | .error failure => return (session, .error failure)
  | .factoryReset pluggedIn =>
    let answer ← (manager.factoryReset pluggedIn).run
    return (session, answer.map .handle)
  | .finish => return (none, .ok .nothing)

end Manager

end SecurityKey
