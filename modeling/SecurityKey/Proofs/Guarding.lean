import Mathlib.Tactic.Common
import SecurityKey.Manager.Action
import SecurityKey.Proofs.Invocation
import SecurityKey.Proofs.Manager
/-!
# Requests one by one, and the lock behind them

A procedure is at a request until that is answered, and then at the next one (`Answers`). A `Path`
is the way that a procedure has come so far; one that has come to its end is a walk
(`walk_iff_path`).

**Guarding.** A procedure guards its invocations if it asks for a lock only while it holds none, and
runs the tool or talks to it for no other handle than the one whose lock it holds (`Guards`). The
property goes through composed procedures with what is held in between, so each operation is
guarded because its parts are (`guards_perform`, `guards_serve`). Terminal windows are not waited
for, and no lock is taken for them.
-/

namespace SecurityKey

namespace Procedure

variable {α β : Type} {p next rest : Procedure α} {trace more : List Exchange}
  {exchange : Exchange} {result : α}

/-! ## One request after the other -/

/-- A kind of request. -/
inductive Ask
  /-- To run the tool, or to hold a dialog with it. -/
  | tool (call : Invocation)
  | window (call : Invocation)
  | lock (handle : String)
  | time
  | print (text : String)
deriving DecidableEq

/-- The request that a procedure is at, unless it is done. -/
def asks? : Procedure α → Option Ask
  | .done _ => none
  | .run call _ _ | .converse call _ _ => some (.tool call)
  | .launch call _ => some (.window call)
  | .acquire handle _ => some (.lock handle)
  | .clock _ => some .time
  | .say text _ => some (.print text)

/-- The request that was answered. -/
def Exchange.ask : Exchange → Ask
  | .ran call _ _ | .conversed call _ _ => .tool call
  | .launched call _ => .window call
  | .acquired handle => .lock handle
  | .read _ => .time
  | .said text => .print text

/-- The request that a procedure is at is answered, and it goes on with the rest. -/
inductive Answers : Procedure α → Exchange → Procedure α → Prop
  | run {call : Invocation} {within : Nat} {next : Except Failure Reply → Procedure α}
      (answer : Except Failure Reply) :
      Answers (.run call within next) (.ran call within answer) (next answer)
  | converse {call : Invocation} {dialog : Dialog} {next : Except Failure PinOutcome → Procedure α}
      {answer : Except Failure PinOutcome} : DialogAnswer dialog answer →
      Answers (.converse call dialog next) (.conversed call dialog answer) (next answer)
  | launch {call : Invocation} {next : Except Failure Unit → Procedure α}
      (answer : Except Failure Unit) :
      Answers (.launch call next) (.launched call answer) (next answer)
  | acquire {handle : String} {next : Procedure α} :
      Answers (.acquire handle next) (.acquired handle) next
  | clock {next : Int → Procedure α} (now : Int) : Answers (.clock next) (.read now) (next now)
  | say {text : String} {next : Procedure α} : Answers (.say text next) (.said text) next

theorem Answers.asks? (h : Answers p exchange next) : p.asks? = some exchange.ask := by
  cases h <;> rfl

/-- The way that a procedure has come so far. -/
inductive Path : Procedure α → List Exchange → Procedure α → Prop
  | here (p : Procedure α) : Path p [] p
  | answered {p next rest : Procedure α} {exchange : Exchange} {trace : List Exchange} :
      Answers p exchange next → Path next trace rest → Path p (exchange :: trace) rest

theorem Path.append (h : Path p trace rest) (hmore : Path rest more next) :
    Path p (trace ++ more) next := by
  induction h with
  | here p => exact hmore
  | answered hfirst _ ih => exact .answered hfirst (ih hmore)

theorem Path.snoc (h : Path p trace rest) (hnext : Answers rest exchange next) :
    Path p (trace ++ [exchange]) next :=
  h.append (.answered hnext (.here next))

/-- A path to the end is a walk. -/
theorem walk_iff_path : Walk p trace result ↔ Path p trace (.done result) := by
  constructor
  · intro h
    induction h with
    | done result => exact .here _
    | run answer _ ih => exact .answered (.run answer) ih
    | converse answer ha _ ih => exact .answered (.converse ha) ih
    | launch answer _ ih => exact .answered (.launch answer) ih
    | acquire _ ih => exact .answered .acquire ih
    | clock now _ ih => exact .answered (.clock now) ih
    | say _ ih => exact .answered .say ih
  · intro h
    generalize hend : Procedure.done result = last at h
    induction h with
    | here p => exact hend ▸ .done result
    | answered hfirst _ ih =>
      have hrest := ih hend
      cases hfirst with
      | run answer => exact .run answer hrest
      | converse ha => exact .converse _ ha hrest
      | launch answer => exact .launch answer hrest
      | acquire => exact .acquire hrest
      | clock now => exact .clock now hrest
      | say => exact .say hrest

/-- Every procedure can be gone through to its end: nothing that it asks for is without an
answer. -/
theorem exists_walk (p : Procedure α) : ∃ trace result, Walk p trace result :=
  let tool : Tool :=
    ⟨fun _ _ _ => .error .noTerminal, fun _ _ _ => none, fun _ => .noTerminal,
      fun _ _ => .error .noTerminal, fun _ => 0⟩
  ⟨_, _, walk_follow tool [] p⟩

/-- A path goes on to the end, at first with the request that it has come to. -/
theorem Path.walk (h : Path p trace rest) {ask : Ask} (hask : rest.asks? = some ask) :
    ∃ exchange more result, exchange.ask = ask ∧ Walk p (trace ++ exchange :: more) result := by
  obtain ⟨remaining, result, hwalk⟩ := exists_walk rest
  have hpath := walk_iff_path.1 hwalk
  cases hpath with
  | here => cases hask
  | @answered _ _ _ exchange more hfirst hmore =>
    have hsame : exchange.ask = ask := Option.some.inj (hfirst.asks?.symm.trans hask)
    exact ⟨exchange, more, result, hsame, walk_iff_path.2 (h.append (.answered hfirst hmore))⟩

/-! ## Guarded procedures -/

/-- A procedure that begins with a lock, or with none, guards its invocations with it; `After` is
what is held at its end. -/
def Guards (After : Option String → Prop) : Option String → Procedure α → Prop
  | held, .done _ => After held
  | held, .run call _ next =>
    (call.handle? = none ∨ call.handle? = held) ∧
      ∀ answer, Guards After held (next answer)
  | held, .converse call _ next =>
    (call.handle? = none ∨ call.handle? = held) ∧
      ∀ answer, Guards After held (next answer)
  | held, .launch _ next => ∀ answer, Guards After held (next answer)
  | held, .acquire handle next => held = none ∧ Guards After (some handle) next
  | held, .clock next => ∀ now, Guards After held (next now)
  | held, .say _ next => Guards After held next

/-- Whatever is held at the end. -/
abbrev Anything (_ : Option String) : Prop := True

variable {After Finally : Option String → Prop} {held : Option String} {call : Invocation}
  {handle : String}

/-- The lock that is held after an answer. -/
def Exchange.heldAfter (held : Option String) : Exchange → Option String
  | .acquired handle => some handle
  | _ => held

theorem Guards.answers (h : Guards After held p) (hanswer : Answers p exchange next) :
    Guards After (exchange.heldAfter held) next := by
  cases hanswer with
  | run answer => exact h.2 answer
  | converse ha => exact h.2 _
  | launch answer => exact h answer
  | acquire => exact h.2
  | clock now => exact h now
  | say => exact h

/-- The tool works on a handle only while its lock is held. -/
theorem Guards.tool (h : Guards After held p) (hask : p.asks? = some (.tool call))
    (hhandle : call.handle? = some handle) : held = some handle := by
  have hcall : call.handle? = none ∨ call.handle? = held := by
    cases p with
    | run _ _ next =>
      cases hask
      exact h.1
    | converse _ _ next =>
      cases hask
      exact h.1
    | _ => cases hask
  rcases hcall with hnone | hheld
  · rw [hnone] at hhandle
    cases hhandle
  · rw [← hheld, hhandle]

/-- A lock is asked for only while none is held. -/
theorem Guards.lock (h : Guards After held p) (hask : p.asks? = some (.lock handle)) :
    held = none := by
  cases p with
  | acquire _ next => exact h.1
  | _ => cases hask

theorem guards_pure {a : α} (h : After held) : Guards After held (pure a : Procedure α) :=
  h

theorem guards_call {within : Nat} (hcall : call.handle? = none ∨ call.handle? = held) :
    Guards (· = held) held (Procedure.call call within) :=
  ⟨hcall, fun _ => rfl⟩

theorem guards_holding {body : Procedure α} (h : Guards After (some handle) body) :
    Guards After none (holding handle body) :=
  ⟨rfl, h⟩

theorem Guards.mono (h : Guards After held p) (hmono : ∀ held, After held → Finally held) :
    Guards Finally held p := by
  induction p generalizing held with
  | done a => exact hmono held h
  | run call within next ih => exact ⟨h.1, fun answer => ih answer (h.2 answer)⟩
  | converse call dialog next ih => exact ⟨h.1, fun answer => ih answer (h.2 answer)⟩
  | launch call next ih => exact fun answer => ih answer (h answer)
  | acquire handle next ih => exact ⟨h.1, ih h.2⟩
  | clock next ih => exact fun now => ih now (h now)
  | say text next ih => exact ih h

theorem Guards.bind {f : α → Procedure β} (hp : Guards After held p)
    (hf : ∀ a held, After held → Guards Finally held (f a)) : Guards Finally held (p >>= f) := by
  show Guards Finally held (p.bind f)
  induction p generalizing held with
  | done a => exact hf a held hp
  | run call within next ih => exact ⟨hp.1, fun answer => ih answer (hp.2 answer)⟩
  | converse call dialog next ih => exact ⟨hp.1, fun answer => ih answer (hp.2 answer)⟩
  | launch call next ih => exact fun answer => ih answer (hp answer)
  | acquire handle next ih => exact ⟨hp.1, ih hp.2⟩
  | clock next ih => exact fun now => ih now (hp now)
  | say text next ih => exact ih hp

/-- An attempt stops with what it holds where its first part fails. -/
theorem Guards.attempt_bind {ε : Type} {p : ExceptT ε Procedure α}
    {f : α → ExceptT ε Procedure β} (hp : Guards After held p.run)
    (hf : ∀ a held, After held → Guards Finally held (f a).run)
    (hfail : ∀ held, After held → Finally held) : Guards Finally held (p >>= f).run := by
  rw [ExceptT.run_bind]
  refine hp.bind fun inner held hheld => ?_
  cases inner with
  | error failure => exact guards_pure (hfail held hheld)
  | ok a => exact hf a held hheld

/-- A rest that asks for nothing takes no lock and drops none. -/
theorem Guards.andThen {f : α → Procedure β} (hp : Guards After held p)
    (hf : ∀ a, ∃ b, f a = pure b) : Guards After held (p >>= f) := by
  refine hp.bind fun a held hheld => ?_
  obtain ⟨b, hb⟩ := hf a
  rw [hb]
  exact guards_pure hheld

end Procedure

/-! ## The operations of a manager -/

namespace Manager

open Procedure

variable {held : Option String} {call : Invocation} {within : Nat} {handle : String}

theorem guards_runTool (hcall : call.handle? = some handle) :
    Guards (· = some handle) (some handle) (runTool call within).run :=
  guards_call (.inr hcall)

theorem guards_runChecked (hcall : call.handle? = some handle) :
    Guards (· = some handle) (some handle) (runChecked call within).run := by
  refine (guards_runTool hcall).attempt_bind (fun reply held hheld => ?_) fun _ h => h
  split
  · exact guards_pure hheld
  · exact guards_pure hheld

theorem guards_tryListDevices (manager : Manager) :
    Guards (· = held) held manager.tryListDevices.run := by
  refine Guards.attempt_bind (guards_call (.inl rfl)) (fun reply held' hheld => ?_) fun _ h => h
  split_ifs
  · exact guards_pure hheld
  · exact guards_pure hheld

theorem guards_loadReports (pin : Option Pin) :
    Guards (· = some handle) (some handle) (loadReports handle pin within).run := by
  rw [loadReports_eq]
  refine (guards_runTool rfl).attempt_bind (fun reply held hheld => ?_) fun _ h => h
  subst hheld
  have hstored : Guards (· = some handle) (some handle)
      (ExceptT.mk (pure (storedIn reply)) : Attempt AttributeLoad).run := rfl
  refine hstored.attempt_bind (fun stored held hheld => ?_) fun _ h => h
  subst hheld
  refine (guards_runChecked rfl).attempt_bind (fun info held hheld => ?_) fun _ h => h
  exact guards_pure hheld

theorem guards_listSites (pin : Option Pin) (domains : List String) :
    Guards (· = some handle) (some handle) (listSites handle pin within domains).run := by
  induction domains with
  | nil => exact guards_pure rfl
  | cons domain domains ih =>
    refine (guards_runChecked rfl).attempt_bind (fun reply held hheld => ?_) fun _ h => h
    subst hheld
    exact ih.attempt_bind (fun sites held hheld => guards_pure hheld) fun _ h => h

/-- A dialog, and the question about the length of a PIN that may follow, are for one handle. -/
theorem guards_runDialog (dialog : Dialog) :
    Guards (· = some handle) (some handle) (runDialog handle dialog).run := by
  have hdialog : (dialog.invocation handle).handle? = some handle := by
    rw [Dialog.invocation]
    cases dialog.current <;> rfl
  have htalk : Guards (· = some handle) (some handle)
      (talk (dialog.invocation handle) dialog) := ⟨.inr hdialog, fun _ => rfl⟩
  refine Guards.attempt_bind htalk (fun outcome held hheld => ?_) fun _ h => h
  subst hheld
  cases outcome with
  | policyViolation error =>
    dsimp only
    split_ifs
    · have hlength : Guards (· = some handle) (some handle)
          (ExceptT.lift (Procedure.call (.deviceInfo handle none) dialog.timeouts.invocation) :
            Attempt (Except Failure Reply)).run := ⟨.inr rfl, fun _ => rfl⟩
      refine hlength.attempt_bind (fun answer held hheld => ?_) fun _ h => h
      cases answer with
      | ok reply => exact guards_pure hheld
      | error failure => exact guards_pure hheld
    · exact guards_pure rfl
  | _ => exact guards_pure rfl

theorem guards_loadAttributes (manager : Manager) (session : Session) :
    Guards Anything none (manager.loadAttributes session) := by
  refine guards_holding ((guards_loadReports _).bind fun result held _ => ?_)
  cases result <;> exact guards_pure trivial

theorem guards_loadBasicAttributes (manager : Manager) (session : Session) :
    Guards Anything none (manager.loadBasicAttributes session) := by
  refine guards_holding ((guards_runChecked rfl).bind fun result held _ => ?_)
  cases result <;> exact guards_pure trivial

/-- An operation that needs a PIN asks for nothing where there is none. -/
theorem guards_requirePin (session : Session) :
    Guards (· = none) none (requirePin session).run := by
  rw [requirePin]
  cases session.pin? <;> exact guards_pure rfl

theorem guards_listCredentials (manager : Manager) (session : Session) :
    Guards Anything none (manager.listCredentials session).run := by
  refine (guards_requirePin session).attempt_bind (fun pin held hheld => ?_) fun _ _ => trivial
  subst hheld
  refine guards_holding ((guards_runChecked rfl).attempt_bind
    (fun reply held hheld => ?_) fun _ _ => trivial)
  subst hheld
  exact (guards_listSites (some pin) _).mono fun _ _ => trivial

theorem guards_listFingerprints (manager : Manager) (session : Session) :
    Guards Anything none (manager.listFingerprints session).run := by
  refine (guards_requirePin session).attempt_bind (fun pin held hheld => ?_) fun _ _ => trivial
  subst hheld
  refine guards_holding ((guards_runChecked rfl).attempt_bind
    (fun reply held _ => ?_) fun _ _ => trivial)
  exact guards_pure trivial

theorem guards_pinDialog (session : Session) (dialog : Dialog) :
    Guards Anything none (pinDialog session dialog) := by
  refine guards_holding ((guards_runDialog dialog).bind fun result held _ => ?_)
  split
  · exact guards_pure trivial
  · exact guards_pure trivial

theorem guards_resetDevice (manager : Manager) (handle : String) (pluggedIn : Int) :
    Guards (· = some handle) (some handle) (manager.resetDevice handle pluggedIn).run := by
  have hnow : Guards (· = some handle) (some handle)
      (ExceptT.lift now : Attempt Int).run := fun _ => rfl
  refine hnow.attempt_bind (fun now held hheld => ?_) fun _ h => h
  subst hheld
  split_ifs
  · exact guards_pure rfl
  · exact (guards_runChecked rfl).attempt_bind (fun reply held hheld => guards_pure hheld)
      fun _ h => h

/-- The listing is for no handle, and the reset runs under the lock of its target. -/
theorem guards_factoryReset (manager : Manager) (pluggedIn : Int) :
    Guards Anything none (manager.factoryReset pluggedIn).run := by
  refine (guards_tryListDevices manager).attempt_bind (fun devices held hheld => ?_)
    fun _ _ => trivial
  subst hheld
  split
  · exact guards_pure trivial
  · next handle _ =>
    exact guards_holding ((guards_resetDevice manager handle pluggedIn).attempt_bind
      (fun _ held _ => guards_pure trivial) fun _ _ => trivial)

/-! ## All operations -/

theorem guards_perform (manager : Manager) (session : Session) (action : Action) :
    Guards Anything none (manager.perform session action) := by
  cases action with
  | enterPin pin => exact guards_pure trivial
  | loadAttributes => exact (guards_loadAttributes manager session).andThen fun _ => ⟨_, rfl⟩
  | loadBasicAttributes =>
    exact (guards_loadBasicAttributes manager session).andThen fun _ => ⟨_, rfl⟩
  | listCredentials => exact (guards_listCredentials manager session).andThen fun _ => ⟨_, rfl⟩
  | listFingerprints => exact (guards_listFingerprints manager session).andThen fun _ => ⟨_, rfl⟩
  | setPin newPin observed => exact (guards_pinDialog session _).andThen fun _ => ⟨_, rfl⟩
  | changePin newPin observed =>
    refine Guards.andThen ?_ fun _ => ⟨_, rfl⟩
    rw [changePin]
    cases session.pin? with
    | none => exact guards_pure trivial
    | some current => exact guards_pinDialog session _
  | _ => exact fun answer => trivial

theorem guards_serve (manager : Manager) (session : Option Session) (request : Request) :
    Guards Anything none (manager.serve session request) := by
  have hlist : Guards Anything none manager.tryListDevices.run :=
    (guards_tryListDevices manager).mono fun _ _ => trivial
  have hdevices : Guards Anything none manager.listDevices := by
    refine hlist.bind fun result held _ => ?_
    cases result <;> exact guards_pure trivial
  cases request with
  | listDevices => exact hdevices.andThen fun _ => ⟨_, rfl⟩
  | tryListDevices => exact hlist.andThen fun _ => ⟨_, rfl⟩
  | refresh => exact hdevices.andThen fun _ => ⟨_, rfl⟩
  | select ordinal pin =>
    have hselect : Guards Anything none (manager.selectDevice ordinal pin).run := by
      refine hlist.attempt_bind (fun devices held _ => ?_) fun _ _ => trivial
      split
      · exact guards_pure trivial
      · exact guards_pure trivial
    refine hselect.bind fun result held _ => ?_
    cases result <;> exact guards_pure trivial
  | factoryReset pluggedIn =>
    exact (guards_factoryReset manager pluggedIn).andThen fun _ => ⟨_, rfl⟩
  | finish => exact guards_pure trivial

end Manager

end SecurityKey
