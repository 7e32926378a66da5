import SecurityKey.Proofs.Interleaving
/-!
# One conversation for each device

However many operations run beside each other, on however many devices, and whichever of them are
given up at whatever moment: the tool works on a device for one operation at a time, and the
invocations of one operation are not divided by those of another (`exclusive_of_run`). Nobody waits
for a device because of another one, and nobody who was given up is waited for.

A session that is used by several operations in turn is handed on by whoever uses it, so each
operation here has the session that it was given, whatever that is.
-/

namespace SecurityKey

open Procedure

/-- What can be asked of a manager. -/
inductive Operation
  /-- An action on a session. -/
  | perform (session : Session) (action : Action)
  /-- A request where there may be a session. -/
  | serve (session : Option Session) (request : Request)

/-- What an operation does. -/
def Operation.procedure (manager : Manager) :
    Operation → Procedure (Option Session × Except Failure Answer)
  | .perform session action => do
    let (session, answer) ← manager.perform session action
    return (some session, answer)
  | .serve session request => manager.serve session request

theorem Operation.guards (manager : Manager) (operation : Operation) :
    Guards Anything none (operation.procedure manager) := by
  cases operation with
  | perform session action =>
    exact (Manager.guards_perform manager session action).andThen fun _ => ⟨_, rfl⟩
  | serve session request => exact Manager.guards_serve manager session request

namespace Interleaving

variable {ι α : Type} [DecidableEq ι] {log : List (ι × Move)} {s : State ι α}

/-- The tool works on a device for one operation at a time, at one moment of a run and on the way
there. -/
structure Exclusive (log : List (ι × Move)) (s : State ι α) : Prop where
  /-- The lock of a handle has one holder. -/
  one_holder : ∀ {handle id other}, (id, handle) ∈ s.locks.granted →
    (other, handle) ∈ s.locks.granted → id = other
  /-- While the tool works on a handle for an operation, that one holds the lock of the handle. -/
  guarded : ∀ {id rest call handle}, s.stands id = .asked rest →
    rest.asks? = some (.tool call) → call.handle? = some handle → (id, handle) ∈ s.locks.granted
  /-- Between two uses of the tool by one operation on a handle, no other operation uses it on that
  handle. -/
  undivided : ∀ {before middle after id first last handle},
    log = before ++ (id, first) :: (middle ++ (id, last) :: after) →
    first.handle? = some handle → last.handle? = some handle →
    ∀ other move, (other, move) ∈ middle → move.handle? = some handle → other = id
  /-- An operation that waits for a lock gets it exactly if it is the first one in its queue. -/
  gets_lock_iff : ∀ {id rest handle}, s.stands id = .asked rest →
    rest.asks? = some (.lock handle) →
    ((∃ t, Step s (id, .answered (.acquired handle)) t) ↔ (s.locks.queue handle).head? = some id)
  /-- Whoever stands ahead of it has asked for the same lock before, and holds it or waits for
  it. -/
  ahead : ∀ {id handle ahead behind}, s.locks.queue handle = ahead ++ id :: behind →
    ∀ other ∈ ahead, [(other, handle), (id, handle)].Sublist (lockAsks log) ∧
      ((other, handle) ∈ s.locks.granted ∨
        ∃ rest, s.stands other = .asked rest ∧ rest.asks? = some (.lock handle))
  /-- Any operation that is not over can be given up, and leaves every queue. -/
  leaves : ∀ {id}, (s.stands id).rest?.isSome → ∃ t, Step s (id, .givenUp) t ∧
    ∀ handle, t.locks.queue handle = (s.locks.queue handle).filter (· ≠ id)
  /-- Once those are given up that stand ahead of it, a waiting operation gets its lock. -/
  obtainable : ∀ {id rest handle}, s.stands id = .asked rest → rest.asks? = some (.lock handle) →
    ∃ ahead behind t, s.locks.queue handle = ahead ++ id :: behind ∧
      Run s (ahead.map (·, .givenUp) ++ [(id, .answered (.acquired handle))]) t
  /-- The queues are those of a table in which each handle has a lock of its own. -/
  table : ∀ handle, (tableAfter log).queue handle = s.locks.queue handle
  /-- Every request for a handle finds one lock, whatever else was asked for before and since, and
  it is no other handle's. -/
  same_lock : ∀ {before id handle after}, log = before ++ (id, .asks (.lock handle)) :: after →
    ∃ place, (tableAfter (before ++ [(id, .asks (.lock handle))])).lock? handle = some place ∧
      (tableAfter log).lock? handle = some place ∧
      ∀ other, (tableAfter log).lock? other = some place → other = handle

/-- **One conversation for each device.** -/
theorem exclusive_of_run (manager : Manager) (operations : ι → Operation)
    {s : State ι (Option Session × Except Failure Answer)}
    (h : Run (State.begin fun id => (operations id).procedure manager) log s) :
    Exclusive log s := by
  have hguards := fun id => (operations id).guards manager
  have hbegin := orderly_begin hguards
  have horderly := hbegin.run h
  constructor
  case one_holder => exact Locks.granted_unique
  case guarded => exact horderly.guarded
  case undivided =>
    rintro before middle after id first last handle rfl hfirst - other move hmem hmove
    exact hbegin.undivided h hfirst hmem hmove
  case gets_lock_iff => exact horderly.gets_lock_iff
  case ahead =>
    intro id handle ahead behind hqueue other hmem
    refine ⟨(Locks.sublist_of_queue hqueue hmem).trans (requests_sublist h), ?_⟩
    exact horderly.holds_or_waits (Locks.mem_queue.1 (hqueue ▸ List.mem_append_left _ hmem))
  case leaves => exact fun hlive => ⟨_, .giveUp hlive, fun handle => Locks.queue_drop⟩
  case obtainable =>
    intro id rest handle hstand hask
    have hmem := Locks.mem_queue.2 (horderly.waits_in_queue hstand hask)
    obtain ⟨ahead, behind, hqueue⟩ := List.append_of_mem hmem
    obtain ⟨t, hrun⟩ := horderly.obtainable hstand hask hqueue
    exact ⟨ahead, behind, t, hqueue, hrun⟩
  case table => exact fun handle => queue_tableAfter hguards h
  case same_lock =>
    rintro before id handle after rfl
    obtain ⟨place, hfound⟩ := lock?_tableAfter_asks before id handle
    have hlater := lock?_tableAfter hfound after
    rw [List.append_assoc, List.singleton_append] at hlater
    exact ⟨place, hfound, hlater, fun other hother => LockTable.lock?_inj hother hlater⟩

/-- Two operations ask for one device. The first one is given up while the tool works for it, and
the other one goes on. -/
def handedOver : List (Bool × Move) :=
  [(false, .asks (.lock "/dev/hidraw4")), (true, .asks (.lock "/dev/hidraw4")),
    (false, .answered (.acquired "/dev/hidraw4")),
    (false, .asks (.tool (.deviceInfo "/dev/hidraw4" none))), (false, .givenUp),
    (true, .answered (.acquired "/dev/hidraw4")),
    (true, .asks (.tool (.deviceInfo "/dev/hidraw4" none)))]

theorem exclusive_of_run_handedOver :
    ∃ s, Run (State.begin fun _ => Operation.procedure ⟨.standard, "", .empty⟩
        (.perform (.begin ⟨"/dev/hidraw4", "Key", 1⟩ none) .loadBasicAttributes)) handedOver s ∧
      Exclusive handedOver s ∧ s.locks.granted = [(true, "/dev/hidraw4")] := by
  have hrun : ∃ s, Run (State.begin fun _ => Operation.procedure ⟨.standard, "", .empty⟩
      (.perform (.begin ⟨"/dev/hidraw4", "Key", 1⟩ none) .loadBasicAttributes)) handedOver s ∧
      s.locks.granted = [(true, "/dev/hidraw4")] := by
    refine ⟨_, .cons (.ask rfl rfl) (.cons (.ask rfl rfl) (.cons
      (.answer rfl .acquire fun _ _ => by decide) (.cons (.ask rfl rfl) (.cons (.giveUp rfl) (.cons
        (.answer rfl .acquire fun _ _ => by decide) (.cons (.ask rfl rfl) (.nil _))))))), ?_⟩
    rfl
  obtain ⟨s, hrun, hgranted⟩ := hrun
  exact ⟨s, hrun, exclusive_of_run _ _ hrun, hgranted⟩

end Interleaving

end SecurityKey
