import Mathlib.Tactic.Common
import SecurityKey.Proofs.Attributes
import SecurityKey.Proofs.Manager
/-!
# Loading attributes

The storage is asked about first, and then the device is asked about itself. `LoadWalk` has all ways
through this, with what is left of the session and what is answered: a device error in the first
reply ends the load, unless it is that of a legacy device, which becomes a warning. In the second
reply every device error ends it. Attributes are kept only where both went well.

What is kept of two reports is what one report would give that has both of them, a newline between
them, whatever the first one ends in.

Main statement: `loadAttributes_storage_first`.
-/

namespace SecurityKey.Manager

open Procedure

variable {manager : Manager} {session next : Session} {calls trace : List Exchange}
  {answer : Except Failure (Option DeviceError)}

/-- The question about the storage of a session's device, with the session's PIN. -/
def askedStorage (manager : Manager) (session : Session) (answer : Except Failure Reply) :
    Exchange :=
  .ran (.storageInfo session.handle session.pin?) manager.timeouts.invocation answer

/-- The question to a session's device about itself, with the session's PIN. -/
def askedDevice (manager : Manager) (session : Session) (answer : Except Failure Reply) :
    Exchange :=
  .ran (.deviceInfo session.handle session.pin?) manager.timeouts.invocation answer

/-- Whether the reply about the storage lets a load go on. -/
def GoesOn (storage : Reply) : Prop :=
  ∀ error, storage.deviceError? = some error → error.kind = .legacyDevice

/-- The ways through a load: what is asked and answered, the session that is left, and the warning
or the failure. -/
inductive LoadWalk (manager : Manager) (session : Session) :
    List Exchange → Session → Except Failure (Option DeviceError) → Prop
  /-- The tool could not be asked about the storage. -/
  | storageNotRun (failure : Failure) :
      LoadWalk manager session [askedStorage manager session (.error failure)]
        session (.error failure)
  /-- The question about the storage met an error, and not that of a legacy device. -/
  | storageRefused {storage : Reply} {error : DeviceError} :
      storage.deviceError? = some error → error.kind ≠ .legacyDevice →
      LoadWalk manager session [askedStorage manager session (.ok storage)]
        session (.error (.device error))
  /-- The tool could not be asked about the device. -/
  | deviceNotRun {storage : Reply} (failure : Failure) : GoesOn storage →
      LoadWalk manager session
        [askedStorage manager session (.ok storage), askedDevice manager session (.error failure)]
        session (.error failure)
  /-- The question to the device met an error of any kind. -/
  | deviceRefused {storage info : Reply} {error : DeviceError} : GoesOn storage →
      info.deviceError? = some error →
      LoadWalk manager session
        [askedStorage manager session (.ok storage), askedDevice manager session (.ok info)]
        session (.error (.device error))
  /-- A legacy device only tells about itself. -/
  | legacy {storage info : Reply} {error : DeviceError} :
      storage.deviceError? = some error → error.kind = .legacyDevice → info.deviceError? = none →
      LoadWalk manager session
        [askedStorage manager session (.ok storage), askedDevice manager session (.ok info)]
        (session.withAttributes (.ofReport info.stdout)) (.ok (some error))
  /-- Both reports are kept, in this order. -/
  | loaded {storage info : Reply} :
      storage.deviceError? = none → info.deviceError? = none →
      LoadWalk manager session
        [askedStorage manager session (.ok storage), askedDevice manager session (.ok info)]
        (session.withAttributes (.ofReport (storage.stdout ++ "\n" ++ info.stdout))) (.ok none)

/-- What a load leaves of a session, and what it answers. -/
def kept (session : Session) :
    Except Failure AttributeLoad → Session × Except Failure (Option DeviceError)
  | .ok load => (session.withAttributes load.attributes, .ok load.warning)
  | .error failure => (session, .error failure)

theorem walk_loadAttributes : Walk (manager.loadAttributes session) trace (next, answer) ↔
    ∃ calls, trace = .acquired session.handle :: calls ∧ ∃ result,
      Walk (loadReports session.handle session.pin? manager.timeouts.invocation).run calls result ∧
        (next, answer) = kept session result := by
  have hmap : manager.loadAttributes session = .holding session.handle
      ((loadReports session.handle session.pin? manager.timeouts.invocation).run >>=
        fun result => pure (kept session result)) := by
    rw [loadAttributes]
    congr 2
    funext result
    cases result <;> rfl
  simp only [hmap, walk_holding, walk_map_iff]

theorem goesOn_of_storedIn {storage : Reply} {load : AttributeLoad}
    (h : storedIn storage = .ok load) : GoesOn storage := by
  intro error herror
  rcases storedIn_eq_ok.1 h with ⟨other, hother, hkind, _⟩ | ⟨hnone, _⟩
  · obtain rfl : error = other := by simpa [herror] using hother
    exact hkind
  · simp [herror] at hnone

theorem exists_storedIn_of_goesOn {storage : Reply} (h : GoesOn storage) :
    ∃ load, storedIn storage = .ok load := by
  cases herror : storage.deviceError? with
  | none => exact ⟨_, storedIn_eq_ok.2 (.inr ⟨herror, rfl⟩)⟩
  | some error => exact ⟨_, storedIn_eq_ok.2 (.inl ⟨error, herror, h error herror, rfl⟩)⟩

/-- What becomes of both questions is one of the ways through a load. -/
theorem LoadWalk.of_reports {result : Except Failure AttributeLoad}
    (h : Walk (loadReports session.handle session.pin? manager.timeouts.invocation).run
      calls result) :
    LoadWalk manager session calls (kept session result).1 (kept session result).2 := by
  obtain ⟨storage, ⟨failure, hstored, rfl, rfl⟩ | ⟨stored, info, hstored, rfl, rfl⟩⟩ :=
    walk_loadReports.1 h
  · cases storage with
    | error other =>
      obtain rfl := Except.error.inj hstored
      exact .storageNotRun other
    | ok storage =>
      obtain ⟨error, herror, hkind, rfl⟩ := storedIn_eq_error.1 hstored
      exact .storageRefused herror hkind
  · cases storage with
    | error other => cases hstored
    | ok storage =>
      have hstored : storedIn storage = .ok stored := hstored
      cases hinfo : checked info with
      | error failure =>
        rcases checked_eq_error.1 hinfo with rfl | ⟨reply, error, rfl, herror, rfl⟩
        · exact .deviceNotRun failure (goesOn_of_storedIn hstored)
        · exact .deviceRefused (goesOn_of_storedIn hstored) herror
      | ok reply =>
        obtain ⟨rfl, hclean⟩ := checked_eq_ok.1 hinfo
        rcases storedIn_eq_ok.1 hstored with ⟨error, herror, hkind, rfl⟩ | ⟨hnone, rfl⟩
        · exact .legacy herror hkind hclean
        · have hload : LoadWalk manager session _ _ _ := .loaded hnone hclean
          rwa [Attributes.ofReport_append_newline] at hload

/-- Every one of these ways can be gone. -/
theorem LoadWalk.reports (h : LoadWalk manager session calls next answer) :
    ∃ result, Walk
      (loadReports session.handle session.pin? manager.timeouts.invocation).run calls result ∧
        (next, answer) = kept session result := by
  simp only [walk_loadReports]
  cases h with
  | storageNotRun failure =>
    exact ⟨.error failure, ⟨.error failure, .inl ⟨failure, rfl, rfl, rfl⟩⟩, rfl⟩
  | storageRefused herror hkind =>
    have hstored := storedIn_eq_error.2 ⟨_, herror, hkind, rfl⟩
    exact ⟨_, ⟨.ok _, .inl ⟨_, hstored, rfl, rfl⟩⟩, rfl⟩
  | deviceNotRun failure hgoes =>
    obtain ⟨load, hstored⟩ := exists_storedIn_of_goesOn hgoes
    exact ⟨.error failure, ⟨.ok _, .inr ⟨load, .error failure, hstored, rfl, rfl⟩⟩, rfl⟩
  | deviceRefused hgoes herror =>
    obtain ⟨load, hstored⟩ := exists_storedIn_of_goesOn hgoes
    have hinfo := checked_eq_error.2 (.inr ⟨_, _, rfl, herror, rfl⟩)
    exact ⟨_, ⟨.ok _, .inr ⟨load, .ok _, hstored, rfl, by rw [hinfo]⟩⟩, rfl⟩
  | legacy herror hkind hclean =>
    have hstored := storedIn_eq_ok.2 (.inl ⟨_, herror, hkind, rfl⟩)
    have hinfo := checked_eq_ok.2 ⟨rfl, hclean⟩
    exact ⟨_, ⟨.ok _, .inr ⟨_, .ok _, hstored, rfl, by rw [hinfo]⟩⟩, rfl⟩
  | loaded hnone hclean =>
    have hstored := storedIn_eq_ok.2 (.inr ⟨hnone, rfl⟩)
    have hinfo := checked_eq_ok.2 ⟨rfl, hclean⟩
    rw [Attributes.ofReport_append_newline]
    exact ⟨_, ⟨.ok _, .inr ⟨_, .ok _, hstored, rfl, by rw [hinfo]⟩⟩, rfl⟩

/-- **Loading attributes** takes the lock, asks about the storage and then about the device, and
does what `LoadWalk` says. One report that has both with a newline between them has the rows of the
storage and behind them those of the device, whatever line ending the first one has, and of two
rows of one name that of the device is seen. -/
theorem loadAttributes_storage_first (manager : Manager) (session : Session) :
    (∀ trace next answer, Walk (manager.loadAttributes session) trace (next, answer) ↔
      ∃ calls, trace = .acquired session.handle :: calls ∧
        LoadWalk manager session calls next answer) ∧
    ∀ storage info : String,
      (Attributes.ofReport (storage ++ "\n" ++ info)).rows =
        (Attributes.ofReport storage).rows ++ (Attributes.ofReport info).rows ∧
      ∀ name, (Attributes.ofReport (storage ++ "\n" ++ info)).get? name =
        ((Attributes.ofReport info).get? name).or ((Attributes.ofReport storage).get? name) := by
  constructor
  · intro trace next answer
    rw [walk_loadAttributes]
    refine exists_congr fun calls => and_congr_right fun _ => ⟨?_, LoadWalk.reports⟩
    rintro ⟨result, hreports, hkept⟩
    have hload : LoadWalk manager session calls (kept session result).1 (kept session result).2 :=
      .of_reports hreports
    rwa [← hkept] at hload
  · intro storage info
    rw [Attributes.ofReport_append_newline]
    exact ⟨rfl, fun name => Attributes.get?_extend info⟩

end SecurityKey.Manager
