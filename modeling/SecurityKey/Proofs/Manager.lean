import Mathlib.Tactic.Common
import SecurityKey.Manager
import SecurityKey.Proofs.Procedure
/-!
# Walks through the operations of a manager

How the operations run the tool. A run gives what the tool answers (`walk_runTool`), a checked one
fails also where the reply holds a device error (`walk_runChecked`), and a lock is taken before
anything else is asked (`walk_withLock`).
-/

namespace SecurityKey.Manager

open Procedure

variable {α : Type} {trace : List Exchange} {call : Invocation} {within : Nat}

/-! ## Running the tool -/

@[simp] theorem walk_runTool {answer : Except Failure Reply} :
    Walk (runTool call within).run trace answer ↔ trace = [.ran call within answer] :=
  walk_call

/-- A run whose reply decides the result at once. -/
theorem walk_runTool_bind {f : Reply → Attempt α} {g : Reply → Except Failure α}
    (hf : ∀ reply, (f reply).run = pure (g reply)) {result : Except Failure α} :
    Walk (runTool call within >>= f).run trace result ↔
      ∃ answer, trace = [.ran call within answer] ∧ result = answer.bind g := by
  simp only [walk_attempt_bind_decided hf, walk_runTool]

/-- A reply, or the device error in it. -/
def inspected (reply : Reply) : Except Failure Reply :=
  match reply.deviceError? with
  | some error => .error (.device error)
  | none => .ok reply

/-- What becomes of an answer once its reply is searched for a device error. -/
def checked (answer : Except Failure Reply) : Except Failure Reply :=
  answer.bind inspected

/-- A checked answer is a reply without a device error. -/
theorem checked_eq_ok {answer : Except Failure Reply} {reply : Reply} :
    checked answer = .ok reply ↔ answer = .ok reply ∧ reply.deviceError? = none := by
  cases answer with
  | error failure => simp [checked, Except.bind]
  | ok other =>
    rw [show checked (.ok other) = inspected other from rfl, inspected]
    cases h : other.deviceError? with
    | some error =>
      simp only [reduceCtorEq, Except.ok.injEq, false_iff, not_and]
      rintro rfl
      simp [h]
    | none =>
      simp only [Except.ok.injEq, iff_self_and]
      rintro rfl
      exact h

/-- A checked answer fails where the tool could not be run, or with a device error. -/
theorem checked_eq_error {answer : Except Failure Reply} {failure : Failure} :
    checked answer = .error failure ↔ answer = .error failure ∨
      ∃ reply error, answer = .ok reply ∧ reply.deviceError? = some error ∧
        failure = .device error := by
  cases answer with
  | error other => simp [checked, Except.bind]
  | ok reply =>
    rw [show checked (.ok reply) = inspected reply from rfl, inspected]
    cases h : reply.deviceError? <;> simp [h, eq_comm]

theorem walk_runChecked {result : Except Failure Reply} :
    Walk (runChecked call within).run trace result ↔
      ∃ answer, trace = [.ran call within answer] ∧ result = checked answer := by
  refine walk_runTool_bind fun reply => ?_
  rw [inspected]
  cases reply.deviceError? <;> rfl

theorem along_runChecked {P : Exchange → Prop} (h : ∀ answer, P (.ran call within answer)) :
    Along P (runChecked call within).run := by
  intro trace result hwalk exchange hmem
  obtain ⟨answer, rfl, _⟩ := walk_runChecked.1 hwalk
  rw [List.mem_singleton.1 hmem]
  exact h answer

theorem walk_withLock {handle : String} {body : Attempt α} {result : Except Failure α} :
    Walk (withLock handle body).run trace result ↔
      ∃ rest, trace = .acquired handle :: rest ∧ Walk body.run rest result :=
  walk_holding

/-! ## Listing the devices -/

/-- What the answer to a listing comes to. -/
def listed (answer : Except Failure Reply) : Except Failure (List Device) :=
  answer.bind fun reply =>
    if reply.succeeded then .ok (Device.ofListing reply.stdout)
    else .error (.exited reply.code reply.stderr)

theorem listed_of_succeeded {reply : Reply} (h : reply.code = some 0) :
    listed (.ok reply) = .ok (Device.ofListing reply.stdout) := by
  simp [listed, Except.bind, Reply.succeeded, h]

theorem listed_of_exited {reply : Reply} (h : reply.code ≠ some 0) :
    listed (.ok reply) = .error (.exited reply.code reply.stderr) := by
  simp [listed, Except.bind, Reply.succeeded, h]

theorem listed_eq_ok {answer : Except Failure Reply} {devices : List Device} :
    listed answer = .ok devices ↔
      ∃ reply, answer = .ok reply ∧ reply.succeeded ∧ Device.ofListing reply.stdout = devices := by
  constructor
  · intro h
    cases answer with
    | error failure => cases h
    | ok reply =>
      by_cases hsucceeded : reply.succeeded
      · rw [listed, Except.bind, if_pos hsucceeded] at h
        exact ⟨reply, rfl, hsucceeded, Except.ok.inj h⟩
      · rw [listed, Except.bind, if_neg hsucceeded] at h
        cases h
  · rintro ⟨reply, rfl, hsucceeded, rfl⟩
    exact if_pos hsucceeded

theorem walk_tryListDevices {manager : Manager} {result : Except Failure (List Device)} :
    Walk manager.tryListDevices.run trace result ↔
      ∃ answer, trace = [.ran .listDevices manager.timeouts.invocation answer] ∧
        result = listed answer := by
  refine walk_runTool_bind fun reply => ?_
  split_ifs <;> rfl

/-- A listing that fails gives no device. -/
theorem walk_listDevices {manager : Manager} {devices : List Device} :
    Walk manager.listDevices trace devices ↔
      ∃ answer, trace = [.ran .listDevices manager.timeouts.invocation answer] ∧
        devices = (listed answer).toOption.getD [] := by
  have hmap : manager.listDevices =
      manager.tryListDevices.run >>= fun result => pure (result.toOption.getD []) := by
    rw [listDevices]
    congr 1
    funext result
    cases result <;> rfl
  rw [hmap, walk_map_iff]
  simp only [walk_tryListDevices]
  constructor
  · rintro ⟨_, ⟨answer, rfl, rfl⟩, rfl⟩
    exact ⟨answer, rfl, rfl⟩
  · rintro ⟨answer, rfl, rfl⟩
    exact ⟨_, ⟨answer, rfl, rfl⟩, rfl⟩

/-- The session that begins with the device of a list that has a number. -/
def chosen (ordinal : Nat) (pin : Option Pin) (devices : List Device) : Except Failure Session :=
  match devices.find? fun device => device.ordinal = ordinal with
  | some device => .ok (.begin device pin)
  | none => .error (.noSuchDevice ordinal)

theorem chosen_eq_ok {ordinal : Nat} {pin : Option Pin} {devices : List Device}
    {start : Session} : chosen ordinal pin devices = .ok start ↔ ∃ device,
      devices.find? (fun device => device.ordinal = ordinal) = some device ∧
        start = .begin device pin := by
  rw [chosen]
  cases devices.find? fun device => device.ordinal = ordinal <;> simp [eq_comm]

/-- To select a device is to list the devices once and to choose among them. -/
theorem walk_selectDevice_iff {manager : Manager} {ordinal : Nat} {pin : Option Pin}
    {result : Except Failure Session} :
    Walk (manager.selectDevice ordinal pin).run trace result ↔
      ∃ answer, trace = [.ran .listDevices manager.timeouts.invocation answer] ∧
        result = (listed answer).bind (chosen ordinal pin) := by
  rw [selectDevice, walk_attempt_bind_decided (g := chosen ordinal pin) fun devices => ?_]
  · simp only [walk_tryListDevices]
    constructor
    · rintro ⟨_, ⟨answer, rfl, rfl⟩, rfl⟩
      exact ⟨answer, rfl, rfl⟩
    · rintro ⟨answer, rfl, rfl⟩
      exact ⟨_, ⟨answer, rfl, rfl⟩, rfl⟩
  · rw [chosen]
    cases devices.find? fun device => device.ordinal = ordinal <;> rfl

/-- A session begins with the device that has the number in a fresh listing, with the PIN that was
given, and with no attributes. -/
theorem walk_selectDevice {manager : Manager} {ordinal : Nat} {pin : Option Pin} {start : Session}
    (h : Walk (manager.selectDevice ordinal pin).run trace (.ok start)) :
    ∃ answer devices, trace = [.ran .listDevices manager.timeouts.invocation answer] ∧
      listed answer = .ok devices ∧ start.device ∈ devices ∧ start.device.ordinal = ordinal ∧
        start = .begin start.device pin := by
  obtain ⟨answer, rfl, hstart⟩ := walk_selectDevice_iff.1 h
  cases hlisted : listed answer with
  | error failure =>
    rw [hlisted] at hstart
    cases hstart
  | ok devices =>
    rw [hlisted] at hstart
    obtain ⟨device, hfind, rfl⟩ := chosen_eq_ok.1 hstart.symm
    refine ⟨answer, devices, rfl, hlisted, List.mem_of_find?_eq_some hfind, ?_, rfl⟩
    have hnumber := List.find?_some hfind
    exact of_decide_eq_true hnumber

/-! ## Loading attributes -/

/-- What the reply about the storage comes to. A legacy device is no failure. -/
def storedIn (reply : Reply) : Except Failure AttributeLoad :=
  match reply.deviceError? with
  | some error =>
    if error.kind = .legacyDevice then .ok ⟨.empty, some error⟩ else .error (.device error)
  | none => .ok ⟨.ofReport reply.stdout, none⟩

/-- A reply about the storage is of use if it holds no error, or that of a legacy device. -/
theorem storedIn_eq_ok {reply : Reply} {load : AttributeLoad} : storedIn reply = .ok load ↔
    (∃ error, reply.deviceError? = some error ∧ error.kind = .legacyDevice ∧
      load = ⟨.empty, some error⟩) ∨
    reply.deviceError? = none ∧ load = ⟨.ofReport reply.stdout, none⟩ := by
  rw [storedIn]
  cases reply.deviceError? with
  | none => simp [eq_comm]
  | some error =>
    by_cases hkind : error.kind = .legacyDevice
    · simp [hkind, eq_comm]
    · simp [hkind]

theorem storedIn_eq_error {reply : Reply} {failure : Failure} : storedIn reply = .error failure ↔
    ∃ error, reply.deviceError? = some error ∧ error.kind ≠ .legacyDevice ∧
      failure = .device error := by
  rw [storedIn]
  cases reply.deviceError? with
  | none => simp
  | some error =>
    by_cases hkind : error.kind = .legacyDevice
    · simp [hkind]
    · simp [hkind, eq_comm (a := failure)]

/-- What was loaded, with what the device says about itself. -/
def AttributeLoad.withInfo (load : AttributeLoad) (info : Reply) : AttributeLoad :=
  ⟨load.attributes.extend info.stdout, load.warning⟩

theorem loadReports_eq (handle : String) (pin : Option Pin) (within : Nat) :
    loadReports handle pin within =
      (runTool (.storageInfo handle pin) within >>= fun reply => .mk (pure (storedIn reply)) >>=
        fun stored => runChecked (.deviceInfo handle pin) within >>=
          fun info => pure (stored.withInfo info)) := by
  unfold loadReports
  congr 1
  funext reply
  dsimp only
  rw [storedIn]
  cases reply.deviceError? with
  | none => rfl
  | some error =>
    dsimp only
    split_ifs
    · rfl
    · rfl

/-- The storage is asked about first. Where that does not fail, the device is asked about itself,
and what it says comes behind. -/
theorem walk_loadReports {handle : String} {pin : Option Pin}
    {result : Except Failure AttributeLoad} :
    Walk (loadReports handle pin within).run trace result ↔
      ∃ storage,
        (∃ failure, storage.bind storedIn = .error failure ∧
          trace = [.ran (.storageInfo handle pin) within storage] ∧ result = .error failure) ∨
        ∃ stored info, storage.bind storedIn = .ok stored ∧
          trace = [.ran (.storageInfo handle pin) within storage,
            .ran (.deviceInfo handle pin) within info] ∧
          result = (checked info).map stored.withInfo := by
  rw [loadReports_eq, walk_attempt_bind]
  simp only [walk_runTool, walk_attempt_decided, walk_attempt_map, walk_runChecked]
  constructor
  · rintro (⟨failure, rfl, rfl⟩ | ⟨first, second, reply, rfl,
      ⟨failure, hstored, rfl, rfl⟩ | ⟨stored, hstored, _, ⟨info, rfl, rfl⟩, rfl⟩, rfl⟩)
    · exact ⟨.error failure, .inl ⟨failure, rfl, rfl, rfl⟩⟩
    · exact ⟨.ok reply, .inl ⟨failure, hstored, rfl, rfl⟩⟩
    · exact ⟨.ok reply, .inr ⟨stored, info, hstored, rfl, rfl⟩⟩
  · rintro ⟨storage, ⟨failure, hstored, rfl, rfl⟩ | ⟨stored, info, hstored, rfl, rfl⟩⟩
    · cases storage with
      | error other =>
        obtain rfl := Except.error.inj hstored
        exact .inl ⟨other, rfl, rfl⟩
      | ok reply =>
        exact .inr ⟨_, [], reply, rfl, .inl ⟨failure, hstored, rfl, rfl⟩, rfl⟩
    · cases storage with
      | error failure => cases hstored
      | ok reply =>
        exact .inr ⟨_, _, reply, rfl, .inr ⟨stored, hstored, _, ⟨info, rfl, rfl⟩, rfl⟩, rfl⟩

/-! ## Listing passkeys and fingerprints -/

theorem along_listSites {P : Exchange → Prop} {handle : String} {pin : Option Pin}
    (h : ∀ domain answer, P (.ran (.listCredentials handle pin domain) within answer))
    (domains : List String) : Along P (listSites handle pin within domains).run := by
  induction domains with
  | nil => exact along_pure _
  | cons domain domains ih =>
    refine Along.attempt_bind (along_runChecked (h domain)) fun reply => ?_
    exact ih.attempt_bind fun sites => along_pure _

variable {manager : Manager} {session : Session}

/-- With a PIN, the lock is taken and the tool runs once. -/
theorem walk_listFingerprints {pin : Pin} (hpin : session.pin? = some pin)
    {result : Except Failure (List Fingerprint)} :
    Walk (manager.listFingerprints session).run trace result ↔
      ∃ answer, trace = [.acquired session.handle,
          .ran (.listFingerprints session.handle (some pin)) manager.timeouts.invocation answer] ∧
        result = (checked answer).map fun reply => Fingerprint.ofListing reply.stdout := by
  rw [listFingerprints, requirePin, hpin]
  refine walk_withLock.trans ?_
  simp only [walk_attempt_map, walk_runChecked]
  constructor
  · rintro ⟨_, rfl, _, ⟨answer, rfl, rfl⟩, rfl⟩
    exact ⟨answer, rfl, rfl⟩
  · rintro ⟨answer, rfl, rfl⟩
    exact ⟨_, rfl, _, ⟨answer, rfl, rfl⟩, rfl⟩

/-! ## Dialogs -/

theorem along_runDialog {P : Exchange → Prop} {handle : String} {dialog : Dialog}
    (hdialog : ∀ answer, P (.conversed (dialog.invocation handle) dialog answer))
    (hrun : ∀ call within answer, P (.ran call within answer)) :
    Along P (runDialog handle dialog).run := by
  refine Along.attempt_bind (along_talk hdialog) fun outcome => ?_
  cases outcome with
  | policyViolation error =>
    dsimp only
    split_ifs
    · have hlength : Along P (ExceptT.lift
          (Procedure.call (.deviceInfo handle none) dialog.timeouts.invocation) :
            Attempt (Except Failure Reply)).run :=
        Along.bind (along_call fun _ => hrun _ _ _) fun _ => along_pure _
      refine hlength.attempt_bind fun answer => ?_
      cases answer with
      | ok reply => exact along_pure _
      | error failure => exact along_pure _
    · exact along_pure _
  | _ => exact along_pure _

theorem along_pinDialog {P : Exchange → Prop} {session : Session} {dialog : Dialog}
    (hlock : P (.acquired session.handle))
    (hdialog : ∀ answer, P (.conversed (dialog.invocation session.handle) dialog answer))
    (hrun : ∀ call within answer, P (.ran call within answer)) :
    Along P (pinDialog session dialog) := by
  refine Along.holding hlock (Along.bind (along_runDialog hdialog hrun) fun result => ?_)
  split
  · exact along_pure _
  · exact along_pure _

/-! ## Operations print nothing -/

theorem quiet_runTool (call : Invocation) (within : Nat) : Quiet (runTool call within).run :=
  says_call call within

theorem quiet_runChecked (call : Invocation) (within : Nat) :
    Quiet (runChecked call within).run :=
  says_iff_along.2 (along_runChecked fun _ => trivial)

theorem along_selectDevice {P : Exchange → Prop} {manager : Manager} {ordinal : Nat}
    {pin : Option Pin} (h : ∀ call within answer, P (.ran call within answer)) :
    Along P (manager.selectDevice ordinal pin).run := by
  refine Along.attempt_bind ?_ fun devices => ?_
  · refine Along.attempt_bind (along_call (h _ _)) fun reply => ?_
    split_ifs
    · exact along_pure _
    · exact along_pure _
  · split
    · exact along_pure _
    · exact along_pure _

theorem quiet_selectDevice (manager : Manager) (ordinal : Nat) (pin : Option Pin) :
    Quiet (manager.selectDevice ordinal pin).run :=
  says_iff_along.2 (along_selectDevice fun _ _ _ => trivial)

theorem quiet_loadAttributes (manager : Manager) (session : Session) :
    Quiet (manager.loadAttributes session) := by
  refine Says.holding (Says.bind ?_ fun load => ?_)
  · rw [loadReports_eq]
    refine Says.attempt_bind (quiet_runTool _ _) fun reply => Says.attempt_bind (says_pure _) ?_
    exact fun stored => Says.attempt_bind (quiet_runChecked _ _) fun info => says_pure _
  · split
    · exact says_pure _
    · exact says_pure _

theorem quiet_listSites (handle : String) (pin : Option Pin) (within : Nat)
    (domains : List String) : Quiet (listSites handle pin within domains).run :=
  says_iff_along.2 (along_listSites (fun _ _ => trivial) domains)

theorem quiet_listCredentials (manager : Manager) (session : Session) :
    Quiet (manager.listCredentials session).run := by
  refine Says.attempt_bind ?_ fun pin => ?_
  · rw [requirePin]
    split
    · exact says_pure _
    · exact says_pure _
  · refine Says.holding ?_
    exact Says.attempt_bind (quiet_runChecked _ _) fun reply => quiet_listSites _ _ _ _

end SecurityKey.Manager
