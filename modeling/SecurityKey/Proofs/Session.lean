import Mathlib.Tactic.Common
import SecurityKey.Manager.Action
import SecurityKey.Proofs.Manager
/-!
# What becomes of a session

A `Course` is any sequence of actions on a session, with whatever the tool did in each of them. What
is left at its end can be told from the actions and their answers alone (`session_of_course`): the
device is still the one that was selected, the PIN is the latest that was entered or that a dialog
set successfully, and the attributes are what the tool reported in the latest load that went
through.

**One action.** `Deed.after` is what an action makes of a session by its answer, and every action
does exactly that (`perform_after`). An unsuccessful one does nothing (`after_of_unsuccessful`).
-/

namespace SecurityKey

open Procedure

/-! ## What the tool has reported -/

/-- The text of a reply without a device error. -/
def Procedure.Exchange.report? : Exchange → Option String
  | .ran _ _ (.ok reply) => if reply.deviceError? = none then some reply.stdout else none
  | _ => none

/-- The attributes that the tool has reported, one text after the other. -/
def reported (trace : List Exchange) : Attributes :=
  (trace.filterMap Exchange.report?).foldl Attributes.extend .empty

variable {trace : List Exchange} {call : Invocation} {within : Nat}

/-- A reply without a device error comes behind what was reported before. -/
theorem reported_concat (trace : List Exchange) (call : Invocation) (within : Nat)
    {reply : Reply} (h : reply.deviceError? = none) :
    reported (trace ++ [.ran call within (.ok reply)]) =
      (reported trace).extend reply.stdout := by
  have hreport : Exchange.report? (.ran call within (.ok reply)) = some reply.stdout :=
    if_pos h
  rw [reported, List.filterMap_append, List.foldl_append, ← reported,
    List.filterMap_cons_some hreport]
  rfl

/-- What a load keeps is what the tool has reported in it. -/
theorem reported_of_loadReports {handle : String} {pin : Option Pin}
    {load : Manager.AttributeLoad}
    (h : Walk (Manager.loadReports handle pin within).run trace (.ok load)) :
    load.attributes = reported trace := by
  obtain ⟨storage, ⟨failure, _, _, hfail⟩ | ⟨stored, info, hstored, rfl, hinfo⟩⟩ :=
    Manager.walk_loadReports.1 h
  · cases hfail
  have hstorage : stored.attributes =
      reported [.ran (.storageInfo handle pin) within storage] := by
    cases storage with
    | error failure => cases hstored
    | ok reply =>
      rcases Manager.storedIn_eq_ok.1 hstored with ⟨error, herror, _, rfl⟩ | ⟨hnone, rfl⟩
      · simp [reported, Exchange.report?, herror]
      · exact (reported_concat [] _ _ hnone).symm
  cases hchecked : Manager.checked info with
  | error failure =>
    rw [hchecked] at hinfo
    cases hinfo
  | ok reply =>
    rw [hchecked] at hinfo
    obtain rfl := Except.ok.inj hinfo
    obtain ⟨rfl, herror⟩ := Manager.checked_eq_ok.1 hchecked
    have hboth := reported_concat [.ran (.storageInfo handle pin) within storage]
      (.deviceInfo handle pin) within herror
    rw [← hstorage] at hboth
    exact hboth.symm

/-! ## Deeds -/

/-- An action that was performed: what it asked, what was answered, and its own answer. -/
structure Deed where
  action : Action
  trace : List Exchange
  answer : Except Failure Answer

namespace Deed

/-- The PIN that a deed leaves with its session: one that was entered, or one that a device took. -/
def pin? (deed : Deed) : Option Pin :=
  match deed.action, deed.answer with
  | .enterPin pin, .ok .nothing => some pin
  | .setPin newPin _, .ok (.pinOutcome .success) => some newPin.pin
  | .changePin newPin _, .ok (.pinOutcome .success) => some newPin.pin
  | _, _ => none

/-- The attributes that a deed leaves with its session: those of a load that went through. -/
def snapshot? (deed : Deed) : Option Attributes :=
  match deed.action, deed.answer with
  | .loadAttributes, .ok (.warning _) => some (reported deed.trace)
  | .loadBasicAttributes, .ok .nothing => some (reported deed.trace)
  | _, _ => none

/-- What a deed makes of a session. -/
def after (deed : Deed) (session : Session) : Session :=
  { session with
    entered := deed.pin?.or session.entered
    attributes := deed.snapshot?.getD session.attributes }

/-- Whether a deed failed, or was a PIN dialog that did not end in success. -/
def Unsuccessful (deed : Deed) : Prop :=
  match deed.answer with
  | .error _ => True
  | .ok (.pinOutcome outcome) => outcome ≠ .success
  | .ok _ => False

/-- Whatever does not succeed leaves its session as it was. -/
theorem after_of_unsuccessful {deed : Deed} (h : deed.Unsuccessful) (session : Session) :
    deed.after session = session := by
  obtain ⟨action, trace, answer⟩ := deed
  have hpin : Deed.pin? ⟨action, trace, answer⟩ = none := by
    rw [pin?]
    split
    · exact absurd h (by simp_all [Unsuccessful])
    · exact absurd h (by simp_all [Unsuccessful])
    · exact absurd h (by simp_all [Unsuccessful])
    · rfl
  have hsnapshot : Deed.snapshot? ⟨action, trace, answer⟩ = none := by
    rw [snapshot?]
    split
    · exact absurd h (by simp_all [Unsuccessful])
    · exact absurd h (by simp_all [Unsuccessful])
    · rfl
  rw [after, hpin, hsnapshot]
  rfl

end Deed

/-! ## One action -/

namespace Manager

variable {manager : Manager} {session next : Session}

/-- A load that goes through leaves what the tool has reported in it. -/
theorem loadAttributes_after {answer : Except Failure (Option DeviceError)}
    (h : Walk (manager.loadAttributes session) trace (next, answer)) :
    next = Deed.after ⟨.loadAttributes, trace, answer.map .warning⟩ session := by
  rw [loadAttributes, walk_holding] at h
  obtain ⟨rest, rfl, h⟩ := h
  rw [walk_bind_iff] at h
  obtain ⟨first, second, load, hload, hrest, rfl⟩ := h
  cases load with
  | error failure =>
    obtain ⟨rfl, heq⟩ := walk_pure.1 hrest
    cases heq
    rfl
  | ok load =>
    obtain ⟨rfl, heq⟩ := walk_pure.1 hrest
    cases heq
    rw [List.append_nil, Session.withAttributes, reported_of_loadReports hload]
    rfl

/-- The same of a load without a PIN. -/
theorem loadBasicAttributes_after {answer : Except Failure Unit}
    (h : Walk (manager.loadBasicAttributes session) trace (next, answer)) :
    next = Deed.after ⟨.loadBasicAttributes, trace, answer.map fun _ => .nothing⟩ session := by
  rw [loadBasicAttributes, walk_holding] at h
  obtain ⟨rest, rfl, h⟩ := h
  rw [walk_bind_iff] at h
  obtain ⟨first, second, result, hrun, hrest, rfl⟩ := h
  obtain ⟨info, rfl, rfl⟩ := walk_runChecked.1 hrun
  cases hchecked : checked info with
  | error failure =>
    rw [hchecked] at hrest
    obtain ⟨rfl, heq⟩ := walk_pure.1 hrest
    cases heq
    rfl
  | ok reply =>
    rw [hchecked] at hrest
    obtain ⟨rfl, heq⟩ := walk_pure.1 hrest
    cases heq
    obtain ⟨rfl, herror⟩ := checked_eq_ok.1 hchecked
    have hreport := reported_concat [.acquired session.handle] (.deviceInfo session.handle none)
      manager.timeouts.invocation herror
    show session.withAttributes (.ofReport reply.stdout) =
      session.withAttributes (reported _)
    exact congrArg session.withAttributes hreport.symm

/-- What an outcome makes of a session. -/
def taken (session : Session) (newPin : NewPin) : Except Failure PinOutcome → Session
  | .ok .success => session.enterPin newPin.pin
  | _ => session

/-- A dialog leaves its new PIN, and only if it ends in success. -/
theorem pinDialog_after {dialog : Dialog} {answer : Except Failure PinOutcome}
    (h : Walk (pinDialog session dialog) trace (next, answer)) :
    next = taken session dialog.newPin answer := by
  rw [pinDialog, walk_holding] at h
  obtain ⟨rest, rfl, h⟩ := h
  rw [walk_bind_iff] at h
  obtain ⟨first, second, result, _, hrest, rfl⟩ := h
  split at hrest
  · obtain ⟨rfl, heq⟩ := walk_pure.1 hrest
    cases heq
    rfl
  · next hne =>
    obtain ⟨rfl, heq⟩ := walk_pure.1 hrest
    cases heq
    rw [taken]
    exact fun hs => hne hs

theorem setPin_after {newPin : NewPin} {observed : Bool} {answer : Except Failure PinOutcome}
    (h : Walk (manager.setPin session newPin observed) trace (next, answer)) :
    next = Deed.after ⟨.setPin newPin observed, trace, answer.map .pinOutcome⟩ session := by
  rw [pinDialog_after h]
  cases answer with
  | error failure => rfl
  | ok outcome => cases outcome <;> rfl

theorem changePin_after {newPin : NewPin} {observed : Bool} {answer : Except Failure PinOutcome}
    (h : Walk (manager.changePin session newPin observed) trace (next, answer)) :
    next = Deed.after ⟨.changePin newPin observed, trace, answer.map .pinOutcome⟩ session := by
  rw [changePin] at h
  split at h
  · -- There is no PIN to change.
    obtain ⟨rfl, heq⟩ := walk_pure.1 h
    cases heq
    rfl
  · rw [pinDialog_after h]
    cases answer with
    | error failure => rfl
    | ok outcome => cases outcome <;> rfl

/-- To hand an invocation to a terminal window leaves the session as it was. -/
theorem handOff_after {call : Invocation} {answer : Except Failure Answer}
    (h : Walk (perform.handOff session call) trace (next, answer)) : next = session := by
  obtain ⟨launched, _, heq⟩ := walk_map_iff.1 h
  cases heq
  rfl

/-- **One action** makes of its session what its answer says. -/
theorem perform_after {action : Action} {answer : Except Failure Answer}
    (h : Walk (manager.perform session action) trace (next, answer)) :
    next = Deed.after ⟨action, trace, answer⟩ session := by
  unfold perform at h
  cases action with
  | enterPin pin =>
    obtain ⟨rfl, heq⟩ := walk_pure.1 h
    cases heq
    rfl
  | loadAttributes =>
    obtain ⟨⟨mid, load⟩, hload, heq⟩ := walk_map_iff.1 h
    cases heq
    exact loadAttributes_after hload
  | loadBasicAttributes =>
    obtain ⟨⟨mid, load⟩, hload, heq⟩ := walk_map_iff.1 h
    cases heq
    exact loadBasicAttributes_after hload
  | listCredentials =>
    obtain ⟨sites, _, heq⟩ := walk_map_iff.1 h
    cases heq
    rfl
  | listFingerprints =>
    obtain ⟨fingerprints, _, heq⟩ := walk_map_iff.1 h
    cases heq
    rfl
  | setPin newPin observed =>
    obtain ⟨⟨mid, outcome⟩, hdialog, heq⟩ := walk_map_iff.1 h
    cases heq
    exact setPin_after hdialog
  | changePin newPin observed =>
    obtain ⟨⟨mid, outcome⟩, hdialog, heq⟩ := walk_map_iff.1 h
    cases heq
    exact changePin_after hdialog
  | deleteCredential id => exact handOff_after h
  | enrollFingerprint => exact handOff_after h
  | deleteFingerprint id => exact handOff_after h
  | renameFingerprint id name => exact handOff_after h

/-! ## Sequences of actions -/

/-- Actions on a session, one after the other, with all that was asked and answered. -/
inductive Course (manager : Manager) : Session → List Deed → Session → Prop
  | nil (session : Session) : Course manager session [] session
  | cons {session mid last : Session} {action : Action} {trace : List Exchange}
      {answer : Except Failure Answer} {deeds : List Deed} :
      Walk (manager.perform session action) trace (mid, answer) → Course manager mid deeds last →
      Course manager session (⟨action, trace, answer⟩ :: deeds) last

variable {start last : Session} {deeds : List Deed}

/-- Performs actions with a tool, after all that has passed. -/
def conduct (manager : Manager) (tool : Tool) :
    List Exchange → Session → List Action → List Deed × Session
  | _, session, [] => ([], session)
  | past, session, action :: actions =>
    let (trace, mid, answer) := follow tool past (manager.perform session action)
    let (deeds, last) := conduct manager tool (past ++ trace) mid actions
    (⟨action, trace, answer⟩ :: deeds, last)

/-- Every tool makes a course of any actions. -/
theorem course_conduct (manager : Manager) (tool : Tool) (past : List Exchange)
    (session : Session) (actions : List Action) :
    Course manager session (manager.conduct tool past session actions).1
      (manager.conduct tool past session actions).2 := by
  induction actions generalizing past session with
  | nil => exact .nil session
  | cons action actions ih => exact .cons (walk_follow tool past _) (ih _ _)

theorem getLast?_filterMap_cons {α β : Type} (f : α → Option β) (x : α) (xs : List α) :
    ((x :: xs).filterMap f).getLast? = (xs.filterMap f).getLast?.or (f x) := by
  cases h : f x with
  | none => rw [List.filterMap_cons_none h, Option.or_none]
  | some b =>
    rw [List.filterMap_cons_some h, List.getLast?_cons]
    cases (xs.filterMap f).getLast? <;> rfl

/-- Nothing changes the device of a session. -/
theorem Course.device (h : Course manager start deeds last) : last.device = start.device := by
  induction h with
  | nil session => rfl
  | cons hstep _ ih => rw [ih, perform_after hstep]; rfl

/-- The PIN of a session is the latest that was entered or taken. -/
theorem Course.entered (h : Course manager start deeds last) :
    last.entered = (deeds.filterMap Deed.pin?).getLast?.or start.entered := by
  induction h with
  | nil session => rfl
  | cons hstep _ ih => rw [ih, perform_after hstep, getLast?_filterMap_cons, Option.or_assoc]; rfl

/-- The attributes of a session are those of the latest load that went through. -/
theorem Course.attributes (h : Course manager start deeds last) :
    last.attributes = (deeds.filterMap Deed.snapshot?).getLast?.getD start.attributes := by
  induction h with
  | nil session => rfl
  | cons hstep _ ih => rw [ih, perform_after hstep, getLast?_filterMap_cons, Option.getD_or]; rfl

/-- To refresh is to list the devices and to have no session, whatever the listing gives. -/
theorem walk_refresh {session left : Option Session} {answer : Except Failure Answer} :
    Walk (manager.serve session .refresh) trace (left, answer) ↔
      ∃ listing, trace = [.ran .listDevices manager.timeouts.invocation listing] ∧ left = none ∧
        answer = .ok (.devices ((listed listing).toOption.getD [])) := by
  constructor
  · intro h
    obtain ⟨devices, hlist, heq⟩ := walk_map_iff.1 h
    obtain ⟨listing, rfl, rfl⟩ := walk_listDevices.1 hlist
    cases heq
    exact ⟨listing, rfl, rfl, rfl⟩
  · rintro ⟨listing, rfl, rfl, rfl⟩
    exact walk_map_iff.2 ⟨_, walk_listDevices.2 ⟨listing, rfl, rfl⟩, rfl⟩

/-- **What becomes of a session**, over any sequence of actions and whatever the tool does in them.
The device is the one that was selected. The PIN is the latest that was entered or that a dialog set
successfully, or the one that the session began with. The attributes are those of the latest load
that went through. What does not succeed changes nothing, and a refresh leaves no session. -/
theorem session_of_course {ordinal : Nat} {pin : Option Pin}
    (hselect : Walk (manager.selectDevice ordinal pin).run trace (.ok start))
    (hcourse : Course manager start deeds last) :
    last.device = start.device ∧
      last.entered = (deeds.filterMap Deed.pin?).getLast?.or pin ∧
      last.attributes = (deeds.filterMap Deed.snapshot?).getLast?.getD .empty ∧
      (∀ action trace next answer,
        Walk (manager.perform last action) trace (next, answer) →
          Deed.Unsuccessful ⟨action, trace, answer⟩ → next = last) ∧
      ∀ trace left answer, Walk (manager.serve (some last) .refresh) trace (left, answer) ↔
        ∃ listing, trace = [.ran .listDevices manager.timeouts.invocation listing] ∧
          left = none ∧ answer = .ok (.devices ((listed listing).toOption.getD [])) := by
  obtain ⟨listing, devices, _, _, _, _, hbegin⟩ := walk_selectDevice hselect
  refine ⟨hcourse.device, ?_, ?_, ?_, fun _ _ _ => walk_refresh⟩
  · rw [hcourse.entered, hbegin]
    rfl
  · rw [hcourse.attributes, hbegin]
    rfl
  · intro action trace next answer h hunsuccessful
    rw [perform_after h]
    exact Deed.after_of_unsuccessful hunsuccessful last

/-- A tool with one legacy key. It tells about itself only with a PIN, and takes a new PIN. -/
def legacyKey : Tool where
  run _ call _ :=
    match call with
    | .listDevices => .ok ⟨some 0, "/dev/hidraw4: vendor=1 (Key)\n", ""⟩
    | .storageInfo .. => .ok ⟨some 1, "", "FIDO_ERR_INVALID_CBOR"⟩
    | .deviceInfo _ (some _) => .ok ⟨some 0, "pin retries: 8\n", ""⟩
    | _ => .error (.timeout call.operation 20000)
  converse _ _ _ := some ⟨[.emit "Enter new PIN: Enter the same PIN again: "], none⟩
  notStarted _ := .noTerminal
  launch _ _ := .error .noTerminal
  clock _ := 0

/-- Some actions with the legacy key, after it was selected without a PIN. -/
def legacyCourse : List Deed × Session :=
  conduct ⟨.standard, "", .empty⟩ legacyKey [] (.begin ⟨"/dev/hidraw4", "Key", 1⟩ none)
    [.enterPin ⟨"1234"⟩, .loadAttributes, .loadBasicAttributes, .listCredentials,
      .setPin ⟨⟨"567890"⟩⟩ true, .changePin ⟨⟨"4321"⟩⟩ true, .enrollFingerprint]

theorem session_of_course_legacyKey :
    Walk (selectDevice ⟨.standard, "", .empty⟩ 1 none).run
        [.ran .listDevices 20000 (legacyKey.run [] .listDevices 20000)]
        (.ok (.begin ⟨"/dev/hidraw4", "Key", 1⟩ none)) ∧
      Course ⟨.standard, "", .empty⟩ (.begin ⟨"/dev/hidraw4", "Key", 1⟩ none)
        legacyCourse.1 legacyCourse.2 ∧
      legacyCourse.2.device = ⟨"/dev/hidraw4", "Key", 1⟩ ∧
      legacyCourse.2.entered = some ⟨"567890"⟩ ∧
      legacyCourse.2.attributes = ⟨[⟨"pin retries", "8"⟩]⟩ := by
  have hselect : Walk (selectDevice ⟨.standard, "", .empty⟩ 1 none).run
      [.ran .listDevices 20000 (legacyKey.run [] .listDevices 20000)]
      (.ok (.begin ⟨"/dev/hidraw4", "Key", 1⟩ none)) :=
    walk_follow legacyKey [] (selectDevice ⟨.standard, "", .empty⟩ 1 none).run
  have hcourse : Course ⟨.standard, "", .empty⟩ (.begin ⟨"/dev/hidraw4", "Key", 1⟩ none)
      legacyCourse.1 legacyCourse.2 := course_conduct ..
  obtain ⟨hdevice, hpin, hattributes, _⟩ := session_of_course hselect hcourse
  refine ⟨hselect, hcourse, hdevice, hpin.trans ?_, hattributes.trans ?_⟩
  · decide
  · decide

end Manager

end SecurityKey
