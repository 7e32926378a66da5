import Mathlib.Tactic.Common
import SecurityKey.Proofs.Device
import SecurityKey.Proofs.Manager
/-!
# Selecting a device by its number

A device is selected by its number in a listing that is made for this. Where the listing fails, so
does the selection, with the same failure. Otherwise the numbers go from 1 to the number of devices,
whatever the tool has printed (`numbered_ofListing`), so each of these numbers selects the device at
its place, and every other number none (`selection_iff`).

Main statement: `selectDevice_by_number`.
-/

namespace SecurityKey

open Procedure

/-- A list of devices as it can be offered for selection: numbered from 1 without gaps, each with a
handle and a label. -/
structure Numbered (devices : List Device) : Prop where
  ordinals : devices.map Device.ordinal = List.range' 1 devices.length
  isHandle : ∀ device ∈ devices, Device.IsHandle device.handle
  label_ne_empty : ∀ device ∈ devices, device.label ≠ ""

/-- What becomes of a selection by number, from the answer to the listing. -/
inductive Selection (ordinal : Nat) (pin : Option Pin) :
    Except Failure Reply → Except Failure Session → Prop
  /-- The tool could not be run. -/
  | notListed (failure : Failure) : Selection ordinal pin (.error failure) (.error failure)
  /-- The listing failed. -/
  | exited {reply : Reply} : reply.code ≠ some 0 →
      Selection ordinal pin (.ok reply) (.error (.exited reply.code reply.stderr))
  /-- The number is that of a device, and a session on it begins. -/
  | selected {reply : Reply} {device : Device} : reply.code = some 0 → 1 ≤ ordinal →
      (Device.ofListing reply.stdout)[ordinal - 1]? = some device →
      Selection ordinal pin (.ok reply) (.ok ⟨device, pin, .empty⟩)
  /-- No device has the number. -/
  | missing {reply : Reply} : reply.code = some 0 →
      (ordinal = 0 ∨ (Device.ofListing reply.stdout).length < ordinal) →
      Selection ordinal pin (.ok reply) (.error (.noSuchDevice ordinal))

/-- Whatever the tool prints, the devices of a listing are numbered, with handles and labels. -/
theorem numbered_ofListing (text : String) : Numbered (Device.ofListing text) := by
  have hentry : ∀ device ∈ Device.ofListing text,
      Device.IsHandle device.handle ∧ device.label ≠ "" := by
    intro device hmem
    have hpair : (device.handle, device.label) ∈
        (Text.lines text.toList).filterMap Device.ofLine? := by
      rw [← @Device.map_number ((Text.lines text.toList).filterMap Device.ofLine?)]
      exact List.mem_map_of_mem hmem
    obtain ⟨line, _, hline⟩ := List.mem_filterMap.1 hpair
    exact Device.isHandle_of_ofLine? hline
  exact {
    ordinals := by rw [Device.ofListing, Device.ordinals_number, Device.length_number]
    isHandle := fun device hmem => (hentry device hmem).1
    label_ne_empty := fun device hmem => (hentry device hmem).2 }

namespace Manager

variable {ordinal : Nat} {pin : Option Pin} {devices : List Device}

/-- A number from 1 on chooses the device at its place, and 0 chooses none. -/
theorem find?_numbered (h : Numbered devices) :
    devices.find? (fun device => device.ordinal = ordinal) =
      if ordinal = 0 then none else devices[ordinal - 1]? := by
  cases ordinal with
  | zero =>
    rw [if_pos rfl, List.find?_eq_none]
    intro device hmem
    have hrange : device.ordinal ∈ List.range' 1 devices.length :=
      h.ordinals ▸ List.mem_map_of_mem hmem
    have hpos := (List.mem_range'_1.1 hrange).1
    simpa using Nat.ne_of_gt hpos
  | succ place =>
    rw [if_neg (Nat.succ_ne_zero place), Nat.add_sub_cancel,
      ← Device.find?_ordinal h.ordinals place, Nat.add_comm]

theorem chosen_of_getElem? {device : Device} (h : Numbered devices) (hpos : 1 ≤ ordinal)
    (hdevice : devices[ordinal - 1]? = some device) :
    chosen ordinal pin devices = .ok ⟨device, pin, .empty⟩ := by
  rw [chosen, find?_numbered h, if_neg (by omega), hdevice]
  rfl

theorem chosen_of_missing (h : Numbered devices)
    (hmissing : ordinal = 0 ∨ devices.length < ordinal) :
    chosen ordinal pin devices = .error (.noSuchDevice ordinal) := by
  have hnone : (if ordinal = 0 then none else devices[ordinal - 1]?) = none := by
    split_ifs
    · rfl
    · exact List.getElem?_eq_none (by omega)
  rw [chosen, find?_numbered h, hnone]

variable {answer : Except Failure Reply} {result : Except Failure Session}

/-- A selection chooses among the devices that are listed. -/
theorem eq_of_selection (h : Selection ordinal pin answer result) :
    result = (listed answer).bind (chosen ordinal pin) := by
  cases h with
  | notListed failure => rfl
  | exited hcode =>
    rw [listed_of_exited hcode]
    rfl
  | selected hcode hpos hdevice =>
    rw [listed_of_succeeded hcode]
    exact (chosen_of_getElem? (numbered_ofListing _) hpos hdevice).symm
  | missing hcode hmissing =>
    rw [listed_of_succeeded hcode]
    exact (chosen_of_missing (numbered_ofListing _) hmissing).symm

/-- Every answer decides what becomes of a selection. -/
theorem exists_selection (ordinal : Nat) (pin : Option Pin) (answer : Except Failure Reply) :
    ∃ result, Selection ordinal pin answer result := by
  cases answer with
  | error failure => exact ⟨_, .notListed failure⟩
  | ok reply =>
    by_cases hcode : reply.code = some 0
    · by_cases hplace : 1 ≤ ordinal ∧ ordinal ≤ (Device.ofListing reply.stdout).length
      · obtain ⟨hpos, hle⟩ := hplace
        exact ⟨_, .selected hcode hpos (List.getElem?_eq_getElem (by omega))⟩
      · exact ⟨_, .missing hcode (by omega)⟩
    · exact ⟨_, .exited hcode⟩

theorem selection_iff :
    Selection ordinal pin answer result ↔ result = (listed answer).bind (chosen ordinal pin) := by
  refine ⟨eq_of_selection, fun heq => ?_⟩
  obtain ⟨other, hother⟩ := exists_selection ordinal pin answer
  obtain rfl : result = other := heq.trans (eq_of_selection hother).symm
  exact hother

/-- **A number selects the device at its place.** To select is to make one listing, and its answer
decides what becomes of the selection. Where the listing fails, so does the selection. Otherwise the
number is that of a place in the list, and a session begins with the device there, with the PIN that
was given and no attributes, or there is no such device. The numbers in a list have no gaps,
whatever was printed. -/
theorem selectDevice_by_number (manager : Manager) (ordinal : Nat) (pin : Option Pin) :
    (∀ trace result, Walk (manager.selectDevice ordinal pin).run trace result ↔
      ∃ answer, trace = [.ran .listDevices manager.timeouts.invocation answer] ∧
        Selection ordinal pin answer result) ∧
    (∀ answer, ∃! result, Selection ordinal pin answer result) ∧
    ∀ text, Numbered (Device.ofListing text) := by
  refine ⟨fun trace result => ?_, fun answer => ?_, numbered_ofListing⟩
  · simp only [walk_selectDevice_iff, selection_iff]
  · simp only [selection_iff]
    exact existsUnique_eq

end Manager

end SecurityKey
