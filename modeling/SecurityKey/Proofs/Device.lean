import Mathlib.Tactic.Common
import SecurityKey.Device
import SecurityKey.Proofs.Text.Blank
import SecurityKey.Proofs.Text.Lines
import SecurityKey.Proofs.Text.Search
/-!
# Listings of devices

**One line.** A line with a colon lists the first slot of a card reader, if it speaks of that, and
otherwise the handle that is its first word without the final colons, if anything is left of it
(`ofLine?_eq_some_iff`). The label is never empty, since the handle stands in for it.

**Numbers.** Devices are numbered from 1 without gaps (`ordinals_number`), so a device has the
number that is its place (`find?_ordinal`). With more devices before them, others have higher
numbers (`number_append`).

**Put together.** A listing that is put together from devices is read as these devices, with their
handles and labels, in order. One more line about the first slot of a card reader is one more
device at its place.

Main statement: `listed_of_laidOut`.
-/

namespace SecurityKey.Device

open Text

/-! ## One line -/

/-- A text that devices can be named by. -/
structure IsHandle (handle : String) : Prop where
  ne_empty : handle ≠ ""
  not_blank : ∀ c ∈ handle.toList, isBlank c = false
  not_colon_at_end : handle.toList.getLast? ≠ some ':'

theorem isHandle_iff {handle : String} : IsHandle handle ↔ handle ≠ "" ∧
    (handle.toList.all fun c => !isBlank c) ∧ handle.toList.getLast? ≠ some ':' := by
  simp only [List.all_eq_true, Bool.not_eq_true']
  exact ⟨fun ⟨hne, hblank, hend⟩ => ⟨hne, hblank, hend⟩,
    fun ⟨hne, hblank, hend⟩ => ⟨hne, hblank, hend⟩⟩

instance (handle : String) : Decidable (IsHandle handle) :=
  decidable_of_iff' _ isHandle_iff

theorem isHandle_readerSlot : IsHandle readerSlot := by
  decide

section Line

variable {line : List Char} {handle label : String}

theorem occurs_colon_trim : occurs [':'] (trim line) ↔ ':' ∈ line := by
  rw [occurs_iff, infix_trim_iff (List.forall_mem_singleton.2 rfl), List.singleton_infix_iff]

theorem occurs_readerSlot_trim :
    occurs readerSlot.toList (trim line) ↔ readerSlot.toList <:+: line := by
  rw [occurs_iff, infix_trim_iff isHandle_readerSlot.not_blank]

theorem ofLine?_of_no_colon (h : ':' ∉ line) : ofLine? line = none := by
  have hcolon : ¬ occurs [':'] (trim line) := fun hoccurs => h (occurs_colon_trim.1 hoccurs)
  simp [ofLine?, hcolon]

/-- Whatever else a line says, the first slot of a card reader has its handle and its label. -/
theorem ofLine?_of_readerSlot (h : readerSlot.toList <:+: line) :
    ofLine? line = some (readerSlot, readerSlot) := by
  have hcolon : ':' ∈ line := h.subset (by decide)
  simp [ofLine?, occurs_colon_trim.2 hcolon, occurs_readerSlot_trim.2 h]

/-- Any other line with a colon lists its first word without the final colons. -/
theorem ofLine?_eq_some_iff (hcolon : ':' ∈ line) (hslot : ¬ readerSlot.toList <:+: line) :
    ofLine? line = some (handle, label) ↔ handle ≠ "" ∧
      (∃ first, (words (trim line)).head? = some first ∧
        dropTrailing (· == ':') first = handle.toList) ∧
      (parenthesized? (trim line)).getD handle.toList = label.toList := by
  have hother : ¬ occurs readerSlot.toList (trim line) := fun hoccurs =>
    hslot (occurs_readerSlot_trim.1 hoccurs)
  have hline : ofLine? line = (words (trim line)).head?.bind fun first =>
      if (dropTrailing (· == ':') first).isEmpty then none
      else some (String.ofList (dropTrailing (· == ':') first),
        String.ofList ((parenthesized? (trim line)).getD (dropTrailing (· == ':') first))) := by
    simp [ofLine?, occurs_colon_trim.2 hcolon, hother]
  rw [hline, Option.bind_eq_some_iff]
  constructor
  · rintro ⟨first, hfirst, hgiven⟩
    split_ifs at hgiven with hempty
    obtain ⟨rfl, rfl⟩ := Prod.mk.inj (Option.some.inj hgiven)
    refine ⟨by simpa using hempty, ⟨first, hfirst, String.toList_ofList.symm⟩, ?_⟩
    rw [String.toList_ofList, String.toList_ofList]
  · rintro ⟨hne, ⟨first, hfirst, hhandle⟩, hlabel⟩
    refine ⟨first, hfirst, ?_⟩
    simp [hhandle, hlabel, hne]

/-- A blank at the end of a line makes no difference. -/
theorem ofLine?_concat {c : Char} (h : isBlank c) (line : List Char) :
    ofLine? (line ++ [c]) = ofLine? line := by
  rw [ofLine?, ofLine?, trim_concat h]

theorem parenthesized?_ne_nil {inner : List Char} (h : parenthesized? line = some inner) :
    inner ≠ [] := by
  obtain ⟨⟨_, rest⟩, _, h⟩ := Option.bind_eq_some_iff.1 h
  obtain ⟨⟨text, _⟩, _, h⟩ := Option.bind_eq_some_iff.1 h
  have h : (if (trim text).isEmpty then none else some (trim text)) = some inner := h
  split_ifs at h with hempty
  obtain rfl := Option.some.inj h
  simpa using hempty

/-- What a line lists can be used as a handle, and has a label. -/
theorem isHandle_of_ofLine? (h : ofLine? line = some (handle, label)) :
    IsHandle handle ∧ label ≠ "" := by
  by_cases hcolon : ':' ∈ line
  · by_cases hslot : readerSlot.toList <:+: line
    · rw [ofLine?_of_readerSlot hslot] at h
      obtain ⟨rfl, rfl⟩ := Prod.mk.inj (Option.some.inj h)
      exact ⟨isHandle_readerSlot, by decide⟩
    · obtain ⟨hne, ⟨first, hfirst, hhandle⟩, hlabel⟩ := (ofLine?_eq_some_iff hcolon hslot).1 h
      have hword : first ∈ words (trim line) := List.mem_of_head? hfirst
      have hpart : dropTrailing (· == ':') first <+: first := List.rdropWhile_prefix _ first
      refine ⟨⟨hne, fun c hc => ?_, fun hlast => ?_⟩, ?_⟩
      · exact not_isBlank_of_mem_words hword (hpart.subset (hhandle ▸ hc))
      · rw [← hhandle] at hlast
        simpa using getLast?_dropTrailing hlast
      · cases hinner : parenthesized? (trim line) with
        | none =>
          have hsame : handle = label := String.toList_inj.1 (by simpa [hinner] using hlabel)
          exact hsame ▸ hne
        | some inner =>
          have hinner' : inner = label.toList := by simpa [hinner] using hlabel
          have hne' := parenthesized?_ne_nil hinner
          simpa [hinner'] using hne'
  · rw [ofLine?_of_no_colon hcolon] at h
    cases h

end Line

/-! ## Numbers -/

variable {devices : List Device} {listed first second : List (String × String)}

/-- The device with its number so many places later. -/
def later (count : Nat) (device : Device) : Device :=
  { device with ordinal := device.ordinal + count }

@[simp] theorem length_number : (number listed).length = listed.length := by
  simp [number]

theorem map_number :
    (number listed).map (fun device => (device.handle, device.label)) = listed := by
  simp [number, Function.comp_def]

/-- Numbers begin at 1 and leave no gap. -/
theorem ordinals_number : (number listed).map ordinal = List.range' 1 listed.length := by
  have hnumber : (number listed).map ordinal = (listed.zipIdx.map Prod.snd).map (1 + ·) := by
    simp only [number, List.map_map, Function.comp_def, Nat.add_comm]
  rw [hnumber, List.zipIdx_map_snd, List.map_add_range']

/-- What comes later in a list is numbered as by itself, and then moved. -/
theorem number_append :
    number (first ++ second) = number first ++ (number second).map (later first.length) := by
  have hmoved : second.zipIdx first.length =
      second.zipIdx.map fun (entry, index) => (entry, first.length + index) :=
    List.zipIdx_eq_map_add
  have hsum : ∀ index, first.length + index + 1 = index + 1 + first.length := by omega
  simp [number, List.zipIdx_append, hmoved, later, Function.comp_def, hsum]

theorem number_cons {handle label : String} :
    number ((handle, label) :: listed) = ⟨handle, label, 1⟩ :: (number listed).map (later 1) :=
  @number_append [(handle, label)] listed

/-- One more entry makes the numbers behind it higher by one. -/
theorem number_insert {handle label : String} :
    number (first ++ (handle, label) :: second) = number first ++
      ⟨handle, label, first.length + 1⟩ ::
        ((number second).map (later first.length)).map (later 1) := by
  have hsum : ∀ count, count + 1 + first.length = count + first.length + 1 := by omega
  rw [number_append, number_cons]
  simp [later, Nat.add_comm 1, hsum]

/-- A device with a number is the one at that place. -/
theorem find?_ordinal {start : Nat} (h : devices.map ordinal = List.range' start devices.length)
    (place : Nat) :
    devices.find? (fun device => device.ordinal = start + place) = devices[place]? := by
  induction devices generalizing start place with
  | nil => rfl
  | cons device devices ih =>
    rw [List.map_cons, List.length_cons, List.range'_succ] at h
    obtain ⟨hfirst, hrest⟩ := List.cons.inj h
    cases place with
    | zero => rw [List.find?_cons_of_pos (by simpa using hfirst)]; rfl
    | succ place =>
      have hother : ¬ device.ordinal = start + (place + 1) := by omega
      rw [List.find?_cons_of_neg (by simpa using hother), List.getElem?_cons_succ,
        ← ih hrest place]
      simp only [Nat.add_assoc, Nat.add_comm 1]

/-! ## Listings put together -/

/-- What the tool tells of a device. -/
structure Entry where
  handle : String
  vendor : String
  product : String
  label : String

namespace Entry

/-- What the line of a device has before the label. -/
def heading (entry : Entry) : String :=
  entry.handle ++ ": vendor=" ++ entry.vendor ++ ", product=" ++ entry.product ++ " "

/-- The line of a device. -/
def line (entry : Entry) : String :=
  entry.heading ++ "(" ++ entry.label ++ ")"

/-- An entry whose line can be read without a doubt. -/
structure Proper (entry : Entry) : Prop where
  handle : IsHandle entry.handle
  label_ne_empty : entry.label ≠ ""
  trimmed_label : trimmed entry.label = entry.label
  not_closed_in_label : ')' ∉ entry.label.toList
  not_opened_in_heading : '(' ∉ entry.heading.toList
  not_readerSlot : ¬ readerSlot.toList <:+: entry.line.toList

theorem proper_iff {entry : Entry} : entry.Proper ↔ IsHandle entry.handle ∧
    (entry.label ≠ "" ∧ trimmed entry.label = entry.label ∧ ')' ∉ entry.label.toList) ∧
    '(' ∉ entry.heading.toList ∧ ¬ readerSlot.toList <:+: entry.line.toList :=
  ⟨fun ⟨hhandle, hne, htrim, hclosed, hopened, hslot⟩ =>
    ⟨hhandle, ⟨hne, htrim, hclosed⟩, hopened, hslot⟩,
  fun ⟨hhandle, ⟨hne, htrim, hclosed⟩, hopened, hslot⟩ =>
    ⟨hhandle, hne, htrim, hclosed, hopened, hslot⟩⟩

instance (entry : Entry) : Decidable entry.Proper :=
  decidable_of_iff' _ proper_iff

variable {entry : Entry}

theorem toList_line_opened (entry : Entry) :
    entry.line.toList = entry.heading.toList ++ '(' :: (entry.label.toList ++ [')']) := by
  simp [line]

/-- The line of a device begins with the handle, a colon and a blank. -/
theorem toList_line_begun (entry : Entry) : ∃ rest,
    entry.line.toList = entry.handle.toList ++ [':'] ++ ' ' :: rest := by
  simp [line, heading]

theorem Proper.trim_line (h : entry.Proper) : trim entry.line.toList = entry.line.toList := by
  refine trim_eq_self (fun c hfirst => ?_) fun c hlast => ?_
  · obtain ⟨rest, hrest⟩ := toList_line_begun entry
    have hne : entry.handle.toList ≠ [] := by simpa using h.handle.ne_empty
    obtain ⟨d, handle, hhandle⟩ := List.exists_cons_of_ne_nil hne
    obtain rfl : d = c := by simpa [hrest, hhandle] using hfirst
    exact h.handle.not_blank d (hhandle ▸ List.mem_cons_self)
  · have hend : entry.line.toList = entry.heading.toList ++ '(' :: entry.label.toList ++ [')'] := by
      simp [line]
    obtain rfl : ')' = c := by
      simpa only [hend, List.getLast?_concat, Option.some.injEq] using hlast
    rfl

theorem Proper.head?_words (h : entry.Proper) :
    (words entry.line.toList).head? = some (entry.handle.toList ++ [':']) := by
  obtain ⟨rest, hrest⟩ := toList_line_begun entry
  have hword : ∀ c ∈ entry.handle.toList ++ [':'], isBlank c = false := by
    intro c hc
    rcases List.mem_append.1 hc with hc | hc
    · exact h.handle.not_blank c hc
    · obtain rfl := List.mem_singleton.1 hc
      rfl
  rw [hrest, words_append_blank rfl, words_eq_singleton (by simp) hword]
  rfl

theorem Proper.parenthesized?_line (h : entry.Proper) :
    parenthesized? entry.line.toList = some entry.label.toList := by
  have hopened := splitOnce?_char h.not_opened_in_heading (entry.label.toList ++ [')'])
  have hclosed := splitOnce?_char h.not_closed_in_label []
  have htrim : trim entry.label.toList = entry.label.toList :=
    trimmed_eq_self_iff.1 h.trimmed_label
  simp [parenthesized?, toList_line_opened, hopened, hclosed, htrim, h.label_ne_empty]

/-- The line of a device lists its handle and its label. -/
theorem Proper.ofLine?_line (h : entry.Proper) :
    ofLine? entry.line.toList = some (entry.handle, entry.label) := by
  have hcolon : ':' ∈ entry.line.toList := by
    obtain ⟨rest, hrest⟩ := toList_line_begun entry
    simp [hrest]
  refine (ofLine?_eq_some_iff hcolon h.not_readerSlot).2 ⟨h.handle.ne_empty, ?_, ?_⟩
  · refine ⟨_, by rw [h.trim_line, h.head?_words], ?_⟩
    rw [dropTrailing_concat rfl]
    refine dropTrailing_eq_self fun c hlast => ?_
    rw [beq_eq_false_iff_ne]
    rintro rfl
    exact h.handle.not_colon_at_end hlast
  · rw [h.trim_line, h.parenthesized?_line]
    rfl

end Entry

/-- A line of a listing. -/
inductive Row
  | device (entry : Entry)
  /-- A line that speaks of the first slot of a card reader. -/
  | slot (line : String)
  /-- A line that lists nothing. -/
  | other (line : String)

namespace Row

/-- How a row is printed. -/
def line : Row → List Char
  | device entry => entry.line.toList
  | slot line => line.toList
  | other line => line.toList

/-- The handle and the label that a row lists. -/
def listed? : Row → Option (String × String)
  | device entry => some (entry.handle, entry.label)
  | slot _ => some (readerSlot, readerSlot)
  | other _ => none

/-- Whether a row is what it says. -/
def Proper : Row → Prop
  | device entry => entry.Proper
  | slot line => readerSlot.toList <:+: line.toList
  | other line => AllBlank line ∨ ':' ∉ line.toList

instance : DecidablePred Proper
  | device entry => inferInstanceAs (Decidable entry.Proper)
  | slot _ => inferInstanceAs (Decidable (_ <:+: _))
  | other _ => inferInstanceAs (Decidable (_ ∨ _))

theorem Proper.ofLine?_line {row : Row} (h : row.Proper) : ofLine? row.line = row.listed? := by
  cases row with
  | device entry => exact Entry.Proper.ofLine?_line h
  | slot line => exact ofLine?_of_readerSlot h
  | other line =>
    refine ofLine?_of_no_colon ?_
    rcases h with hblank | hcolon
    · intro hmem
      simpa [isBlank] using hblank ':' hmem
    · exact hcolon

end Row

/-- The devices of a listing that is put together from rows. -/
theorem ofListing_of_laidOut {rows : List Row} {text : String} (hrows : ∀ row ∈ rows, row.Proper)
    (htext : LaidOut (rows.map Row.line) text.toList) :
    ofListing text = number (rows.filterMap Row.listed?) := by
  rw [ofListing, htext.filterMap_lines_map rfl (ofLine?_concat rfl)
    fun row hmem => (hrows row hmem).ofLine?_line]

/-- **Devices are read as they were listed.** A listing that is put together from rows gives the
handles and the labels of the rows that list a device, in order and numbered from 1, whatever the
other rows and the line ends are. With one more row anywhere that speaks of the first slot of a
card reader, it gives one more device at that place, and the devices behind it have numbers that
are higher by one. -/
theorem listed_of_laidOut {rows : List Row} {text : String} (hrows : ∀ row ∈ rows, row.Proper)
    (htext : LaidOut (rows.map Row.line) text.toList) :
    (ofListing text).map (fun device => (device.handle, device.label)) =
      rows.filterMap Row.listed? ∧
    (ofListing text).map ordinal = List.range' 1 (rows.filterMap Row.listed?).length ∧
    ∀ (before after : List Row) (slotLine inserted : String), rows = before ++ after →
      readerSlot.toList <:+: slotLine.toList →
      LaidOut ((before ++ .slot slotLine :: after).map Row.line) inserted.toList →
      ∃ ahead behind, ofListing text = ahead ++ behind ∧
        ahead.length = (before.filterMap Row.listed?).length ∧
        ofListing inserted =
          ahead ++ ⟨readerSlot, readerSlot, ahead.length + 1⟩ :: behind.map (later 1) := by
  refine ⟨?_, ?_, ?_⟩
  · rw [ofListing_of_laidOut hrows htext, map_number]
  · rw [ofListing_of_laidOut hrows htext, ordinals_number]
  · rintro before after slotLine inserted rfl hslot hinserted
    have hmore : ∀ row ∈ before ++ .slot slotLine :: after, row.Proper := by
      intro row hmem
      rcases List.mem_append.1 hmem with hmem | hmem
      · exact hrows row (List.mem_append_left _ hmem)
      · rcases List.mem_cons.1 hmem with rfl | hmem
        · exact hslot
        · exact hrows row (List.mem_append_right _ hmem)
    rw [ofListing_of_laidOut hrows htext, ofListing_of_laidOut hmore hinserted]
    refine ⟨number (before.filterMap Row.listed?), (number (after.filterMap Row.listed?)).map
      (later (before.filterMap Row.listed?).length), ?_, length_number, ?_⟩
    · rw [List.filterMap_append, number_append]
    · have hgiven : (before ++ .slot slotLine :: after).filterMap Row.listed? =
          before.filterMap Row.listed? ++
            (readerSlot, readerSlot) :: after.filterMap Row.listed? := by
        simp [Row.listed?]
      rw [hgiven, number_insert, length_number]

/-- Devices with a colon in the handle and with a parenthesis in the label, among other lines. -/
def mixedRows : List Row :=
  [.other " \t", .device ⟨"usb:4", "0x349e", "", "Key (blue"⟩, .other "none",
    .device ⟨"/dev/hidraw4", "", "", "Key"⟩]

/-- These rows with line ends of both kinds, and none at the end. -/
def mixedListing : String :=
  " \t\r\nusb:4: vendor=0x349e, product= (Key (blue)\nnone\r\n/dev/hidraw4: vendor=, product= (Key)"

/-- The same listing with a line about a card reader in the middle. -/
def mixedWithReader : String :=
  " \t\r\nusb:4: vendor=0x349e, product= (Key (blue)\na pcsc://slot0 (b)\r\nnone\n" ++
    "/dev/hidraw4: vendor=, product= (Key)\n"

theorem listed_of_laidOut_mixed : (∀ row ∈ mixedRows, row.Proper) ∧
    LaidOut (mixedRows.map Row.line) mixedListing.toList ∧
    (ofListing mixedListing).map (fun device => (device.handle, device.label)) =
      [("usb:4", "Key (blue"), ("/dev/hidraw4", "Key")] ∧
    ∃ ahead behind, ofListing mixedListing = ahead ++ behind ∧ ahead.length = 1 ∧
      ofListing mixedWithReader =
        ahead ++ ⟨readerSlot, readerSlot, ahead.length + 1⟩ :: behind.map (later 1) := by
  have hrows : ∀ row ∈ mixedRows, row.Proper := by
    decide
  have hlaid : LaidOut (mixedRows.map Row.line) mixedListing.toList := by
    decide +kernel
  have hinserted : LaidOut ((mixedRows.take 2 ++ .slot "a pcsc://slot0 (b)" ::
      mixedRows.drop 2).map Row.line) mixedWithReader.toList := by
    decide +kernel
  obtain ⟨hgiven, _, hinsert⟩ := listed_of_laidOut hrows hlaid
  exact ⟨hrows, hlaid, hgiven, hinsert _ _ _ _ rfl (by decide) hinserted⟩

end SecurityKey.Device
