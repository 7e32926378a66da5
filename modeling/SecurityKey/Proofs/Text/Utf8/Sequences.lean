import Mathlib.Tactic.Common
import SecurityKey.Text.Utf8
/-!
# Well-formed sequences

The well-formed sequences of UTF-8 are the encodings of the characters. The decoder never compares
with them: it goes by the table of lead bytes, which says in which range each byte that follows must
lie.

**The table.** A lead byte and bytes in its ranges are an encoding, and there are no other encodings
but those of one byte (`encoding_of_lead`, `encoding_of_ascii`, `not_encoding_of_no_lead`). So the
narrower ranges keep out what they are meant to, and nothing else.

**One step.** An unfinished sequence of the decoder is the beginning of an encoding, and its ranges
say how it can go on (`Begun`). What one byte does then is a matter of encodings alone: it completes
one (`step_complete`), or it goes on with one (`step_partial`), or it does not belong to the
sequence (`step_interrupted`) or to any (`begin_stray`).
-/

namespace SecurityKey.Text.Utf8

open String (utf8EncodeChar)

/-! ## The table of lead bytes -/

/-- Bytes lie, one by one, in some ranges. -/
def Fits : List (Nat × Nat) → List UInt8 → Prop
  | [], [] => True
  | (low, high) :: ranges, b :: bytes => (low ≤ b.toNat ∧ b.toNat ≤ high) ∧ Fits ranges bytes
  | _, _ => False

/-- The number that bytes make with the bits that were read before. -/
def value (bits : Nat) (bytes : List UInt8) : Nat :=
  bytes.foldl (fun n b => n * 64 + (b.toNat - 0x80)) bits

variable {b : UInt8} {bits : Nat} {ranges : List (Nat × Nat)} {bytes tail : List UInt8} {c : Char}

theorem fits_cons {low high : Nat} :
    Fits ((low, high) :: ranges) (b :: tail) ↔
      (low ≤ b.toNat ∧ b.toNat ≤ high) ∧ Fits ranges tail :=
  Iff.rfl

theorem value_nil : value bits [] = bits := rfl

theorem value_cons : value bits (b :: tail) = value (bits * 64 + (b.toNat - 0x80)) tail := by
  rw [value, List.foldl_cons, value]

theorem toNat_valid (c : Char) : c.toNat < 0xD800 ∨ 0xDFFF < c.toNat ∧ c.toNat < 0x110000 :=
  c.valid

theorem eq_ofNat_iff {n : Nat} (h : n < 0xD800 ∨ 0xDFFF < n ∧ n < 0x110000) :
    c = Char.ofNat n ↔ c.toNat = n := by
  have hn : (Char.ofNat n).toNat = n := by
    rw [Char.ofNat, dif_pos h]
    rfl
  rw [← Char.toNat_inj, hn]

theorem encoding_of_ascii (h : b.toNat < 0x80) :
    utf8EncodeChar c = b :: tail ↔ tail = [] ∧ c = Char.ofNat b.toNat := by
  rw [eq_ofNat_iff (by omega)]
  have hval : c.val.toNat = c.toNat := rfl
  have hc := toNat_valid c
  rw [utf8EncodeChar, hval]
  rcases tail with _ | ⟨x, tail⟩ <;> split_ifs <;>
    simp only [List.cons.injEq, UInt8.ofNat_eq_iff_mod_eq_toNat, reduceCtorEq, and_true, and_false,
      true_and, false_and, iff_false, false_iff] <;> omega

/-- What follows a lead byte in its ranges makes a number of a character. -/
theorem valid_of_fits (h : lead? b.toNat = some (bits, ranges)) (hfits : Fits ranges tail) :
    value bits tail < 0xD800 ∨ 0xDFFF < value bits tail ∧ value bits tail < 0x110000 := by
  -- Row by row of the table, and by the number of bytes that follow.
  unfold lead? at h
  split_ifs at h <;> obtain ⟨rfl, rfl⟩ := Prod.mk.inj (Option.some.inj h) <;> clear h <;>
    rcases tail with _ | ⟨x, _ | ⟨y, _ | ⟨z, _ | ⟨w, tail⟩⟩⟩⟩ <;>
    simp only [Fits, value, List.foldl, and_true, and_false] at hfits ⊢ <;> omega

theorem encoding_toNat_of_lead (h : lead? b.toNat = some (bits, ranges)) :
    utf8EncodeChar c = b :: tail ↔ Fits ranges tail ∧ c.toNat = value bits tail := by
  have hval : c.val.toNat = c.toNat := rfl
  have hc := toNat_valid c
  -- Row by row of the table, by the number of bytes that follow and the length of the encoding.
  unfold lead? at h
  rw [utf8EncodeChar, hval]
  split_ifs at h <;> obtain ⟨rfl, rfl⟩ := Prod.mk.inj (Option.some.inj h) <;> clear h <;>
    rcases tail with _ | ⟨x, _ | ⟨y, _ | ⟨z, _ | ⟨w, tail⟩⟩⟩⟩ <;> split_ifs <;>
    simp only [Fits, value, List.foldl, List.cons.injEq, UInt8.ofNat_eq_iff_mod_eq_toNat,
      reduceCtorEq, and_true, and_false, false_and, iff_false, false_iff] <;> omega

/-- The encodings that begin with a lead byte go on with bytes in its ranges. -/
theorem encoding_of_lead (h : lead? b.toNat = some (bits, ranges)) :
    utf8EncodeChar c = b :: tail ↔ Fits ranges tail ∧ c = Char.ofNat (value bits tail) := by
  rw [encoding_toNat_of_lead h]
  exact and_congr_right fun hfits => (eq_ofNat_iff (valid_of_fits h hfits)).symm

/-- No encoding begins with any other byte. -/
theorem not_encoding_of_no_lead (hb : 0x80 ≤ b.toNat) (h : lead? b.toNat = none) :
    utf8EncodeChar c ≠ b :: tail := by
  have hval : c.val.toNat = c.toNat := rfl
  have hc := toNat_valid c
  unfold lead? at h
  intro he
  rw [utf8EncodeChar, hval] at he
  split_ifs at h he <;>
    simp only [List.cons.injEq, UInt8.ofNat_eq_iff_mod_eq_toNat] at he <;> omega

/-- Something follows a lead byte, and there is a byte in each of its ranges. -/
theorem ranges_of_lead (h : lead? b.toNat = some (bits, ranges)) :
    ranges ≠ [] ∧ ∀ range ∈ ranges, range.1 ≤ range.2 ∧ range.2 < 0x100 := by
  unfold lead? at h
  split_ifs at h <;> obtain ⟨rfl, rfl⟩ := Prod.mk.inj (Option.some.inj h) <;> decide

/-- There are bytes that fit. -/
theorem exists_fits (h : ∀ range ∈ ranges, range.1 ≤ range.2 ∧ range.2 < 0x100) :
    ∃ tail, Fits ranges tail := by
  induction ranges with
  | nil => exact ⟨[], trivial⟩
  | cons range ranges ih =>
    obtain ⟨⟨hle, hlt⟩, hrest⟩ := List.forall_mem_cons.1 h
    obtain ⟨tail, htail⟩ := ih hrest
    have hlow : (UInt8.ofNat range.1).toNat = range.1 :=
      UInt8.toNat_ofNat_of_lt' (Nat.lt_of_le_of_lt hle hlt)
    exact ⟨UInt8.ofNat range.1 :: tail, by rw [hlow]; exact ⟨Nat.le_refl _, hle⟩, htail⟩

/-! ## Beginnings of sequences -/

/-- Bytes that a well-formed sequence begins with, or that are one. -/
def Begins (bytes : List UInt8) : Prop :=
  ∃ c tail, utf8EncodeChar c = bytes ++ tail

/-- A proper beginning of a well-formed sequence, at least one byte long. -/
def Partial (bytes : List UInt8) : Prop :=
  bytes ≠ [] ∧ ∃ c tail, tail ≠ [] ∧ utf8EncodeChar c = bytes ++ tail

theorem Begins.complete_or_partial (h : Begins bytes) (hne : bytes ≠ []) :
    (∃ c, utf8EncodeChar c = bytes) ∨ Partial bytes := by
  obtain ⟨c, tail, htail⟩ := h
  by_cases hnil : tail = []
  · exact .inl ⟨c, by rw [htail, hnil, List.append_nil]⟩
  · exact .inr ⟨hne, c, tail, hnil, htail⟩

theorem Partial.of_append (h : Partial (bytes ++ tail)) (hne : bytes ≠ []) : Partial bytes := by
  obtain ⟨_, c, rest, hrest, hc⟩ := h
  refine ⟨hne, c, tail ++ rest, ?_, by rw [hc, List.append_assoc]⟩
  simp [hrest]

/-- An encoding has at most four bytes, so a proper beginning has at most three. -/
theorem Partial.length_le (h : Partial bytes) : bytes.length ≤ 3 := by
  obtain ⟨_, c, tail, htail, hc⟩ := h
  have hlength : bytes.length + tail.length = c.utf8Size := by
    rw [← String.length_utf8EncodeChar, hc, List.length_append]
  have hpos := List.length_pos_iff.2 htail
  have hfour := c.utf8Size_le_four
  omega

/-! ## One step of the decoder -/

variable {u : Unfinished}

/-- An unfinished sequence: what completes it is what fits its ranges. -/
structure Begun (u : Unfinished) : Prop where
  nonempty : u.bytes ≠ []
  unfinished : u.ranges ≠ []
  ranges : ∀ range ∈ u.ranges, range.1 ≤ range.2 ∧ range.2 < 0x100
  completes : ∀ {tail c}, utf8EncodeChar c = u.bytes ++ tail ↔
    Fits u.ranges tail ∧ c = Char.ofNat (value u.bits tail)

theorem begun_of_lead (h : lead? b.toNat = some (bits, ranges)) : Begun ⟨[b], bits, ranges⟩ where
  nonempty := List.cons_ne_nil b []
  unfinished := (ranges_of_lead h).1
  ranges := (ranges_of_lead h).2
  completes := encoding_of_lead h

theorem Begun.partial (h : Begun u) : Partial u.bytes := by
  obtain ⟨tail, hfits⟩ := exists_fits h.ranges
  refine ⟨h.nonempty, _, tail, ?_, h.completes.2 ⟨hfits, rfl⟩⟩
  rintro rfl
  cases hranges : u.ranges with
  | nil => exact h.unfinished hranges
  | cons range ranges =>
    rw [hranges] at hfits
    exact hfits

/-- The state of the decoder: between two characters, or within a sequence. -/
def Sound (u : Unfinished) : Prop :=
  u = .none ∨ Begun u

theorem Sound.none : Sound .none := .inl rfl

/-- A byte in the next range leaves a sequence that has one range less, if that was not the last. -/
theorem Begun.concat {low high : Nat} (h : Begun u) (hranges : u.ranges = (low, high) :: ranges)
    (hne : ranges ≠ []) (hb : low ≤ b.toNat ∧ b.toNat ≤ high) :
    Begun ⟨u.bytes ++ [b], u.bits * 64 + (b.toNat - 0x80), ranges⟩ where
  nonempty := by simp
  unfinished := hne
  ranges := fun range hrange => h.ranges range (hranges ▸ List.mem_cons_of_mem _ hrange)
  completes := by
    intro tail c
    rw [List.append_assoc, List.singleton_append, h.completes, hranges, fits_cons, value_cons,
      and_iff_right hb]

/-- What goes on with a sequence lies in its next range. -/
theorem Begun.begins_iff {low high : Nat} (h : Begun u)
    (hranges : u.ranges = (low, high) :: ranges) :
    Begins (u.bytes ++ [b]) ↔ low ≤ b.toNat ∧ b.toNat ≤ high := by
  constructor
  · rintro ⟨c, tail, hc⟩
    rw [List.append_assoc, h.completes, hranges] at hc
    exact hc.1.1
  · intro hb
    have hrest := h.ranges
    rw [hranges] at hrest
    obtain ⟨tail, hfits⟩ := exists_fits (List.forall_mem_cons.1 hrest).2
    refine ⟨Char.ofNat (value u.bits (b :: tail)), tail, ?_⟩
    rw [List.append_assoc, List.singleton_append, h.completes, hranges]
    exact ⟨⟨hb, hfits⟩, rfl⟩

theorem step_none (b : UInt8) : step .none b = begin b := rfl

/-- What a byte does between two characters. -/
theorem begin_cases (b : UInt8) :
    (b.toNat < 0x80 ∧ begin b = ([Char.ofNat b.toNat], .none)) ∨
      (∃ bits ranges, lead? b.toNat = some (bits, ranges) ∧ begin b = ([], ⟨[b], bits, ranges⟩)) ∨
      (0x80 ≤ b.toNat ∧ lead? b.toNat = none ∧ begin b = ([replacement], .none)) := by
  rw [begin]
  by_cases hb : b < 0x80
  · exact .inl ⟨hb, if_pos hb⟩
  · rw [if_neg hb]
    cases hlead : lead? b.toNat with
    | some found => exact .inr (.inl ⟨_, _, rfl, rfl⟩)
    | none => exact .inr (.inr ⟨Nat.le_of_not_lt hb, rfl, rfl⟩)

theorem begin_complete (hc : utf8EncodeChar c = [b]) : begin b = ([c], .none) := by
  rcases begin_cases b with ⟨hb, h⟩ | ⟨bits, ranges, hlead, _⟩ | ⟨hb, hlead, _⟩
  · rw [h, ((encoding_of_ascii hb).1 hc).2]
  · have hfits := ((encoding_of_lead hlead).1 hc).1
    cases ranges with
    | nil => exact absurd rfl (ranges_of_lead hlead).1
    | cons range ranges => exact hfits.elim
  · exact absurd hc (not_encoding_of_no_lead hb hlead)

theorem begin_partial (h : Partial [b]) :
    ∃ u, begin b = ([], u) ∧ Begun u ∧ u.bytes = [b] := by
  obtain ⟨_, c, tail, htail, hc⟩ := h
  rcases begin_cases b with ⟨hb, _⟩ | ⟨bits, ranges, hlead, h⟩ | ⟨hb, hlead, _⟩
  · exact absurd ((encoding_of_ascii hb).1 hc).1 htail
  · exact ⟨_, h, begun_of_lead hlead, rfl⟩
  · exact absurd hc (not_encoding_of_no_lead hb hlead)

/-- A byte that no sequence begins with is replaced. -/
theorem begin_stray (h : ¬ Begins [b]) : begin b = ([replacement], .none) := by
  rcases begin_cases b with ⟨hb, _⟩ | ⟨bits, ranges, hlead, _⟩ | ⟨_, _, hb⟩
  · exact absurd ⟨_, [], (encoding_of_ascii hb).2 ⟨rfl, rfl⟩⟩ h
  · obtain ⟨_, c, tail, _, hc⟩ := (begun_of_lead hlead).partial
    exact absurd ⟨c, tail, hc⟩ h
  · exact hb

theorem step_of_mem {low high : Nat} (hranges : u.ranges = (low, high) :: ranges)
    (hb : low ≤ b.toNat ∧ b.toNat ≤ high) :
    step u b = if ranges.isEmpty then ([Char.ofNat (u.bits * 64 + (b.toNat - 0x80))], .none)
      else ([], ⟨u.bytes ++ [b], u.bits * 64 + (b.toNat - 0x80), ranges⟩) := by
  rw [step, hranges]
  exact if_pos hb

/-- A byte that completes a sequence gives its character. -/
theorem step_complete (h : Sound u) (hc : utf8EncodeChar c = u.bytes ++ [b]) :
    step u b = ([c], .none) := by
  rcases h with rfl | h
  · exact begin_complete hc
  · obtain ⟨hfits, hchar⟩ := h.completes.1 hc
    cases hranges : u.ranges with
    | nil => exact absurd hranges h.unfinished
    | cons range ranges =>
      rw [hranges] at hfits
      cases ranges with
      | nil =>
        rw [step_of_mem hranges hfits.1, hchar, value_cons, value_nil]
        exact if_pos rfl
      | cons next ranges => exact hfits.2.elim

/-- A byte that leaves a sequence unfinished is kept with it. -/
theorem step_partial (h : Sound u) (hpartial : Partial (u.bytes ++ [b])) :
    ∃ next, step u b = ([], next) ∧ Begun next ∧ next.bytes = u.bytes ++ [b] := by
  rcases h with rfl | h
  · exact begin_partial hpartial
  · obtain ⟨_, c, tail, htail, hc⟩ := hpartial
    rw [List.append_assoc] at hc
    have hfits := (h.completes.1 hc).1
    cases hranges : u.ranges with
    | nil => exact absurd hranges h.unfinished
    | cons range ranges =>
      rw [hranges] at hfits
      cases ranges with
      | nil =>
        cases tail with
        | nil => exact absurd rfl htail
        | cons x tail => exact hfits.2.elim
      | cons next ranges =>
        exact ⟨_, step_of_mem hranges hfits.1, h.concat hranges (by simp) hfits.1, rfl⟩

/-- A byte that does not go on with a sequence interrupts it: the sequence is replaced, and the byte
begins anew. -/
theorem step_interrupted (h : Begun u) (hb : ¬ Begins (u.bytes ++ [b])) :
    step u b = (replacement :: (begin b).1, (begin b).2) := by
  cases hranges : u.ranges with
  | nil => exact absurd hranges h.unfinished
  | cons range ranges =>
    rw [h.begins_iff hranges] at hb
    rw [step, hranges]
    exact if_neg hb

end SecurityKey.Text.Utf8
