import Mathlib.Data.List.Infix
import Mathlib.Tactic.Common
import SecurityKey.Text.Search
/-!
# Occurrences in a text

What `earliest?` finds is the first occurrence of any of the marks, and of the marks that stand at
its place the one that comes first in the list (`earliest?_eq_some_iff`). It finds nothing only
where no mark occurs (`earliest?_eq_none_iff`).

**Put together.** A text that is put together around a mark is cut there again, unless the mark
begins earlier (`splitOnce?_append`).

**More text.** A search sees a text as far as it has come. More text behind it can change what is
found: a mark that begins earlier may only now be complete. That needs a mark which holds another
one, so where no mark holds another (`Apart`), what was found stays found
(`earliest?_append`).

**In order.** `InOrder marks text` says that marks occur in a text one behind the other, without
sharing any part of it.
-/

namespace SecurityKey.Text

variable {mark s t rest : List Char} {marks : List (List Char)}

/-! ## Marks at the beginning of a text -/

theorem isPrefixOf?_eq_none : mark.isPrefixOf? s = none ↔ ¬ mark <+: s := by
  constructor
  · rintro h ⟨rest, hrest⟩
    rw [isPrefixOf?_eq_some.2 hrest.symm] at h
    cases h
  · intro h
    cases hp : mark.isPrefixOf? s with
    | none => rfl
    | some rest => exact absurd ⟨rest, (isPrefixOf?_eq_some.1 hp).symm⟩ h

theorem leading?_eq_none : leading? marks s = none ↔ ∀ mark ∈ marks, ¬ mark <+: s := by
  induction marks with
  | nil => simp [leading?]
  | cons mark marks ih =>
    rw [leading?, List.forall_mem_cons, ← ih, ← isPrefixOf?_eq_none]
    cases mark.isPrefixOf? s <;> simp

/-- The mark that a text begins with is the first of those which it begins with. -/
theorem leading?_eq_some {index : Nat} : leading? marks s = some (index, rest) ↔
    (∃ mark, marks[index]? = some mark ∧ s = mark ++ rest) ∧
      ∀ mark ∈ marks.take index, ¬ mark <+: s := by
  induction marks generalizing index with
  | nil => simp [leading?]
  | cons first marks ih =>
    rw [leading?]
    cases hp : first.isPrefixOf? s with
    | some after =>
      have hs := isPrefixOf?_eq_some.1 hp
      cases index with
      | zero => simp [hs, eq_comm]
      | succ index => simp [hs]
    | none =>
      have hn := isPrefixOf?_eq_none.1 hp
      cases index with
      | zero =>
        simp only [Option.map_eq_some_iff, Prod.mk.injEq, List.getElem?_cons_zero,
          Option.some.injEq, exists_eq_left']
        constructor
        · rintro ⟨_, _, h, _⟩
          cases h
        · rintro ⟨rfl, _⟩
          exact absurd (List.prefix_append _ _) hn
      | succ index =>
        rw [List.getElem?_cons_succ, List.take_succ_cons, List.forall_mem_cons]
        constructor
        · intro h
          obtain ⟨⟨i, r⟩, hi, h⟩ := Option.map_eq_some_iff.1 h
          simp only [Prod.mk.injEq, Nat.add_right_cancel_iff] at h
          obtain ⟨rfl, rfl⟩ := h
          obtain ⟨hm, hbefore⟩ := ih.1 hi
          exact ⟨hm, hn, hbefore⟩
        · rintro ⟨hm, _, hbefore⟩
          rw [ih.2 ⟨hm, hbefore⟩]
          rfl

/-! ## The first occurrence -/

/-- Nothing is found exactly where no mark occurs. -/
theorem earliest?_eq_none_iff : earliest? marks s = none ↔ ∀ mark ∈ marks, ¬ mark <:+: s := by
  induction s with
  | nil =>
    rw [earliest?, Option.map_eq_none_iff, leading?_eq_none]
    simp
  | cons c s ih =>
    rw [earliest?]
    cases hl : leading? marks (c :: s) with
    | some found =>
      obtain ⟨index, rest⟩ := found
      obtain ⟨⟨mark, hm, hs⟩, _⟩ := leading?_eq_some.1 hl
      have hin : mark <:+: c :: s := ⟨[], rest, by simp [hs]⟩
      constructor
      · intro h
        cases h
      · intro h
        exact absurd hin (h mark (List.mem_of_getElem? hm))
    | none =>
      simp only [Option.map_eq_none_iff, ih, List.infix_cons_iff, not_or]
      have hn := leading?_eq_none.1 hl
      exact ⟨fun h mark hm => ⟨hn mark hm, h mark hm⟩, fun h mark hm => (h mark hm).2⟩

/-- What is found is the first occurrence of any mark, and of the marks that stand there the first
of the list. -/
theorem earliest?_eq_some_iff {found : Found} : earliest? marks s = some found ↔
    (∃ mark, marks[found.index]? = some mark ∧ s = found.before ++ mark ++ found.after) ∧
      (∀ mark ∈ marks, ∀ before after, s = before ++ mark ++ after →
        found.before.length ≤ before.length) ∧
      ∀ mark ∈ marks.take found.index, ¬ found.before ++ mark <+: s := by
  obtain ⟨index, before, after⟩ := found
  induction s generalizing before with
  | nil =>
    simp only [earliest?, Option.map_eq_some_iff, Prod.exists, leading?_eq_some, Found.mk.injEq]
    constructor
    · rintro ⟨index, rest, ⟨⟨mark, hm, hs⟩, hfirst⟩, rfl, rfl, rfl⟩
      exact ⟨⟨mark, hm, hs⟩, fun _ _ _ _ _ => Nat.zero_le _, hfirst⟩
    · rintro ⟨⟨mark, hm, hs⟩, _, hfirst⟩
      obtain ⟨rfl, rfl, rfl⟩ : before = [] ∧ mark = [] ∧ after = [] := by
        simpa [eq_comm] using hs
      exact ⟨index, [], ⟨⟨[], hm, rfl⟩, hfirst⟩, rfl, rfl, rfl⟩
  | cons c s ih =>
    rw [earliest?]
    cases hl : leading? marks (c :: s) with
    | some first =>
      obtain ⟨i, r⟩ := first
      obtain ⟨⟨mark, hm, hs⟩, hfirst⟩ := leading?_eq_some.1 hl
      simp only [Option.some.injEq, Found.mk.injEq]
      constructor
      · rintro ⟨rfl, rfl, rfl⟩
        exact ⟨⟨mark, hm, hs⟩, fun _ _ _ _ _ => Nat.zero_le _, hfirst⟩
      · rintro ⟨⟨other, ho, hs'⟩, hleast, hnone⟩
        -- Nothing stands before a place that is not the first.
        obtain rfl : before = [] := by
          have := hleast mark (List.mem_of_getElem? hm) [] r hs
          exact List.length_eq_zero_iff.1 (Nat.le_zero.1 this)
        have hl' : leading? marks (c :: s) = some (index, after) :=
          leading?_eq_some.2 ⟨⟨other, ho, hs'⟩, hnone⟩
        rw [hl] at hl'
        cases hl'
        exact ⟨rfl, rfl, rfl⟩
    | none =>
      -- No mark stands here, so all that is said is about the text behind the first character.
      have hn := leading?_eq_none.1 hl
      simp only [Option.map_eq_some_iff]
      constructor
      · rintro ⟨⟨i, b, a⟩, hf, h⟩
        cases h
        obtain ⟨⟨mark, hm, hs⟩, hleast, hfirst⟩ := (ih b).1 hf
        refine ⟨⟨mark, hm, by simp [hs]⟩, fun other ho b' a' hs' => ?_, fun other ho => ?_⟩
        · cases b' with
          | nil => exact absurd ⟨a', hs'.symm⟩ (hn other ho)
          | cons d b' =>
            have := hleast other ho b' a' (List.cons.inj hs').2
            simpa using this
        · simpa using hfirst other ho
      · rintro ⟨⟨mark, hm, hs⟩, hleast, hfirst⟩
        cases before with
        | nil => exact absurd ⟨after, hs.symm⟩ (hn mark (List.mem_of_getElem? hm))
        | cons d b =>
          obtain ⟨rfl, htail⟩ : d = c ∧ s = b ++ mark ++ after := by simpa [eq_comm] using hs
          refine ⟨⟨index, b, after⟩, (ih b).2 ⟨⟨mark, hm, ?_⟩, ?_, ?_⟩, rfl⟩
          · exact htail
          · intro other ho b' a' hs'
            have := hleast other ho (d :: b') a' (by simp [hs'])
            simpa using this
          · intro other ho
            simpa using hfirst other ho

@[simp] theorem earliest?_nil : earliest? [] s = none :=
  earliest?_eq_none_iff.2 fun _ hmark => nomatch hmark

/-- To cut a text around a mark is to look for this mark alone. -/
theorem earliest?_singleton : earliest? [mark] s =
    (splitOnce? mark s).map fun (before, after) => ⟨0, before, after⟩ := by
  induction s with
  | nil => cases mark <;> rfl
  | cons c s ih =>
    rw [earliest?, leading?, splitOnce?]
    cases mark.isPrefixOf? (c :: s) with
    | some rest => rfl
    | none =>
      simp only [leading?, ih, Option.map_map, Option.map_none]
      rfl

theorem splitOnce?_of_earliest? {found : Found} (h : earliest? [mark] s = some found) :
    splitOnce? mark s = some (found.before, found.after) := by
  rw [earliest?_singleton] at h
  obtain ⟨⟨before, after⟩, hsplit, rfl⟩ := Option.map_eq_some_iff.1 h
  exact hsplit

theorem splitOnce?_eq_none (h : earliest? [mark] s = none) : splitOnce? mark s = none := by
  rw [earliest?_singleton] at h
  exact Option.map_eq_none_iff.1 h

/-- What stands before the first occurrence of a mark holds none. -/
theorem not_infix_before {before after : List Char} (hne : mark ≠ [])
    (h : splitOnce? mark s = some (before, after)) : ¬ mark <:+: before := by
  have hfound : earliest? [mark] s = some ⟨0, before, after⟩ := by
    rw [earliest?_singleton, h]
    rfl
  obtain ⟨_, hleast, _⟩ := earliest?_eq_some_iff.1 hfound
  rintro ⟨first, rest, rfl⟩
  have hle := hleast mark (List.mem_singleton_self mark) first (rest ++ mark ++ after)
    (by simp [append_of_splitOnce? h])
  have hpos := List.length_pos_iff.2 hne
  simp only [List.length_append] at hle
  omega

theorem splitOnce?_eq_none_iff : splitOnce? mark s = none ↔ ¬ mark <:+: s := by
  rw [← Option.map_eq_none_iff, ← earliest?_singleton, earliest?_eq_none_iff]
  simp

/-- A mark occurs in a text where the text holds it. -/
theorem occurs_iff : occurs mark s ↔ mark <:+: s := by
  rw [← not_iff_not, ← splitOnce?_eq_none_iff, occurs, Bool.not_eq_true,
    Option.isSome_eq_false_iff, Option.isNone_iff_eq_none]

/-! ## Texts put together around a mark -/

/-- A text is cut around a mark that does not begin any earlier. -/
theorem splitOnce?_append {before : List Char} (h : ¬ mark <:+: before ++ mark.dropLast)
    (after : List Char) : splitOnce? mark (before ++ mark ++ after) = some (before, after) := by
  have hfound : earliest? [mark] (before ++ mark ++ after) = some ⟨0, before, after⟩ := by
    refine earliest?_eq_some_iff.2 ⟨⟨mark, rfl, rfl⟩, ?_, fun _ hmem => nomatch hmem⟩
    intro other hother b a heq
    obtain rfl := List.mem_singleton.1 hother
    show before.length ≤ b.length
    by_contra hlt
    -- One that begins earlier ends before the last character of the one in the middle.
    have hearly : b ++ other <+: before ++ other ++ after :=
      heq ▸ List.prefix_append (b ++ other) a
    have hcut : before ++ other.dropLast <+: before ++ other ++ after :=
      ((List.prefix_append_right_inj before).2 (List.dropLast_prefix other)).trans
        (List.prefix_append _ after)
    have hlen : (b ++ other).length ≤ (before ++ other.dropLast).length := by
      simp only [List.length_append, List.length_dropLast]
      omega
    have hin := List.prefix_of_prefix_length_le hearly hcut hlen
    exact h ((List.suffix_append b other).isInfix.trans hin.isInfix)
  exact splitOnce?_of_earliest? hfound

theorem splitOnce?_char {c : Char} {before : List Char} (h : c ∉ before) (after : List Char) :
    splitOnce? [c] (before ++ c :: after) = some (before, after) := by
  have hmark : ¬ [c] <:+: before ++ [c].dropLast := by
    rwa [List.dropLast_singleton, List.append_nil, List.singleton_infix_iff]
  simpa using splitOnce?_append hmark after

theorem splitOnce?_char_eq_some_iff {c : Char} {before after : List Char} :
    splitOnce? [c] s = some (before, after) ↔ s = before ++ c :: after ∧ c ∉ before := by
  constructor
  · intro h
    have hbefore := not_infix_before (List.cons_ne_nil c []) h
    rw [List.singleton_infix_iff] at hbefore
    exact ⟨by simpa using append_of_splitOnce? h, hbefore⟩
  · rintro ⟨rfl, hbefore⟩
    exact splitOnce?_char hbefore after

/-- What stands before a mark of two characters may end in the first of them. -/
theorem splitOnce?_pair {c d : Char} {before : List Char} (hne : c ≠ d)
    (h : ¬ [c, d] <:+: before) (after : List Char) :
    splitOnce? [c, d] (before ++ [c, d] ++ after) = some (before, after) := by
  refine splitOnce?_append ?_ after
  rw [show [c, d].dropLast = [c] from rfl, List.infix_concat_iff, not_or]
  refine ⟨fun hend => ?_, h⟩
  have hlast : d = c := by simpa using hend.getLast (List.cons_ne_nil c [d])
  exact hne hlast.symm

/-! ## More text -/

/-- No mark occurs in another one. -/
def Apart (marks : List (List Char)) : Prop :=
  ∀ p ∈ marks, ∀ q ∈ marks, p <:+: q → p = q

/-- Whether marks are apart can be found out by searching each in each. -/
theorem apart_iff_occurs : Apart marks ↔ ∀ p ∈ marks, ∀ q ∈ marks, occurs p q → p = q := by
  simp only [Apart, occurs_iff]

theorem apart_singleton (mark : List Char) : Apart [mark] := by
  intro p hp q hq _
  rw [List.mem_singleton.1 hp, List.mem_singleton.1 hq]

/-- A mark that only more text completes cannot begin before another mark that is complete. -/
theorem Apart.prefix_of_prefix_append (apart : Apart marks) {other : List Char}
    (ho : other ∈ marks) (hos : other <:+: s) (hm : mark ∈ marks) (h : mark <+: s ++ t) :
    mark <+: s := by
  rcases List.prefix_or_prefix_of_prefix h (List.prefix_append s t) with h | h
  · exact h
  · have heq : other = mark := apart other ho mark hm (hos.trans h.isInfix)
    have hlen : mark.length ≤ s.length := heq ▸ hos.length_le
    exact (h.eq_of_length_le hlen) ▸ List.prefix_rfl

theorem leading?_append (apart : Apart marks) {index : Nat}
    (h : leading? marks s = some (index, rest)) :
    leading? marks (s ++ t) = some (index, rest ++ t) := by
  obtain ⟨⟨mark, hm, hs⟩, hfirst⟩ := leading?_eq_some.1 h
  refine leading?_eq_some.2 ⟨⟨mark, hm, by simp [hs]⟩, fun other ho hp => hfirst other ho ?_⟩
  exact apart.prefix_of_prefix_append (List.mem_of_getElem? hm) ⟨[], rest, by simp [hs]⟩
    (List.mem_of_mem_take ho) hp

/-- What was found in the text so far is found in the whole text. -/
theorem earliest?_append (apart : Apart marks) {found : Found}
    (h : earliest? marks s = some found) :
    earliest? marks (s ++ t) = some { found with after := found.after ++ t } := by
  induction s generalizing found with
  | nil =>
    obtain ⟨⟨index, rest⟩, hl, rfl⟩ := Option.map_eq_some_iff.1 h
    have hl := leading?_append (t := t) apart hl
    cases t with
    | nil => simpa [earliest?] using hl
    | cons c t =>
      rw [List.nil_append] at hl ⊢
      simp [earliest?, hl]
  | cons c s ih =>
    rw [earliest?] at h
    rw [List.cons_append, earliest?, ← List.cons_append]
    cases hl : leading? marks (c :: s) with
    | some first =>
      obtain ⟨index, rest⟩ := first
      rw [hl] at h
      cases h
      rw [leading?_append apart hl]
    | none =>
      rw [hl] at h
      obtain ⟨inner, hf, rfl⟩ := Option.map_eq_some_iff.1 h
      have hn : leading? marks (c :: s ++ t) = none := by
        obtain ⟨⟨mark, hm, hs⟩, _⟩ := earliest?_eq_some_iff.1 hf
        refine leading?_eq_none.2 fun other ho hp => leading?_eq_none.1 hl other ho ?_
        have hin : mark <:+: c :: s := List.infix_cons ⟨inner.before, inner.after, hs.symm⟩
        exact apart.prefix_of_prefix_append (List.mem_of_getElem? hm) hin ho hp
      rw [hn]
      simp [ih hf]

/-! ## Occurrences in order -/

/-- The marks occur in the text one behind the other, each behind the end of the one before. -/
def InOrder : List (List Char) → List Char → Prop
  | [], _ => True
  | mark :: marks, text => ∃ before after, text = before ++ mark ++ after ∧ InOrder marks after

theorem InOrder.append_right (h : InOrder marks s) : InOrder marks (s ++ t) := by
  induction marks generalizing s with
  | nil => trivial
  | cons mark marks ih =>
    obtain ⟨before, after, rfl, h⟩ := h
    exact ⟨before, after ++ t, by simp, ih h⟩

/-- One more mark can come behind all of the text that the others need. -/
theorem InOrder.concat (h : InOrder marks s) (before : List Char) :
    InOrder (marks ++ [mark]) (s ++ before ++ mark) := by
  induction marks generalizing s with
  | nil => exact ⟨s ++ before, [], by simp, trivial⟩
  | cons first marks ih =>
    obtain ⟨b, after, rfl, h⟩ := h
    exact ⟨b, after ++ before ++ mark, by simp, ih h⟩

end SecurityKey.Text
