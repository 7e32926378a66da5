import SecurityKey.Text.Blank
import SecurityKey.Text.Digit
import SecurityKey.Text.Folding
/-!
# Sets of characters

A set of characters is a list of stretches of their numbers, in increasing order and with a gap
between each two, so that equal sets have equal stretches.

Main statements: `has_union` and `has_complement` say what the operations on sets do to their
members, and `has_digits` and `has_blanks` that the sets of digits and of blanks have those
characters.
-/

namespace SecurityKey

open Text

/-- Characters from one to another by number, ends included. -/
structure Stretch where
  first : Nat
  last : Nat
  first_le_last : first ≤ last := by omega
deriving DecidableEq

namespace Stretch

/-- The stretch of one character. -/
def single (n : Nat) : Stretch := ⟨n, n, Nat.le_refl n⟩

/-- Whether a character is in a stretch. -/
def has (stretch : Stretch) (n : Nat) : Bool :=
  stretch.first ≤ n && n ≤ stretch.last

/-- Two stretches as one that covers both, and what lies between them. -/
def join (a b : Stretch) : Stretch where
  first := min a.first b.first
  last := max a.last b.last
  first_le_last := by have := a.first_le_last; omega

/-- What is left of a stretch without another one. -/
def without (a b : Stretch) : List Stretch :=
  (if h : a.first < b.first then
    [⟨a.first, min a.last (b.first - 1), by have := a.first_le_last; omega⟩] else []) ++
  (if h : b.last < a.last then
    [⟨max a.first (b.last + 1), a.last, by have := a.first_le_last; omega⟩] else [])

theorem has_join {a b : Stretch} (h : a.first ≤ b.last + 1) (h' : b.first ≤ a.last + 1) (n : Nat) :
    (a.join b).has n = (a.has n || b.has n) := by
  have := a.first_le_last
  have := b.first_le_last
  rw [Bool.eq_iff_iff]
  simp only [has, Bool.and_eq_true, Bool.or_eq_true, decide_eq_true_eq]
  simp only [join]
  omega

theorem any_has_without (a b : Stretch) (n : Nat) :
    (a.without b).any (·.has n) = (a.has n && !b.has n) := by
  have := b.first_le_last
  rw [Bool.eq_iff_iff]
  unfold without
  split <;> split <;>
    simp only [has, List.any_append, List.any_cons, List.any_nil, Bool.or_false, Bool.false_or,
      Bool.and_eq_true, Bool.or_eq_true, Bool.not_eq_true', Bool.and_eq_false_imp,
      decide_eq_true_eq, decide_eq_false_iff_not, Bool.false_eq_true, false_iff] <;>
    omega

/-- Puts a stretch among others that stand in order, joining those that it overlaps or touches. -/
def insert (a : Stretch) : List Stretch → List Stretch
  | [] => [a]
  | b :: bs =>
    if a.last + 1 < b.first then a :: b :: bs
    else if b.last + 1 < a.first then b :: insert a bs
    else insert (a.join b) bs

theorem any_has_insert (a : Stretch) (bs : List Stretch) (n : Nat) :
    (insert a bs).any (·.has n) = (a.has n || bs.any (·.has n)) := by
  induction bs generalizing a with
  | nil => simp [insert]
  | cons b bs ih =>
    unfold insert
    split
    · simp
    · split
      · simp only [List.any_cons, ih]
        exact Bool.or_left_comm ..
      · rw [ih, has_join (by omega) (by omega), List.any_cons, Bool.or_assoc]

end Stretch

/-- A set of characters. -/
structure CharSet where
  stretches : List Stretch
deriving DecidableEq

namespace CharSet

/-- Whether a character is in a set, by its number. -/
def hasNumber (set : CharSet) (n : Nat) : Bool :=
  set.stretches.any (·.has n)

/-- Whether a character is in a set. -/
def has (set : CharSet) (c : Char) : Bool :=
  set.hasNumber c.toNat

/-- The set of the characters in some stretches, whatever their order. -/
def ofStretches (stretches : List Stretch) : CharSet :=
  ⟨stretches.foldr Stretch.insert []⟩

/-- The characters that are in one of two sets. -/
def union (a b : CharSet) : CharSet :=
  ⟨a.stretches.foldr Stretch.insert b.stretches⟩

/-- The characters that are not in a set. -/
def complement (set : CharSet) : CharSet :=
  ⟨set.stretches.foldl (fun rest stretch => rest.flatMap (·.without stretch))
    [⟨0, 0x10FFFF, by omega⟩]⟩

/-- The set of one character. -/
def single (c : Char) : CharSet := ⟨[.single c.toNat]⟩

/-- The only character of a set, if it has one only. -/
def only? (set : CharSet) : Option Char :=
  match set.stretches with
  | [stretch] => if stretch.first = stretch.last then some (Char.ofNat stretch.first) else none
  | _ => none

/-- Every character but the newline. -/
def any : CharSet := (single '\n').complement

/-- The decimal digits of all scripts. -/
def digits : CharSet :=
  ofStretches (decimalZeros.map fun first => ⟨first, first + 9, by omega⟩)

/-- The blank characters. -/
def blanks : CharSet :=
  ⟨[⟨0x09, 0x0D, by decide⟩, .single 0x20, .single 0x85, .single 0xA0, .single 0x1680,
    ⟨0x2000, 0x200A, by decide⟩, ⟨0x2028, 0x2029, by decide⟩, .single 0x202F, .single 0x205F,
    .single 0x3000]⟩

/-- A set with the characters that differ in case alone from one in it: those that its characters
fold to, and those that fold to one of these or of its own. -/
def ignoringCase (set : CharSet) : CharSet :=
  let numbers (ns : List Nat) : CharSet := ofStretches (ns.map .single)
  let set := set.union (numbers (foldPairs.filterMap fun (letter, folded) =>
    if set.hasNumber letter then some folded else none))
  set.union (numbers (foldPairs.filterMap fun (letter, folded) =>
    if set.hasNumber folded then some letter else none))

theorem has_single (c d : Char) : (single c).has d = decide (d = c) := by
  simp only [single, has, hasNumber, Stretch.has, Stretch.single, List.any_cons, List.any_nil,
    Bool.or_false]
  rw [Bool.eq_iff_iff, decide_eq_true_iff]
  simp only [Bool.and_eq_true, decide_eq_true_eq]
  rw [← Char.toNat_inj]
  omega

theorem hasNumber_foldr (stretches others : List Stretch) (n : Nat) :
    (CharSet.mk (stretches.foldr Stretch.insert others)).hasNumber n =
      (stretches.any (·.has n) || others.any (·.has n)) := by
  induction stretches with
  | nil => simp [hasNumber]
  | cons stretch stretches ih =>
    simp only [hasNumber] at ih
    simp only [hasNumber, List.foldr_cons, Stretch.any_has_insert, ih, List.any_cons, Bool.or_assoc]

theorem has_union (a b : CharSet) (c : Char) : (a.union b).has c = (a.has c || b.has c) :=
  hasNumber_foldr ..

theorem has_complement (set : CharSet) (c : Char) : set.complement.has c = !set.has c := by
  have rest (stretches left : List Stretch) :
      (stretches.foldl (fun rest stretch => rest.flatMap (·.without stretch)) left).any
        (·.has c.toNat) = (left.any (·.has c.toNat) && !stretches.any (·.has c.toNat)) := by
    induction stretches generalizing left with
    | nil => simp
    | cons stretch stretches ih =>
      rw [List.foldl_cons, ih, List.any_flatMap]
      simp only [Stretch.any_has_without, List.any_cons, Bool.not_or]
      cases h : stretch.has c.toNat <;> simp
  have hc : c.toNat ≤ 0x10FFFF := by
    have := c.valid
    simp only [UInt32.isValidChar, Nat.isValidChar] at this
    simp only [Char.toNat]
    omega
  rw [complement, has, hasNumber, rest]
  simp [has, hasNumber, Stretch.has, hc]

theorem has_digits (c : Char) : digits.has c = isDecimalDigit c := by
  rw [digits, ofStretches, has, hasNumber_foldr]
  simp only [isDecimalDigit, List.any_map, List.any_nil, Bool.or_false]
  congr 1
  funext first
  rw [Bool.eq_iff_iff]
  simp only [Function.comp, Stretch.has, Bool.and_eq_true, decide_eq_true_eq]
  omega

theorem has_blanks (c : Char) : blanks.has c = isBlank c := by
  rw [Bool.eq_iff_iff]
  simp only [blanks, has, hasNumber, Stretch.has, Stretch.single, isBlank, List.any_cons,
    List.any_nil, Bool.or_eq_true, Bool.and_eq_true, decide_eq_true_eq, beq_iff_eq, Bool.or_false]
  omega

theorem has_ignoringCase {set : CharSet} {c : Char} (h : set.has c) : set.ignoringCase.has c := by
  simp [ignoringCase, has_union, h]

example : (single 'ς').ignoringCase = ofStretches
    [.single 0x3A3, ⟨0x3C2, 0x3C3, by decide⟩] := by decide +kernel
example : (single 'k').ignoringCase = ofStretches
    [.single 0x4B, .single 0x6B, .single 0x212A] := by decide +kernel
example : (single 'İ').ignoringCase = single 'İ' := by decide +kernel

end CharSet

end SecurityKey
