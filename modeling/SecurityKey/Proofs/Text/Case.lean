import Mathlib.Data.List.Infix
import Mathlib.Tactic.Common
import SecurityKey.Proofs.Text.Lines
import SecurityKey.Proofs.Text.Search
import SecurityKey.Text.Case
/-!
# Words in lower case

Lower-casing a text lowers its letters A to Z and leaves all other ASCII characters as they are.
Outside ASCII there are two characters that become ASCII ones, the Kelvin sign and the dotted
capital I. All others become characters outside ASCII, which may depend on what is around them
(`LowerCase`).

A word in the letters a to z that has no `k` and does not end in `i` therefore stands in a
lower-cased text exactly if it stands in the text with only A to Z lowered (`infix_lowerCase_iff`).
-/

namespace SecurityKey.Text

/-! ## Lower case -/

/-- What a character becomes in lower case. -/
inductive LowersTo : Char → List Char → Prop
  | ascii {c : Char} : c.toNat < 0x80 → LowersTo c [c.toLower]
  /-- The Kelvin sign. -/
  | kelvin : LowersTo '\u212a' ['k']
  /-- The dotted capital I, whose dot becomes a character of its own. -/
  | dotted : LowersTo '\u0130' ['i', '\u0307']
  | other {c d : Char} {ds : List Char} : 0x80 ≤ c.toNat → c ≠ '\u212a' → c ≠ '\u0130' →
      (∀ e ∈ d :: ds, 0x80 ≤ e.toNat) → LowersTo c (d :: ds)

/-- A text in lower case. -/
inductive LowerCase : List Char → List Char → Prop
  | nil : LowerCase [] []
  | cons {c : Char} {piece s t : List Char} : LowersTo c piece → LowerCase s t →
      LowerCase (c :: s) (piece ++ t)

/-- A way to put texts in lower case. -/
structure Lowering where
  apply : List Char → List Char
  lowers : ∀ s, LowerCase s (apply s)

/-- Outside ASCII there is no letter A to Z. -/
theorem toLower_of_not_ascii {c : Char} (hc : 0x80 ≤ c.toNat) : c.toLower = c := by
  refine dif_neg ?_
  rintro ⟨-, hle⟩
  exact Nat.not_lt.2 hc (Nat.lt_of_le_of_lt (UInt32.le_iff_toNat_le.1 hle) (by decide))

/-- What a character becomes in lower case if all that has no ASCII in lower case is left alone. -/
def lowerAlone (c : Char) : List Char :=
  if c = '\u212a' then ['k'] else if c = '\u0130' then ['i', '\u0307'] else [c.toLower]

theorem lowersTo_lowerAlone (c : Char) : LowersTo c (lowerAlone c) := by
  rw [lowerAlone]
  split_ifs with hkelvin hdotted
  · exact hkelvin ▸ .kelvin
  · exact hdotted ▸ .dotted
  · by_cases hascii : c.toNat < 0x80
    · exact .ascii hascii
    · have hc : 0x80 ≤ c.toNat := Nat.not_lt.1 hascii
      rw [toLower_of_not_ascii hc]
      exact .other hc hkelvin hdotted (List.forall_mem_singleton.2 hc)

theorem lowerCase_flatMap (s : List Char) : LowerCase s (s.flatMap lowerAlone) := by
  induction s with
  | nil => exact .nil
  | cons c s ih => exact .cons (lowersTo_lowerAlone c) ih

instance : Inhabited Lowering := ⟨⟨fun s => s.flatMap lowerAlone, lowerCase_flatMap⟩⟩

/-! ## Words -/

/-- A word that is found without regard to letters outside ASCII. -/
structure Plain (word : List Char) : Prop where
  nonempty : word ≠ []
  ascii : ∀ c ∈ word, c.toNat < 0x80
  no_k : 'k' ∉ word
  no_last_i : word.getLast? ≠ some 'i'

instance (word : List Char) : Decidable (Plain word) :=
  decidable_of_iff (word ≠ [] ∧ word.all (·.toNat < 0x80) ∧ 'k' ∉ word ∧ word.getLast? ≠ some 'i')
    ⟨fun ⟨h₁, h₂, h₃, h₄⟩ => ⟨h₁, by simpa using h₂, h₃, h₄⟩,
      fun ⟨h₁, h₂, h₃, h₄⟩ => ⟨h₁, by simpa using h₂, h₃, h₄⟩⟩

variable {word s t : List Char}

namespace Plain

theorem not_mem (h : Plain word) {c : Char} (hc : 0x80 ≤ c.toNat) : c ∉ word :=
  fun hmem => Nat.not_lt.2 hc (h.ascii c hmem)

/-- No plain word reaches over characters outside ASCII. -/
theorem infix_over_iff (h : Plain word) {c : Char} {cs : List Char}
    (hcs : ∀ d ∈ c :: cs, 0x80 ≤ d.toNat) (front rest : List Char) :
    word <:+: front ++ (c :: cs ++ rest) ↔ word <:+: front ∨ word <:+: rest := by
  obtain ⟨hc, hrest⟩ := List.forall_mem_cons.1 hcs
  rw [List.cons_append, infix_append_cons_iff (h.not_mem hc)]
  refine or_congr_right ?_
  clear hcs
  induction cs with
  | nil => rfl
  | cons d cs ih =>
    obtain ⟨hd, hcs⟩ := List.forall_mem_cons.1 hrest
    rw [← List.nil_append (d :: cs ++ rest), List.cons_append,
      infix_append_cons_iff (h.not_mem hd), ih hcs, List.infix_nil]
    simp [h.nonempty]

/-- An `i` behind a text completes no plain word. -/
theorem infix_concat_i_iff (h : Plain word) (front : List Char) :
    word <:+: front ++ ['i'] ↔ word <:+: front := by
  rw [List.infix_concat_iff]
  refine or_iff_right fun hsuffix => h.no_last_i ?_
  obtain ⟨rest, hrest⟩ := hsuffix
  rw [List.getLast?_eq_some_getLast h.nonempty]
  have hlast := congrArg List.getLast? hrest
  rw [List.getLast?_append_of_ne_nil _ h.nonempty, List.getLast?_concat,
    List.getLast?_eq_some_getLast h.nonempty] at hlast
  exact hlast

end Plain

/-- A plain word stands in a text in lower case, behind any other text, exactly if it stands there
with only A to Z lowered. -/
theorem LowerCase.infix_append_iff (hlower : LowerCase s t) (h : Plain word) (front : List Char) :
    word <:+: front ++ t ↔ word <:+: front ++ lowered s := by
  -- What is read already is moved to the front, up to a character that no plain word has.
  induction hlower generalizing front with
  | nil => rfl
  | @cons c piece s t hpiece _ ih =>
    rw [show lowered (c :: s) = c.toLower :: lowered s from rfl]
    cases hpiece with
    | ascii => simpa using ih (front ++ [c.toLower])
    | kelvin =>
      have hrest := ih []
      rw [List.singleton_append, infix_append_cons_iff h.no_k, toLower_of_not_ascii (by decide),
        infix_append_cons_iff (h.not_mem (by decide))]
      exact or_congr_right hrest
    | dotted =>
      have hrest := ih []
      rw [show front ++ (['i', '\u0307'] ++ t) = (front ++ ['i']) ++ '\u0307' :: t by simp,
        infix_append_cons_iff (h.not_mem (by decide)), h.infix_concat_i_iff,
        toLower_of_not_ascii (by decide), infix_append_cons_iff (h.not_mem (by decide))]
      exact or_congr_right hrest
    | other hc _ _ hds =>
      have hrest := ih []
      rw [h.infix_over_iff hds, toLower_of_not_ascii hc, infix_append_cons_iff (h.not_mem hc)]
      exact or_congr_right hrest

/-- **Lowering A to Z is enough** to find a plain word in any case of its letters. -/
theorem infix_lowerCase_iff (hlower : LowerCase s t) (h : Plain word) :
    word <:+: t ↔ occurs word (lowered s) := by
  rw [occurs_iff]
  simpa using hlower.infix_append_iff h []

end SecurityKey.Text
