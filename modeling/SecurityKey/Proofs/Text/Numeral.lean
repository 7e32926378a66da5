import Mathlib.Algebra.Group.Int.Defs
import Mathlib.Data.List.Induction
import Mathlib.Tactic.Common
import SecurityKey.Text.Numeral
/-!
# What numerals denote

A numeral denotes a number: its last digit counts for itself, and the digits before it ten times
what they denote by themselves (`Denotes`). Behind at most one sign it denotes an integer
(`DenotesInt`).

The readers read just that, with any number of leading zeros (`readNat?_eq_some_iff`), and a reader
with bounds gives what is denoted if it is within them, and nothing if it is not
(`readInt64?_eq_some_iff`). What a number is printed as denotes it (`denotes_toDigits`).
-/

namespace SecurityKey.Text

variable {s : List Char} {n : Nat}

/-- What a run of digits denotes. -/
inductive Denotes : List Char → Nat → Prop
  | digit {c : Char} : c.isDigit → Denotes [c] (c.toNat - '0'.toNat)
  | concat {s : List Char} {n : Nat} {c : Char} : Denotes s n → c.isDigit →
      Denotes (s ++ [c]) (10 * n + (c.toNat - '0'.toNat))

/-- What a run of digits with at most one sign before it denotes. -/
inductive DenotesInt : List Char → Int → Prop
  | unsigned {s : List Char} {n : Nat} : Denotes s n → DenotesInt s n
  | plus {s : List Char} {n : Nat} : Denotes s n → DenotesInt ('+' :: s) n
  | minus {s : List Char} {n : Nat} : Denotes s n → DenotesInt ('-' :: s) (-n)

theorem Denotes.isDigit (h : Denotes s n) : ∀ c ∈ s, c.isDigit := by
  induction h with
  | digit hc => exact List.forall_mem_singleton.2 hc
  | concat _ hc ih => exact List.forall_mem_append.2 ⟨ih, List.forall_mem_singleton.2 hc⟩

theorem valueOfDigits_concat (s : List Char) (c : Char) :
    valueOfDigits (s ++ [c]) = 10 * valueOfDigits s + (c.toNat - '0'.toNat) := by
  rw [valueOfDigits, List.foldl_append]
  rfl

theorem denotes_valueOfDigits (hne : s ≠ []) (hdigits : ∀ c ∈ s, c.isDigit) :
    Denotes s (valueOfDigits s) := by
  induction s using List.reverseRecOn with
  | nil => exact absurd rfl hne
  | append_singleton s c ih =>
    obtain ⟨hs, hc⟩ := List.forall_mem_append.1 hdigits
    have hc := List.forall_mem_singleton.1 hc
    by_cases hnil : s = []
    · subst hnil
      have hvalue : valueOfDigits [c] = c.toNat - '0'.toNat := by simp [valueOfDigits]
      rw [List.nil_append, hvalue]
      exact .digit hc
    · rw [valueOfDigits_concat]
      exact .concat (ih hnil hs) hc

theorem Denotes.valueOfDigits_eq (h : Denotes s n) : valueOfDigits s = n := by
  induction h with
  | digit hc => simp [valueOfDigits]
  | concat _ _ ih => rw [valueOfDigits_concat, ih]

theorem Denotes.ne_nil (h : Denotes s n) : s ≠ [] := by
  cases h <;> simp

/-- A text is read as a number exactly if it is a numeral of it. -/
theorem readNat?_eq_some_iff : readNat? s = some n ↔ Denotes s n := by
  rw [readNat?]
  constructor
  · intro h
    split_ifs at h with hrefused
    obtain ⟨hne, hdigits⟩ : s ≠ [] ∧ ∀ c ∈ s, c.isDigit := by simpa using hrefused
    obtain rfl := Option.some.inj h
    exact denotes_valueOfDigits hne hdigits
  · intro h
    rw [if_neg (by simpa using ⟨h.ne_nil, h.isDigit⟩), h.valueOfDigits_eq]

/-- The decimal numeral of a number denotes it. -/
theorem denotes_toDigits (n : Nat) : Denotes (Nat.toDigits 10 n) n := by
  have hne : Nat.toDigits 10 n ≠ [] := by
    rw [Nat.toDigits_eq_if (by decide)]
    split_ifs <;> simp
  have hdigits : ∀ c ∈ Nat.toDigits 10 n, c.isDigit := fun c =>
    Nat.isDigit_of_mem_toDigits (by decide) (by decide)
  have hvalue : valueOfDigits (Nat.toDigits 10 n) = n :=
    Nat.ofDigitChars_toDigits (by decide) (by decide)
  simpa [hvalue] using denotes_valueOfDigits hne hdigits

/-- A sign is no digit. -/
theorem not_denotes_cons {c : Char} (hc : c.isDigit = false) : ¬ Denotes (c :: s) n := by
  intro h
  simp [h.isDigit c List.mem_cons_self] at hc

theorem denotesInt_plus {i : Int} : DenotesInt ('+' :: s) i ↔ ∃ n : Nat, Denotes s n ∧ i = n := by
  constructor
  · intro h
    cases h with
    | unsigned h => exact absurd h (not_denotes_cons rfl)
    | plus h => exact ⟨_, h, rfl⟩
  · rintro ⟨n, h, rfl⟩
    exact .plus h

theorem denotesInt_minus {i : Int} :
    DenotesInt ('-' :: s) i ↔ ∃ n : Nat, Denotes s n ∧ i = -n := by
  constructor
  · intro h
    cases h with
    | unsigned h => exact absurd h (not_denotes_cons rfl)
    | minus h => exact ⟨_, h, rfl⟩
  · rintro ⟨n, h, rfl⟩
    exact .minus h

theorem denotesInt_unsigned {i : Int} (hplus : s.head? ≠ some '+') (hminus : s.head? ≠ some '-') :
    DenotesInt s i ↔ ∃ n : Nat, Denotes s n ∧ i = n := by
  constructor
  · intro h
    cases h with
    | unsigned h => exact ⟨_, h, rfl⟩
    | plus h => exact absurd rfl hplus
    | minus h => exact absurd rfl hminus
  · rintro ⟨n, h, rfl⟩
    exact .unsigned h

/-- A text is read as a number of 64 bits exactly if it denotes one. -/
theorem readInt64?_eq_some_iff {i : Int} :
    readInt64? s = some i ↔ DenotesInt s i ∧ -2 ^ 63 ≤ i ∧ i ≤ 2 ^ 63 - 1 := by
  have hmin : Int64.minValue.toInt = -2 ^ 63 := by decide
  have hmax : Int64.maxValue.toInt = 2 ^ 63 - 1 := by decide
  rw [readInt64?.eq_def, Option.filter_eq_some_iff, hmin, hmax, Bool.and_eq_true, decide_eq_true_eq,
    decide_eq_true_eq]
  refine and_congr_left fun _ => ?_
  split
  · next digits =>
    rw [denotesInt_minus]
    cases hread : readNat? digits with
    | none => simp [← readNat?_eq_some_iff, hread]
    | some n => simp [← readNat?_eq_some_iff, hread, eq_comm]
  · next digits =>
    rw [denotesInt_plus, Option.map_eq_some_iff]
    exact exists_congr fun n => and_congr readNat?_eq_some_iff eq_comm
  · next hminus hplus =>
    have hhead : ∀ c, (∀ rest, s ≠ c :: rest) → s.head? ≠ some c := by
      intro c hne hhead
      obtain ⟨rest, hrest⟩ := List.head?_eq_some_iff.1 hhead
      exact hne rest hrest
    rw [denotesInt_unsigned (hhead '+' hplus) (hhead '-' hminus), Option.map_eq_some_iff]
    exact exists_congr fun n => and_congr readNat?_eq_some_iff eq_comm

/-- A text denotes one integer at most. -/
theorem DenotesInt.unique {i j : Int} (h : DenotesInt s i) (h' : DenotesInt s j) : i = j := by
  cases h with
  | unsigned h =>
    cases h' with
    | unsigned h' => rw [← h.valueOfDigits_eq, ← h'.valueOfDigits_eq]
    | plus _ => exact absurd h (not_denotes_cons rfl)
    | minus _ => exact absurd h (not_denotes_cons rfl)
  | plus h =>
    obtain ⟨m, hm, rfl⟩ := denotesInt_plus.1 h'
    rw [← h.valueOfDigits_eq, ← hm.valueOfDigits_eq]
  | minus h =>
    obtain ⟨m, hm, rfl⟩ := denotesInt_minus.1 h'
    rw [← h.valueOfDigits_eq, ← hm.valueOfDigits_eq]

end SecurityKey.Text
