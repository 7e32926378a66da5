import Mathlib.Tactic.Common
import SecurityKey.Diagnosis
import SecurityKey.Proofs.Text.Search
/-!
# What a text reports

A text can hold marks of several kinds of errors. The kinds have an order (`ErrorKind.rank`), which
is that of the table of marks, so the first mark of the table that a text holds is one of the kind
that tells most. What a text reports is therefore said without the table's order: it is the first
in rank of the kinds that it signals (`kindOf?_eq_some_iff`), and nothing if it signals none
(`kindOf?_eq_none_iff`).

The mark of a refused PIN is the first of all, so a text that holds it reports a refusal, whatever
else stands in it (`classify?_of_policyMark`).
-/

namespace SecurityKey

namespace ErrorKind

/-- A kind of error, whatever minimum length is known. -/
def withoutMinLength : ErrorKind → ErrorKind
  | .policyViolation _ => .policyViolation none
  | kind => kind

/-- The place of a kind in the order of what tells most. A refused PIN comes first, and an unknown
error last. -/
def rank : ErrorKind → Nat
  | .policyViolation _ => 0
  | .pinAuthBlocked => 1
  | .invalidPin => 2
  | .pinRequired => 3
  | .legacyDevice => 4
  | .internalDeviceError => 5
  | .unknown => 6

variable {kind other : ErrorKind}

@[simp] theorem rank_withoutMinLength : kind.withoutMinLength.rank = kind.rank := by
  cases kind <;> rfl

/-- Kinds of one rank differ in no more than the minimum length. -/
theorem rank_eq_iff : kind.rank = other.rank ↔ kind.withoutMinLength = other.withoutMinLength := by
  cases kind <;> cases other <;> simp [rank, withoutMinLength]

theorem withoutMinLength_eq_unknown : kind.withoutMinLength = .unknown ↔ kind = .unknown := by
  cases kind <;> simp [withoutMinLength]

theorem rank_le_unknown : kind.rank ≤ unknown.rank := by
  cases kind <;> simp [rank]

end ErrorKind

namespace DeviceError

open Text

variable {kind other : ErrorKind} {text : List Char}

/-! ## What a text signals -/

/-- A text holds one of the known marks. -/
def Marked (text : List Char) : Prop :=
  ∃ entry ∈ marks, entry.1.toList <:+: text

/-- A text signals a kind of error if it holds a mark of it, and an unknown error if it speaks of an
error at all. -/
inductive Signals (text : List Char) : ErrorKind → Prop
  | marked {mark : String} {kind : ErrorKind} :
      (mark, kind) ∈ marks → mark.toList <:+: text → Signals text kind
  | mentioned : mentionsError text → Signals text .unknown

theorem marks_sorted : marks.Pairwise fun first second => first.2.rank ≤ second.2.rank := by
  decide

theorem withoutMinLength_of_mem_marks :
    ∀ entry ∈ marks, entry.2.withoutMinLength = entry.2 := by
  decide

theorem rank_lt_of_mem_marks : ∀ entry ∈ marks, entry.2.rank < ErrorKind.unknown.rank := by
  decide

/-- Whatever a text signals but an unknown error, it has a mark of. -/
theorem Signals.marked_of_ne_unknown (h : Signals text kind) (hne : kind ≠ .unknown) :
    Marked text := by
  cases h with
  | marked hmem hin => exact ⟨_, hmem, hin⟩
  | mentioned _ => exact absurd rfl hne

theorem Signals.withoutMinLength (h : Signals text kind) : kind.withoutMinLength = kind := by
  cases h with
  | marked hmem _ => exact withoutMinLength_of_mem_marks _ hmem
  | mentioned _ => rfl

/-! ## What it reports -/

/-- The first mark of the table that a text holds is of a kind that no other mark in it precedes. -/
theorem knownKind?_eq_some (h : knownKind? text = some kind) :
    Signals text kind ∧ ∀ entry ∈ marks, entry.1.toList <:+: text → kind.rank ≤ entry.2.rank := by
  obtain ⟨⟨mark, found⟩, hfind, rfl⟩ := Option.map_eq_some_iff.1 h
  obtain ⟨hholds, before, behind, hmarks, hbefore⟩ := List.find?_eq_some_iff_append.1 hfind
  have hmem : (mark, found) ∈ marks := hmarks ▸ List.mem_append_right _ List.mem_cons_self
  refine ⟨.marked hmem (occurs_iff.1 hholds), fun entry hentry hin => ?_⟩
  rw [hmarks] at hentry
  rcases List.mem_append.1 hentry with hentry | hentry
  · have := hbefore entry hentry
    simp [occurs_iff.2 hin] at this
  · have hsorted := hmarks ▸ marks_sorted
    rcases List.mem_cons.1 hentry with rfl | hentry
    · exact Nat.le_refl _
    · exact List.rel_of_pairwise_cons (List.pairwise_append.1 hsorted).2.1 hentry

theorem knownKind?_eq_none_iff : knownKind? text = none ↔ ¬ Marked text := by
  simp [knownKind?, Marked, occurs_iff]

/-- A text reports nothing exactly if it signals nothing. -/
theorem kindOf?_eq_none_iff : kindOf? text = none ↔ ∀ kind, ¬ Signals text kind := by
  rw [kindOf?, Option.or_eq_none_iff, knownKind?_eq_none_iff]
  constructor
  · rintro ⟨hmarks, hmention⟩ kind hsignals
    cases hsignals with
    | marked hmem hin => exact hmarks ⟨_, hmem, hin⟩
    | mentioned hmentions => simp [hmentions] at hmention
  · intro hnone
    refine ⟨fun ⟨entry, hmem, hin⟩ => hnone entry.2 (.marked hmem hin), ?_⟩
    by_cases hmentions : mentionsError text
    · exact absurd (.mentioned hmentions) (hnone .unknown)
    · simp [hmentions]

/-- What a text reports is a kind that it signals, and none that it signals comes before it. -/
theorem kindOf?_least (h : kindOf? text = some kind) :
    Signals text kind ∧ ∀ other, Signals text other → kind.rank ≤ other.rank := by
  rw [kindOf?, Option.or_eq_some_iff] at h
  rcases h with hknown | ⟨hnone, hmention⟩
  · obtain ⟨hsignals, hleast⟩ := knownKind?_eq_some hknown
    refine ⟨hsignals, fun other hother => ?_⟩
    cases hother with
    | marked hmem hin => exact hleast _ hmem hin
    | mentioned _ => exact ErrorKind.rank_le_unknown
  · obtain ⟨hmentions, rfl⟩ : mentionsError text ∧ ErrorKind.unknown = kind := by
      simpa using hmention
    refine ⟨.mentioned hmentions, fun other hother => ?_⟩
    cases hother with
    | marked hmem hin => exact absurd ⟨_, hmem, hin⟩ (knownKind?_eq_none_iff.1 hnone)
    | mentioned _ => exact Nat.le_refl _

/-- **What a text reports** is the first in rank of all kinds that it signals. -/
theorem kindOf?_eq_some_iff : kindOf? text = some kind ↔
    Signals text kind ∧ ∀ other, Signals text other → kind.rank ≤ other.rank := by
  constructor
  · exact kindOf?_least
  · rintro ⟨hsignals, hleast⟩
    cases hreported : kindOf? text with
    | none => exact absurd hsignals (kindOf?_eq_none_iff.1 hreported kind)
    | some reported =>
      obtain ⟨hreports, hfirst⟩ := kindOf?_least hreported
      have hrank : reported.rank = kind.rank :=
        Nat.le_antisymm (hfirst kind hsignals) (hleast reported hreports)
      have hsame := ErrorKind.rank_eq_iff.1 hrank
      rw [hreports.withoutMinLength, hsignals.withoutMinLength] at hsame
      rw [hsame]

/-! ## The error in a text -/

variable {error : DeviceError} {output : String}

/-- An error, whatever minimum length is known. -/
def withoutMinLength (error : DeviceError) : DeviceError :=
  { error with kind := error.kind.withoutMinLength }

/-- The kind of the error in a text. One that reports nothing is of no known kind. -/
def reportedKind (output : String) : ErrorKind :=
  ((classify? output).map DeviceError.kind).getD .unknown

/-- Nothing but the minimum length changes. -/
@[simp] theorem withoutMinLength_withMinLength (minLength : Option Nat) :
    (error.withMinLength minLength).withoutMinLength = error.withoutMinLength := by
  rw [withMinLength]
  split
  · next h => simp [withoutMinLength, ErrorKind.withoutMinLength, h]
  · rfl

theorem classify?_eq_none_iff : classify? output = none ↔ kindOf? output.toList = none := by
  simp [classify?]

/-- The error in a text is of the kind that the text reports, and has the text without the blanks
around it. -/
theorem classify?_eq_some (h : classify? output = some error) :
    kindOf? output.toList = some error.kind.withoutMinLength ∧ error.raw = trimmed output := by
  obtain ⟨kind, hkind, rfl⟩ := Option.map_eq_some_iff.1 h
  have hplain : kind.withoutMinLength = kind := (kindOf?_least hkind).1.withoutMinLength
  set bare : DeviceError := ⟨kind, trimmed output⟩
  have hsame : (bare.withMinLength (PinPolicy.minLength? output)).withoutMinLength = bare := by
    rw [withoutMinLength_withMinLength, withoutMinLength, hplain]
  rw [withoutMinLength, DeviceError.mk.injEq] at hsame
  exact ⟨hkind.trans (congrArg some hsame.1.symm), hsame.2⟩

/-- A text that signals a kind of error reports one that does not come later. -/
theorem Signals.reported (h : Signals output.toList kind) :
    ∃ error, classify? output = some error ∧ error.kind.rank ≤ kind.rank := by
  cases hclassified : classify? output with
  | none =>
    exact absurd h (kindOf?_eq_none_iff.1 (classify?_eq_none_iff.1 hclassified) kind)
  | some error =>
    have hleast := (kindOf?_least (classify?_eq_some hclassified).1).2 kind h
    rw [ErrorKind.rank_withoutMinLength] at hleast
    exact ⟨error, rfl, hleast⟩

/-- What a text reports, it signals. -/
theorem signals_of_classify? (h : classify? output = some error) :
    Signals output.toList error.kind.withoutMinLength :=
  (kindOf?_least (classify?_eq_some h).1).1

/-- A text with a known mark reports a known kind of error, and no other text does. -/
theorem known_iff_marked :
    (∃ error, classify? output = some error ∧ error.kind ≠ .unknown) ↔ Marked output.toList := by
  constructor
  · rintro ⟨error, herror, hknown⟩
    have hplain : error.kind.withoutMinLength ≠ .unknown := by
      simpa [ErrorKind.withoutMinLength_eq_unknown] using hknown
    exact (signals_of_classify? herror).marked_of_ne_unknown hplain
  · rintro ⟨⟨mark, kind⟩, hmem, hin⟩
    obtain ⟨error, herror, hle⟩ := (Signals.marked hmem hin).reported
    refine ⟨error, herror, fun hunknown => ?_⟩
    have hlt : kind.rank < ErrorKind.unknown.rank := rank_lt_of_mem_marks _ hmem
    rw [hunknown] at hle
    omega

/-- To report a failure is to report the error in its text, or else an unknown one. -/
theorem ofFailure_eq (output : String) :
    ofFailure output = ⟨reportedKind output, trimmed output⟩ := by
  rw [ofFailure, reportedKind]
  cases h : classify? output with
  | none => rfl
  | some error =>
    obtain ⟨kind, raw⟩ := error
    simpa using (classify?_eq_some h).2

/-- A text that holds the mark of a refused PIN reports a refusal. -/
theorem classify?_of_policyMark {text : String} (h : policyMark.toList <:+: text.toList) :
    ∃ minLength, classify? text = some ⟨.policyViolation minLength, trimmed text⟩ := by
  have hoccurs : occurs policyMark.toList text.toList = true := occurs_iff.2 h
  have hknown : knownKind? text.toList = some (.policyViolation none) :=
    congrArg (Option.map Prod.snd) (List.find?_cons_of_pos hoccurs)
  have hkind : kindOf? text.toList = some (.policyViolation none) := by
    rw [kindOf?, hknown]
    rfl
  rw [classify?, hkind]
  exact ⟨_, rfl⟩

end DeviceError

end SecurityKey
