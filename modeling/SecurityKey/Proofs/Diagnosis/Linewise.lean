import Mathlib.Tactic.Common
import SecurityKey.Proofs.Diagnosis
import SecurityKey.Proofs.Text.Lines
/-!
# Errors are reported line by line

No mark reaches over a newline, and to lower the letters of a text moves no newline. So a text
signals a kind of error exactly if one of its lines does (`signals_iff_line`), and what the text
reports is the first in rank of what its lines report.

A text with more lines, in any order and any number, signals no less. So it reports an error where
the other one does, and none that comes later in rank.

Main statement: `classify?_linewise`.
-/

namespace SecurityKey.DeviceError

open Text

variable {kind : ErrorKind} {text : List Char}

theorem newline_not_mem_marks : ∀ entry ∈ marks, '\n' ∉ entry.1.toList := by
  decide

/-! ## What lines signal -/

/-- More text around a text signals no less. -/
theorem Signals.of_infix {whole : List Char} (h : Signals text kind) (hin : text <:+: whole) :
    Signals whole kind := by
  cases h with
  | marked hmem hmark => exact .marked hmem (hmark.trans hin)
  | mentioned hmentions =>
    have hlowered : lowered text <:+: lowered whole := hin.map Char.toLower
    refine .mentioned ?_
    simp only [mentionsError, Bool.or_eq_true, occurs_iff] at hmentions ⊢
    exact hmentions.imp (·.trans hin) (·.trans hlowered)

/-- Whether a text speaks of an error at all is seen on one side of a newline. -/
theorem mentionsError_append_newline {s t : List Char} (h : mentionsError (s ++ '\n' :: t)) :
    mentionsError s ∨ mentionsError t := by
  have hlowered : lowered (s ++ '\n' :: t) = lowered s ++ '\n' :: lowered t := by
    simp [lowered]
  simp only [mentionsError, Bool.or_eq_true, occurs_iff, hlowered] at h ⊢
  rw [infix_append_cons_iff (by decide), infix_append_cons_iff (by decide)] at h
  exact or_or_or_comm.1 h

theorem signals_append_newline (s t : List Char) :
    Signals (s ++ '\n' :: t) kind ↔ Signals s kind ∨ Signals t kind := by
  constructor
  · intro h
    cases h with
    | marked hmem hin =>
      have hmark := newline_not_mem_marks _ hmem
      exact ((infix_append_cons_iff hmark).1 hin).imp (.marked hmem) (.marked hmem)
    | mentioned hmentions =>
      exact (mentionsError_append_newline hmentions).imp .mentioned .mentioned
  · rintro (hs | ht)
    · exact hs.of_infix (List.prefix_append s _).isInfix
    · exact ht.of_infix ((List.suffix_cons _ t).trans (List.suffix_append s _)).isInfix

/-- A text signals what one of its lines signals, and nothing else. -/
theorem signals_iff_line : Signals text kind ↔ ∃ line ∈ text.splitOn '\n', Signals line kind :=
  exists_line_iff (P := (Signals · kind)) signals_append_newline text

/-! ## What lines report -/

variable {output other : String} {error found : DeviceError} {line : List Char}

/-- A text reports what one of its lines reports, or an error that comes earlier in rank. -/
theorem classify?_of_line (hmem : line ∈ output.toList.splitOn '\n')
    (h : classify? (String.ofList line) = some found) :
    ∃ error, classify? output = some error ∧ error.kind.rank ≤ found.kind.rank := by
  have hsignals := signals_of_classify? h
  rw [String.toList_ofList] at hsignals
  simpa using (signals_iff_line.2 ⟨line, hmem, hsignals⟩).reported

/-- One of the lines of a text reports what the text reports, or an error that comes earlier. -/
theorem line_of_classify? (h : classify? output = some error) :
    ∃ line ∈ output.toList.splitOn '\n', ∃ found,
      classify? (String.ofList line) = some found ∧ found.kind.rank ≤ error.kind.rank := by
  obtain ⟨line, hmem, hsignals⟩ := signals_iff_line.1 (signals_of_classify? h)
  rw [← String.toList_ofList (l := line)] at hsignals
  exact ⟨line, hmem, by simpa using hsignals.reported⟩

/-- **Errors are reported line by line.** A text reports no error exactly if none of its lines does.
If it reports one, then one of the lines reports an error of the same kind, whatever minimum length
is known, and no line reports one that comes earlier in rank. Any text that has all these lines,
in whatever order and number and with whatever others between them, reports an error too, and none
that comes later in rank. -/
theorem classify?_linewise (output : String) :
    (classify? output = none ↔
      ∀ line ∈ output.toList.splitOn '\n', classify? (String.ofList line) = none) ∧
    (∀ error, classify? output = some error →
      (∃ line ∈ output.toList.splitOn '\n', ∃ found, classify? (String.ofList line) = some found ∧
        found.kind.withoutMinLength = error.kind.withoutMinLength) ∧
      ∀ line ∈ output.toList.splitOn '\n', ∀ found, classify? (String.ofList line) = some found →
        error.kind.rank ≤ found.kind.rank) ∧
    ∀ other : String, output.toList.splitOn '\n' ⊆ other.toList.splitOn '\n' →
      ∀ error, classify? output = some error →
        ∃ found, classify? other = some found ∧ found.kind.rank ≤ error.kind.rank := by
  refine ⟨?_, ?_, ?_⟩
  · constructor
    · intro hnone line hmem
      refine Option.eq_none_iff_forall_ne_some.2 fun found hfound => ?_
      obtain ⟨error, herror, _⟩ := classify?_of_line hmem hfound
      simp [hnone] at herror
    · intro hlines
      refine Option.eq_none_iff_forall_ne_some.2 fun error herror => ?_
      obtain ⟨line, hmem, found, hfound, _⟩ := line_of_classify? herror
      simp [hlines line hmem] at hfound
  · intro error herror
    have hleast : ∀ line ∈ output.toList.splitOn '\n', ∀ found,
        classify? (String.ofList line) = some found → error.kind.rank ≤ found.kind.rank := by
      intro line hmem found hfound
      obtain ⟨same, hsame, hle⟩ := classify?_of_line hmem hfound
      obtain rfl : error = same := by simpa [herror] using hsame
      exact hle
    refine ⟨?_, hleast⟩
    -- A line that reports nothing later than the text reports nothing earlier either.
    obtain ⟨line, hmem, found, hfound, hle⟩ := line_of_classify? herror
    have hrank : found.kind.rank = error.kind.rank :=
      Nat.le_antisymm hle (hleast line hmem found hfound)
    exact ⟨line, hmem, found, hfound, ErrorKind.rank_eq_iff.1 hrank⟩
  · intro other hlines error herror
    obtain ⟨line, hmem, found, hfound, hle⟩ := line_of_classify? herror
    obtain ⟨earlier, hearlier, hle'⟩ := classify?_of_line (hlines hmem) hfound
    exact ⟨earlier, hearlier, Nat.le_trans hle' hle⟩

/-- Three lines with an error each, the one that tells most in the last of them. -/
def threeErrors : String := "error: x\nFIDO_ERR_INTERNAL\nFIDO_ERR_PIN_INVALID"

/-- The same lines turned around, with two more. -/
def turnedErrors : String :=
  "FIDO_ERR_PIN_INVALID\nok\nFIDO_ERR_INTERNAL\nerror: x\n"

theorem classify?_linewise_threeErrors :
    classify? threeErrors = some ⟨.invalidPin, threeErrors⟩ ∧
      threeErrors.toList.splitOn '\n' ⊆ turnedErrors.toList.splitOn '\n' ∧
      (∀ line ∈ threeErrors.toList.splitOn '\n', ∀ found,
        classify? (String.ofList line) = some found → 2 ≤ found.kind.rank) ∧
      ∃ found, classify? turnedErrors = some found ∧ found.kind.rank ≤ 2 := by
  have herror : classify? threeErrors = some ⟨.invalidPin, threeErrors⟩ := by decide
  have hlines : threeErrors.toList.splitOn '\n' ⊆ turnedErrors.toList.splitOn '\n' := by decide
  obtain ⟨_, hkind, hmore⟩ := classify?_linewise threeErrors
  exact ⟨herror, hlines, (hkind _ herror).2, hmore turnedErrors hlines _ herror⟩

end SecurityKey.DeviceError
