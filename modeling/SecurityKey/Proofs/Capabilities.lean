import Mathlib.Tactic.Common
import SecurityKey.Capabilities
import SecurityKey.Proofs.Attributes
import SecurityKey.Proofs.Text.Case
import SecurityKey.Proofs.Text.Numeral
/-!
# What a device can do, by its reports

Two of the three actions go by counts. A name counts if its last row has a value that denotes an
integer above zero in 64 bits (`Counts`), so a numeral beyond that counts for nothing, whatever its
length. The third goes by a word that stands anywhere in the rows.

One more report can change what goes by counts only with a row of a name that is counted, since the
last row of any other name stays the last (`get?_extend_of_unnamed`). It never takes the word away.

Main statement: `ofAttributes_of_reports`.
-/

namespace SecurityKey

open Text

namespace Attributes

variable {attributes : Attributes} {name value : String} {texts : List String}

/-! ## Reports one after the other -/

/-- Attributes with the rows of some more reports, one after the other. -/
def extendAll (attributes : Attributes) (texts : List String) : Attributes :=
  texts.foldl extend attributes

theorem rows_extendAll (attributes : Attributes) (texts : List String) :
    (attributes.extendAll texts).rows =
      attributes.rows ++ texts.flatMap fun text => (ofReport text).rows := by
  induction texts generalizing attributes with
  | nil => simp [extendAll]
  | cons text texts ih =>
    have hcons : attributes.extendAll (text :: texts) = (attributes.extend text).extendAll texts :=
      rfl
    rw [hcons, ih, extend, List.flatMap_cons, List.append_assoc]

/-- A report without a name leaves what was seen of it. -/
theorem get?_extend_of_unnamed {text : String}
    (h : ∀ row ∈ (ofReport text).rows, row.name ≠ name) :
    (attributes.extend text).get? name = attributes.get? name := by
  rw [get?_extend, get?_eq_none_iff.2 h, Option.none_or]

/-! ## Counts -/

/-- A value denotes an integer above zero in 64 bits, with blanks around it or not. -/
def IsCount (value : String) : Prop :=
  ∃ i, DenotesInt (trim value.toList) i ∧ 1 ≤ i ∧ i ≤ 2 ^ 63 - 1

/-- The last row of a name has a count. -/
def Counts (rows : List Attribute) (name : String) : Prop :=
  ∃ value, Latest rows name value ∧ IsCount value

theorem IsCount.of_denotes {i : Int} (hdenotes : DenotesInt (trim value.toList) i)
    (h : IsCount value) : 1 ≤ i ∧ i ≤ 2 ^ 63 - 1 := by
  obtain ⟨j, hj, hbounds⟩ := h
  rwa [hdenotes.unique hj]

end Attributes

namespace Capabilities

open Attributes

variable {attributes : Attributes} {name value : String}

theorem positive_iff : positive attributes name ↔ Counts attributes.rows name := by
  rw [positive, count?]
  constructor
  · intro h
    split at h
    · next i hcount =>
      obtain ⟨value, hget, hread⟩ := Option.bind_eq_some_iff.1 hcount
      obtain ⟨hdenotes, -, hmost⟩ := readInt64?_eq_some_iff.1 hread
      have hpositive : 0 < i := by simpa using h
      exact ⟨value, get?_eq_some_iff.1 hget, i, hdenotes, hpositive, hmost⟩
    · cases h
  · rintro ⟨value, hlatest, i, hdenotes, hleast, hmost⟩
    have hread : countOf? value = some i :=
      readInt64?_eq_some_iff.2 ⟨hdenotes, by omega, hmost⟩
    have hpositive : 0 < i := hleast
    rw [get?_eq_some_iff.2 hlatest, Option.bind_some, hread]
    simpa using hpositive

theorem positive_congr {other : Attributes} (h : attributes.get? name = other.get? name) :
    positive attributes name = positive other name := by
  rw [positive, positive, count?, count?, h]

/-- A text has the word, in any way to put it in lower case, exactly if it is found to have it. -/
theorem mentionsFingerprint_iff (low : Lowering) (text : String) :
    mentionsFingerprint text ↔ "fingerprint".toList <:+: low.apply text.toList :=
  (infix_lowerCase_iff (low.lowers text.toList) (by decide)).symm

/-- Room for passkeys goes before PIN attempts, if it is told of at all. -/
theorem changePin_iff : (ofAttributes attributes).changePin ↔
    Counts attributes.rows "remaining rk(s)" ∨
      (∀ row ∈ attributes.rows, row.name ≠ "remaining rk(s)") ∧
        Counts attributes.rows "pin retries" := by
  rw [ofAttributes]
  cases hroom : attributes.get? "remaining rk(s)" with
  | some value =>
    have hnamed : ¬ ∀ row ∈ attributes.rows, row.name ≠ "remaining rk(s)" := by
      rw [← get?_eq_none_iff, hroom]
      exact Option.some_ne_none value
    simp [positive_iff, hnamed]
  | none =>
    have hunnamed := get?_eq_none_iff.1 hroom
    have hnone : ¬ Counts attributes.rows "remaining rk(s)" := by
      rintro ⟨value, hlatest, -⟩
      rw [← get?_eq_some_iff, hroom] at hlatest
      cases hlatest
    simpa [positive_iff, hnone] using fun _ => hunnamed

theorem fingerprints_iff (low : Lowering) : (ofAttributes attributes).fingerprints ↔
    ∃ row ∈ attributes.rows, "fingerprint".toList <:+: low.apply row.name.toList ∨
      "fingerprint".toList <:+: low.apply row.value.toList := by
  simp only [← mentionsFingerprint_iff]
  simp [ofAttributes]

/-! ## All three -/

/-- What some attributes allow after more reports, with a way to put texts in lower case. -/
structure Reported (low : Lowering) (attributes : Attributes) (texts : List String) : Prop where
  /-- The rows of all reports are there, in order, behind those that were there before. -/
  rows : (attributes.extendAll texts).rows =
    attributes.rows ++ texts.flatMap fun text => (ofReport text).rows
  /-- Each report has one row for each of its lines that is not blank, as the line shows it. -/
  shown : ∀ text ∈ texts, List.Forall₂ Attribute.Shows
    ((lines text.toList).filter (·.any (!isBlank ·))) (ofReport text).rows
  passkeys : (ofAttributes (attributes.extendAll texts)).passkeys ↔
    Counts (attributes.extendAll texts).rows "existing rk(s)"
  changePin : (ofAttributes (attributes.extendAll texts)).changePin ↔
    Counts (attributes.extendAll texts).rows "remaining rk(s)" ∨
      (∀ row ∈ (attributes.extendAll texts).rows, row.name ≠ "remaining rk(s)") ∧
        Counts (attributes.extendAll texts).rows "pin retries"
  fingerprints : (ofAttributes (attributes.extendAll texts)).fingerprints ↔
    ∃ row ∈ (attributes.extendAll texts).rows,
      "fingerprint".toList <:+: low.apply row.name.toList ∨
        "fingerprint".toList <:+: low.apply row.value.toList
  /-- A value beyond 64 bits, or not above zero, is none of the counts. -/
  bounded : ∀ value i, DenotesInt (trim value.toList) i → i < 1 ∨ 2 ^ 63 ≤ i → ¬ IsCount value
  /-- One more report does not take fingerprints away. -/
  fingerprints_kept : ∀ text, (ofAttributes (attributes.extendAll texts)).fingerprints →
    (ofAttributes ((attributes.extendAll texts).extend text)).fingerprints
  /-- It changes the others only with a row of the names that they go by. -/
  passkeys_changed : ∀ text, (ofAttributes ((attributes.extendAll texts).extend text)).passkeys ≠
      (ofAttributes (attributes.extendAll texts)).passkeys →
    ∃ row ∈ (ofReport text).rows, row.name = "existing rk(s)"
  changePin_changed : ∀ text, (ofAttributes ((attributes.extendAll texts).extend text)).changePin ≠
      (ofAttributes (attributes.extendAll texts)).changePin →
    ∃ row ∈ (ofReport text).rows, row.name = "remaining rk(s)" ∨ row.name = "pin retries"

/-- **The actions follow from the texts of the reports**, however many there are: two from the last
rows of three names, the third from all rows. -/
theorem ofAttributes_of_reports (low : Lowering) (attributes : Attributes) (texts : List String) :
    Reported low attributes texts where
  rows := rows_extendAll attributes texts
  shown text _ := forall₂_shows text
  passkeys := positive_iff
  changePin := changePin_iff
  fingerprints := fingerprints_iff low
  bounded := by
    intro value i hdenotes hbeyond hcount
    have := hcount.of_denotes hdenotes
    omega
  fingerprints_kept := by
    intro text h
    rw [fingerprints_iff low] at h ⊢
    obtain ⟨row, hrow, hword⟩ := h
    exact ⟨row, List.mem_append_left _ hrow, hword⟩
  passkeys_changed := by
    intro text hchanged
    by_contra hnone
    push Not at hnone
    exact hchanged (positive_congr (get?_extend_of_unnamed hnone))
  changePin_changed := by
    intro text hchanged
    by_contra hnone
    push Not at hnone
    set before : Attributes := attributes.extendAll texts with hbefore
    have hroom : (before.extend text).get? "remaining rk(s)" = before.get? "remaining rk(s)" :=
      get?_extend_of_unnamed fun row hrow => (hnone row hrow).1
    have hretries : (before.extend text).get? "pin retries" = before.get? "pin retries" :=
      get?_extend_of_unnamed fun row hrow => (hnone row hrow).2
    refine hchanged ?_
    simp only [ofAttributes, hroom, positive_congr hroom, positive_congr hretries]

end Capabilities

end SecurityKey
