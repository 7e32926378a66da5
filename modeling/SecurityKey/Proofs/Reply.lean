import Mathlib.Tactic.Common
import SecurityKey.Proofs.Diagnosis
import SecurityKey.Proofs.Text.Blank
import SecurityKey.Reply
/-!
# No failure is silent, and none is invented

A reply holds a device error exactly if the tool failed or standard error has a known mark in it
(`deviceError?_of_marked`, `deviceError?_of_not_marked`). The error is always that of the text which
explains the failure. A text with a mark is not blank, so where standard error has one, it is that
text itself.

Main statement: `deviceError?_explained`.
-/

namespace SecurityKey.Reply

open Text DeviceError

variable {reply : Reply} {error : DeviceError}

/-! ## The text that explains a failure -/

theorem diagnostics_eq (reply : Reply) :
    (AllBlank reply.stderr → reply.diagnostics = reply.stdout) ∧
      (¬ AllBlank reply.stderr → reply.diagnostics = reply.stderr) := by
  have hblank : AllBlank reply.stderr ↔ trim reply.stderr.toList = [] := trim_eq_nil_iff.symm
  constructor
  · intro h
    simp [diagnostics, hblank.1 h]
  · intro h
    simp [diagnostics, mt hblank.2 h]

theorem not_blank_of_mem_marks : ∀ entry ∈ marks, entry.1.toList.all isBlank = false := by
  decide

/-- A text with a known mark is not blank. -/
theorem not_allBlank_of_marked {text : String} (h : Marked text.toList) : ¬ AllBlank text := by
  obtain ⟨entry, hmem, hin⟩ := h
  intro hblank
  have hall : entry.1.toList.all isBlank = true :=
    List.all_eq_true.2 fun c hc => hblank c (hin.subset hc)
  rw [not_blank_of_mem_marks entry hmem] at hall
  cases hall

/-! ## Whether there is an error -/

/-- A known mark on standard error counts whatever the tool claims. -/
theorem deviceError?_of_marked (h : Marked reply.stderr.toList) :
    reply.deviceError? = classify? reply.stderr ∧
      reply.deviceError? = some (ofFailure reply.diagnostics) := by
  obtain ⟨error, herror, hknown⟩ := known_iff_marked.2 h
  have hfound : reply.deviceError? = some error := by
    simp [deviceError?, herror, hknown]
  rw [(diagnostics_eq reply).2 (not_allBlank_of_marked h), ofFailure, herror]
  exact ⟨hfound, hfound⟩

/-- Without one, the tool's own word counts. -/
theorem deviceError?_of_not_marked (h : ¬ Marked reply.stderr.toList) :
    reply.deviceError? =
      if reply.succeeded then none else some (ofFailure reply.diagnostics) := by
  cases hclassified : classify? reply.stderr with
  | none => simp [deviceError?, hclassified]
  | some error =>
    have hunknown : error.kind = .unknown := by
      by_contra hne
      exact h (known_iff_marked.1 ⟨error, hclassified, hne⟩)
    simp [deviceError?, hclassified, hunknown]

/-- A reply without a device error is that of a tool which succeeded and wrote no known mark to
standard error. -/
theorem deviceError?_eq_none_iff :
    reply.deviceError? = none ↔ reply.code = some 0 ∧ ¬ Marked reply.stderr.toList := by
  by_cases h : Marked reply.stderr.toList
  · simp [(deviceError?_of_marked h).2, h]
  · rw [deviceError?_of_not_marked h]
    by_cases hcode : reply.code = some 0 <;> simp [succeeded, hcode, h]

/-- The error in a reply is the one in the text that explains the failure. -/
theorem eq_ofFailure_of_deviceError? (h : reply.deviceError? = some error) :
    error = ofFailure reply.diagnostics := by
  by_cases hmarked : Marked reply.stderr.toList
  · simpa [h] using (deviceError?_of_marked hmarked).2
  · rw [deviceError?_of_not_marked hmarked] at h
    split at h
    · cases h
    · exact (Option.some.inj h).symm

/-! ## What the error says -/

/-- How an error follows from the reply that it is found in. -/
structure Explains (reply : Reply) (error : DeviceError) : Prop where
  /-- A known mark on standard error decides the kind. -/
  known : Marked reply.stderr.toList →
    classify? reply.stderr = some error ∧ error.kind ≠ .unknown
  /-- Standard error is what counts, if there is anything on it. -/
  fromStderr : ¬ AllBlank reply.stderr →
    error.kind = reportedKind reply.stderr ∧ error.raw = trimmed reply.stderr
  /-- Otherwise standard output counts, with the marks in it. -/
  fromStdout : AllBlank reply.stderr →
    error.kind = reportedKind reply.stdout ∧ error.raw = trimmed reply.stdout
  /-- Where the tool said something, its text is kept. -/
  not_empty : ¬ AllBlank reply.stderr ∨ ¬ AllBlank reply.stdout → error.raw ≠ ""
  /-- An unknown error shows the tool's own text. -/
  shown : error.kind = .unknown → error.message = error.raw

theorem explains_of_deviceError? (h : reply.deviceError? = some error) :
    reply.Explains error := by
  have herror := eq_ofFailure_of_deviceError? h
  rw [ofFailure_eq] at herror
  have hsource := diagnostics_eq reply
  constructor
  case known =>
    intro hmarked
    have hfound : classify? reply.stderr = some error :=
      (deviceError?_of_marked hmarked).1.symm.trans h
    obtain ⟨other, hother, hknown⟩ := known_iff_marked.2 hmarked
    obtain rfl : error = other := by simpa [hfound] using hother
    exact ⟨hfound, hknown⟩
  case fromStderr =>
    intro hshows
    simp [herror, hsource.2 hshows]
  case fromStdout =>
    intro hblank
    simp [herror, hsource.1 hblank]
  case not_empty =>
    intro hshows hempty
    rw [herror] at hempty
    have hblank : AllBlank reply.diagnostics := trimmed_eq_empty_iff.1 hempty
    by_cases hstderr : AllBlank reply.stderr
    · rw [hsource.1 hstderr] at hblank
      exact hshows.elim (· hstderr) (· hblank)
    · rw [hsource.2 hstderr] at hblank
      exact hstderr hblank
  case shown =>
    intro hunknown
    rw [message, hunknown]
    simp [herror]

/-- **No failure is silent, and none is invented.** A reply holds no device error exactly if the
tool succeeded and standard error has none of the known marks. If it holds one, that is the error in
standard error, or in standard output where standard error is blank. It has the text that it was
found in without the blanks around it, and shows that text if it is of no known kind. -/
theorem deviceError?_explained (reply : Reply) :
    (reply.deviceError? = none ↔
      reply.code = some 0 ∧ ∀ entry ∈ marks, ¬ entry.1.toList <:+: reply.stderr.toList) ∧
    ∀ error, reply.deviceError? = some error → reply.Explains error := by
  constructor
  · rw [deviceError?_eq_none_iff, Marked]
    simp
  · intro error h
    exact explains_of_deviceError? h

/-- A tool that fails without a word on standard error, and explains itself on standard output. -/
theorem deviceError?_explained_onStdout :
    deviceError? ⟨some 1, " FIDO_ERR_PIN_NOT_SET\n", "\r\n"⟩ =
        some ⟨.pinRequired, "FIDO_ERR_PIN_NOT_SET"⟩ ∧
      Explains ⟨some 1, " FIDO_ERR_PIN_NOT_SET\n", "\r\n"⟩
        ⟨.pinRequired, "FIDO_ERR_PIN_NOT_SET"⟩ := by
  have herror : deviceError? ⟨some 1, " FIDO_ERR_PIN_NOT_SET\n", "\r\n"⟩ =
      some ⟨.pinRequired, "FIDO_ERR_PIN_NOT_SET"⟩ := by decide
  exact ⟨herror, (deviceError?_explained _).2 _ herror⟩

end SecurityKey.Reply
