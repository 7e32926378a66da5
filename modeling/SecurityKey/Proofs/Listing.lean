import Mathlib.Tactic.Common
import SecurityKey.Proofs.Attributes
import SecurityKey.Proofs.Device
import SecurityKey.Proofs.Fingerprint
import SecurityKey.Proofs.Site
/-!
# Listings are read line by line

A reader is `Linewise` if a newline between two texts makes a text of them that gives what the two
give, whatever the first one ends in. Then a text gives what its lines give, each by itself, and a
line that gives nothing makes no difference to the others (`linewise_of_joined`).

That is so for every reader that takes a text by its lines, skips the blank ones and does not mind
a carriage return at the end of a line (`linewise_filterMap`), and all readers of what the tool
prints are of this kind. Only the numbers of devices go on from one text to the other.

Main statement: `listings_linewise`.
-/

namespace SecurityKey

open Text

/-- A reader of texts for which no line bears on what the others give. -/
structure Linewise {α : Type} (read : String → List α) : Prop where
  /-- A newline between two texts makes a text that gives what both give. -/
  joined : ∀ first second, read (first ++ "\n" ++ second) = read first ++ read second
  /-- A text gives what its lines give, each by itself. -/
  each : ∀ text, read text =
    (text.toList.splitOn '\n').flatMap fun line => read (String.ofList line)
  /-- What gives nothing makes no difference to what is before and behind it. -/
  passed_over : ∀ first text second, read text = [] →
    read (first ++ "\n" ++ text ++ "\n" ++ second) = read (first ++ "\n" ++ second)
  blank : ∀ text, AllBlank text → read text = []

section Readers

variable {α : Type}

theorem ofList_append_newline (s t : List Char) :
    String.ofList (s ++ '\n' :: t) = String.ofList s ++ "\n" ++ String.ofList t := by
  rw [← String.toList_inj]
  simp

/-- To be linewise it is enough to read two texts as one. -/
theorem linewise_of_joined {read : String → List α}
    (joined : ∀ first second, read (first ++ "\n" ++ second) = read first ++ read second)
    (blank : ∀ text, AllBlank text → read text = []) : Linewise read where
  joined := joined
  each text := by
    have hlines : ∀ s : List Char, read (String.ofList s) =
        (s.splitOn '\n').flatMap fun line => read (String.ofList line) := by
      intro s
      induction s using line_induction with
      | last s hs => simp [List.splitOn_eq_singleton hs]
      | line l s hl ih =>
        rw [ofList_append_newline, joined, ih, List.splitOn_append_cons_self,
          List.splitOn_eq_singleton hl, List.flatMap_append, List.flatMap_singleton]
    simpa using hlines text.toList
  passed_over first text second hnothing := by
    rw [joined, joined, joined, hnothing, List.append_nil]
  blank := blank

/-- The lines of a blank text are blank, since a newline is. -/
theorem blank_of_mem_splitOn {s line : List Char} (h : ∀ c ∈ s, isBlank c)
    (hline : line ∈ s.splitOn '\n') : ∀ c ∈ line, isBlank c := by
  have hparts : ∀ s t, (¬ ∀ c ∈ s ++ '\n' :: t, isBlank c) ↔
      (¬ ∀ c ∈ s, isBlank c) ∨ ¬ ∀ c ∈ t, isBlank c := by
    intro s t
    rw [List.forall_mem_append, List.forall_mem_cons, not_and_or]
    simp [show isBlank '\n' from rfl]
  by_contra hnot
  have hwhole := exists_line_iff (P := fun s => ¬ ∀ c ∈ s, isBlank c) hparts s
  exact hwhole.2 ⟨line, hline, hnot⟩ h

/-- A reader that takes a text by its lines, skips blank ones and does not mind a carriage return
at the end of a line. -/
theorem linewise_filterMap {f : List Char → Option α}
    (hblank : ∀ line, (∀ c ∈ line, isBlank c) → f line = none)
    (hreturn : ∀ line, f (line ++ ['\r']) = f line) :
    Linewise fun text => (lines text.toList).filterMap f := by
  have hempty : f [] = none := hblank [] fun _ hmem => nomatch hmem
  refine linewise_of_joined (fun first second => ?_) fun text htext => ?_
  · simpa using filterMap_lines_append hempty hreturn first.toList second.toList
  · rw [filterMap_lines hempty hreturn, List.filterMap_eq_nil_iff]
    exact fun line hline => hblank line (blank_of_mem_splitOn htext hline)

end Readers

/-! ## Lines of the other listings -/

/-- A blank line has no characters but blanks. -/
theorem not_mem_of_blank {line : List Char} {c : Char} (h : ∀ c ∈ line, isBlank c)
    (hc : isBlank c = false) : c ∉ line := by
  intro hmem
  simp [h c hmem] at hc

theorem Credential.ofLine?_concat_return (domain : String) (line : List Char) :
    ofLine? domain (line ++ ['\r']) = ofLine? domain line := by
  rw [ofLine?, ofLine?, words_concat rfl]

theorem Device.linewise_listed :
    Linewise fun text => (lines text.toList).filterMap Device.ofLine? := by
  refine linewise_filterMap (fun line hblank => ?_) (Device.ofLine?_concat rfl)
  exact Device.ofLine?_of_no_colon (not_mem_of_blank hblank rfl)

/-- The numbers of devices go on from one text to the other. -/
theorem Device.ofListing_append_newline (first second : String) :
    ofListing (first ++ "\n" ++ second) =
      ofListing first ++ (ofListing second).map (later (ofListing first).length) := by
  rw [ofListing, Device.linewise_listed.joined, number_append, ← ofListing, ← ofListing, ofListing,
    length_number]

/-! ## All listings -/

/-- **Listings are read line by line**: reports of attributes, listings of sites, of fingerprints,
of the passkeys of a site, and of devices. The numbers of devices go on from one text to the other,
and what lists no device makes no difference to them. -/
theorem listings_linewise :
    Linewise (fun report => (Attributes.ofReport report).rows) ∧
    Linewise Site.domainsOf ∧
    Linewise Fingerprint.ofListing ∧
    (∀ domain, Linewise fun text => (Site.ofListing domain text).credentials) ∧
    Linewise (fun text =>
      (Device.ofListing text).map fun device => (device.handle, device.label)) ∧
    (∀ first second, Device.ofListing (first ++ "\n" ++ second) = Device.ofListing first ++
      (Device.ofListing second).map (.later (Device.ofListing first).length)) ∧
    ∀ first text second, Device.ofListing text = [] →
      Device.ofListing (first ++ "\n" ++ text ++ "\n" ++ second) =
        Device.ofListing (first ++ "\n" ++ second) := by
  refine ⟨?_, ?_, ?_, fun domain => ?_, ?_, Device.ofListing_append_newline, ?_⟩
  · refine linewise_filterMap (fun line hblank => ?_) Attribute.ofReportLine?_concat_return
    simp [Attribute.ofReportLine?, trim_eq_nil_iff.2 hblank]
  · refine linewise_filterMap (fun line hblank => ?_) Site.domainOfLine?_concat_return
    refine Site.domainOfLine?_of_unmarked fun hin => ?_
    exact not_mem_of_blank hblank rfl (hin.subset List.mem_cons_self)
  · refine linewise_filterMap (fun line hblank => ?_) fun line => ?_
    · rw [Fingerprint.ofLine_of_no_colon (not_mem_of_blank hblank rfl)]
      rfl
    · rw [Fingerprint.ofLine_concat_return]
  · refine linewise_filterMap (fun line hblank => ?_) (Credential.ofLine?_concat_return domain)
    rw [Credential.ofLine?, words_eq_nil hblank]
  · simp only [Device.ofListing, Device.map_number]
    exact Device.linewise_listed
  · intro first text second hnothing
    rw [Device.ofListing_append_newline, Device.ofListing_append_newline,
      Device.ofListing_append_newline, hnothing, List.map_nil, List.append_nil]

end SecurityKey
