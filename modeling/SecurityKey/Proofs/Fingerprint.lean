import Mathlib.Tactic.Common
import SecurityKey.Fingerprint
import SecurityKey.Proofs.Text.Blank
import SecurityKey.Proofs.Text.Lines
import SecurityKey.Proofs.Text.Search
/-!
# Listings of fingerprints

A line lists a fingerprint if something follows its first colon: the first word there is the id, and
the other words are the name (`ofLine_eq_ok_iff`). What stands before this colon, and how wide the
blanks between the words are, makes no difference. So a listing that is put together from
fingerprints is read as these, and what is read of any text is read again where it is written down.

Main statement: `ofListing_as_listed`.
-/

namespace SecurityKey.Fingerprint

open Text

/-! ## One line -/

section Line

variable {line index rest : List Char} {fingerprint : Fingerprint}

/-- The id is a word, and the name is words with one space between each two, or empty. -/
structure Normal (fingerprint : Fingerprint) : Prop where
  id_word : IsWord fingerprint.id.toList
  name_words : ∃ ws, (∀ w ∈ ws, IsWord w) ∧ fingerprint.name.toList = unwords ws

/-- The words that a line has of a fingerprint: its id and those of its name. -/
def listed (fingerprint : Fingerprint) : List (List Char) :=
  fingerprint.id.toList :: words fingerprint.name.toList

theorem Normal.unwords_words (h : fingerprint.Normal) :
    unwords (words fingerprint.name.toList) = fingerprint.name.toList := by
  obtain ⟨ws, hws, hname⟩ := h.name_words
  rw [hname, (spaced_unwords hws).words_eq]

theorem ofLine_of_no_colon (h : ':' ∉ line) : ofLine line = .error .missingIndex := by
  have hnone : splitOnce? [':'] line = none := by
    rwa [splitOnce?_eq_none_iff, List.singleton_infix_iff]
  rw [ofLine, hnone]

theorem ofLine_append (h : ':' ∉ index) (rest : List Char) : ofLine (index ++ ':' :: rest) =
    match words rest with
    | [] => .error .missingId
    | id :: name => .ok ⟨String.ofList id, String.ofList (unwords name)⟩ := by
  cases hwords : words rest <;> simp only [ofLine, splitOnce?_char h, hwords]

/-- A carriage return at the end of a line makes no difference. -/
theorem ofLine_concat_return (line : List Char) : ofLine (line ++ ['\r']) = ofLine line := by
  by_cases hcolon : ':' ∈ line
  · obtain ⟨index, rest, rfl, hindex⟩ := List.eq_append_cons_of_mem hcolon
    rw [List.append_assoc, List.cons_append, ofLine_append hindex, ofLine_append hindex,
      words_concat rfl]
  · rw [ofLine_of_no_colon hcolon, ofLine_of_no_colon (by simpa using hcolon)]

/-- A line with the words of a fingerprint behind its first colon lists it, however wide the blanks
are that stand between them. -/
theorem ofLine_spaced (h : ':' ∉ index) (hnormal : fingerprint.Normal)
    (hrest : Spaced fingerprint.listed rest) :
    ofLine (index ++ ':' :: rest) = .ok fingerprint := by
  rw [ofLine_append h, hrest.words_eq, listed]
  simp only [hnormal.unwords_words, String.ofList_toList]

/-- A line lists what its words behind the first colon are. -/
theorem ofLine_eq_ok_iff : ofLine line = .ok fingerprint ↔
    ∃ index rest, line = index ++ ':' :: rest ∧ ':' ∉ index ∧ fingerprint.Normal ∧
      Spaced fingerprint.listed rest := by
  constructor
  · intro h
    by_cases hcolon : ':' ∈ line
    · obtain ⟨index, rest, rfl, hindex⟩ := List.eq_append_cons_of_mem hcolon
      rw [ofLine_append hindex] at h
      have hspaced := spaced_words rest
      have hword : ∀ w ∈ words rest, IsWord w := fun w => isWord_of_mem_words
      cases hwords : words rest with
      | nil => simp [hwords] at h
      | cons id name =>
        rw [hwords] at h hspaced hword
        obtain rfl := Except.ok.inj h
        obtain ⟨hid, hname⟩ := List.forall_mem_cons.1 hword
        refine ⟨index, rest, rfl, hindex, ⟨by simpa using hid, name, hname, by simp⟩, ?_⟩
        simpa [listed, (spaced_unwords hname).words_eq] using hspaced
    · simp [ofLine_of_no_colon hcolon] at h
  · rintro ⟨index, rest, rfl, hindex, hnormal, hrest⟩
    exact ofLine_spaced hindex hnormal hrest

/-- A line that lists nothing. -/
inductive Idle : List Char → Prop
  | blank {line : List Char} : (∀ c ∈ line, isBlank c) → Idle line
  | unnumbered {line : List Char} : ':' ∉ line → Idle line
  | unnamed {index rest : List Char} : ':' ∉ index → (∀ c ∈ rest, isBlank c) →
      Idle (index ++ ':' :: rest)

theorem idle_iff : Idle line ↔ (ofLine line).toOption = none := by
  constructor
  · intro h
    cases h with
    | blank hblank =>
      have hcolon : ':' ∉ line := fun hmem => by simpa [isBlank] using hblank ':' hmem
      rw [ofLine_of_no_colon hcolon]
      rfl
    | unnumbered hcolon =>
      rw [ofLine_of_no_colon hcolon]
      rfl
    | unnamed hindex hrest =>
      rw [ofLine_append hindex, words_eq_nil hrest]
      rfl
  · intro h
    by_cases hcolon : ':' ∈ line
    · obtain ⟨index, rest, rfl, hindex⟩ := List.eq_append_cons_of_mem hcolon
      rw [ofLine_append hindex] at h
      cases hwords : words rest with
      | nil => exact .unnamed hindex (words_eq_nil_iff.1 hwords)
      | cons id name => simp [hwords, Except.toOption] at h
    · exact .unnumbered hcolon

instance : DecidablePred Idle :=
  fun _ => decidable_of_iff _ idle_iff.symm

theorem normal_iff : fingerprint.Normal ↔ IsWord fingerprint.id.toList ∧
    unwords (words fingerprint.name.toList) = fingerprint.name.toList :=
  ⟨fun h => ⟨h.id_word, h.unwords_words⟩,
    fun ⟨hid, hname⟩ => ⟨hid, _, fun _ => isWord_of_mem_words, hname.symm⟩⟩

instance : DecidablePred Normal :=
  fun _ => decidable_of_iff _ normal_iff.symm

end Line

/-! ## Listings put together -/

/-- A line of a listing. -/
inductive Row
  /-- A fingerprint's words behind an index and a colon. -/
  | entry (index : String) (fingerprint : Fingerprint) (words : String)
  | other (line : String)

namespace Row

/-- How a row is printed. -/
def line : Row → List Char
  | entry index _ words => (index ++ ":" ++ words).toList
  | other line => line.toList

/-- The fingerprint of a row. -/
def entry? : Row → Option Fingerprint
  | entry _ fingerprint _ => some fingerprint
  | other _ => none

/-- Whether a row is what it says. -/
def Proper : Row → Prop
  | entry index fingerprint words =>
    ':' ∉ index.toList ∧ fingerprint.Normal ∧ Spaced fingerprint.listed words.toList
  | other line => Idle line.toList

instance : DecidablePred Proper
  | entry _ _ _ => inferInstanceAs (Decidable (_ ∧ _ ∧ _))
  | other _ => inferInstanceAs (Decidable (Idle _))

theorem toOption_ofLine_line {row : Row} (h : row.Proper) :
    (ofLine row.line).toOption = row.entry? := by
  cases row with
  | entry index fingerprint words =>
    obtain ⟨hindex, hnormal, hwords⟩ := h
    have hline : (Row.entry index fingerprint words).line =
        index.toList ++ ':' :: words.toList := by
      simp [line]
    rw [hline, ofLine_spaced hindex hnormal hwords]
    rfl
  | other line => exact idle_iff.1 h

end Row

theorem ofListing_of_rows {rows : List Row} {text : String} (hrows : ∀ row ∈ rows, row.Proper)
    (htext : LaidOut (rows.map Row.line) text.toList) :
    ofListing text = rows.filterMap Row.entry? :=
  htext.filterMap_lines_map rfl (fun line => by rw [ofLine_concat_return])
    fun row hmem => Row.toOption_ofLine_line (hrows row hmem)

/-! ## Fingerprints written down -/

section Render

variable {fingerprint : Fingerprint}

/-- The line of a fingerprint. -/
def render (index : String) (fingerprint : Fingerprint) : String :=
  index ++ ": " ++ fingerprint.id ++
    if fingerprint.name.isEmpty then "" else " " ++ fingerprint.name

/-- What is written down has the words of the fingerprint behind the first colon. -/
theorem toList_render (index : String) (h : fingerprint.Normal) : ∃ rest,
    (fingerprint.render index).toList = index.toList ++ ':' :: rest ∧
      Spaced fingerprint.listed rest := by
  by_cases hname : fingerprint.name = ""
  · refine ⟨' ' :: fingerprint.id.toList, by simp [render, hname], .blank rfl ?_⟩
    rw [listed, hname]
    exact .last h.id_word
  · refine ⟨' ' :: (fingerprint.id.toList ++ ' ' :: fingerprint.name.toList),
      by simp [render, hname], .blank rfl ?_⟩
    exact .word h.id_word rfl (spaced_words _)

theorem Normal.newline_not_mem (h : fingerprint.Normal) :
    '\n' ∉ fingerprint.id.toList ∧ '\n' ∉ fingerprint.name.toList := by
  obtain ⟨ws, hws, hname⟩ := h.name_words
  constructor
  · intro hmem
    cases h.id_word.2 '\n' hmem
  · rw [hname, mem_unwords_iff (by decide)]
    rintro ⟨w, hw, hmem⟩
    cases (hws w hw).2 '\n' hmem

theorem ofListing_render {index : String} (hcolon : ':' ∉ index.toList)
    (hnewline : '\n' ∉ index.toList) (h : fingerprint.Normal) :
    ofListing (fingerprint.render index) = [fingerprint] := by
  obtain ⟨rest, hline, hrest⟩ := toList_render index h
  obtain ⟨hid, hname⟩ := h.newline_not_mem
  have hone : '\n' ∉ (fingerprint.render index).toList := by
    rw [render]
    split_ifs <;> simp [hnewline, hid, hname]
  have hlines : lines (fingerprint.render index).toList = [index.toList ++ ':' :: rest] := by
    rw [lines_of_not_mem hone, hline, if_neg (by simp)]
  simp [ofListing, hlines, ofLine_spaced hcolon h hrest, Except.toOption]

end Render

theorem normal_of_mem_ofListing {text : String} {fingerprint : Fingerprint}
    (h : fingerprint ∈ ofListing text) : fingerprint.Normal := by
  obtain ⟨line, -, hread⟩ := List.mem_filterMap.1 h
  cases hline : ofLine line with
  | error error => simp [hline, Except.toOption] at hread
  | ok found =>
    rw [hline] at hread
    obtain rfl := Option.some.inj hread
    obtain ⟨_, _, -, -, hnormal, -⟩ := ofLine_eq_ok_iff.1 hline
    exact hnormal

/-- **Fingerprints are read as they were listed.** A listing that is put together from rows gives
the fingerprints that they have, in this order, whatever stands before their first colons, between
their words, in the other rows and at the line ends. What any text gives has one word as its id, and
words with one space between each two as its name, so it is read again where it is written down. -/
theorem ofListing_as_listed :
    (∀ (rows : List Row) (text : String), (∀ row ∈ rows, row.Proper) →
      LaidOut (rows.map Row.line) text.toList → ofListing text = rows.filterMap Row.entry?) ∧
    ∀ text : String, ∀ fingerprint ∈ ofListing text, fingerprint.Normal ∧
      ∀ index : String, ':' ∉ index.toList → '\n' ∉ index.toList →
        ofListing (fingerprint.render index) = [fingerprint] := by
  refine ⟨fun rows text => ofListing_of_rows, fun text fingerprint hmem => ?_⟩
  have hnormal := normal_of_mem_ofListing hmem
  exact ⟨hnormal, fun index hcolon hnewline => ofListing_render hcolon hnewline hnormal⟩

/-- Fingerprints with colons in them and blanks of all kinds around their words, one without a name,
one behind a number in two parts, and lines that list nothing. -/
def spacedRows : List Row :=
  [.entry "00" ⟨"3f:2a", "right thumb: A"⟩ "\t3f:2a right  \u00a0thumb: A ", .other "enrolled",
    .entry "" ⟨"9c", ""⟩ "9c", .other "02: \t", .other "\u3000", .entry "3 b" ⟨"9c", "x"⟩ " 9c x"]

/-- These rows with line ends of both kinds, and none at the end. -/
def spacedListing : String :=
  "00:\t3f:2a right  \u00a0thumb: A \r\nenrolled\n:9c\r\n02: \t\n\u3000\r\n3 b: 9c x"

theorem ofListing_as_listed_spaced : (∀ row ∈ spacedRows, row.Proper) ∧
    LaidOut (spacedRows.map Row.line) spacedListing.toList ∧
    ofListing spacedListing = [⟨"3f:2a", "right thumb: A"⟩, ⟨"9c", ""⟩, ⟨"9c", "x"⟩] ∧
    ofListing (render "7" ⟨"3f:2a", "right thumb: A"⟩) = [⟨"3f:2a", "right thumb: A"⟩] := by
  have hrows : ∀ row ∈ spacedRows, row.Proper := by
    decide +kernel
  have hlaid : LaidOut (spacedRows.map Row.line) spacedListing.toList := by
    decide +kernel
  have hlisted : ofListing spacedListing =
      [⟨"3f:2a", "right thumb: A"⟩, ⟨"9c", ""⟩, ⟨"9c", "x"⟩] :=
    ofListing_as_listed.1 spacedRows spacedListing hrows hlaid
  have hmem : ⟨"3f:2a", "right thumb: A"⟩ ∈ ofListing spacedListing := by
    rw [hlisted]
    decide
  exact ⟨hrows, hlaid, hlisted,
    (ofListing_as_listed.2 spacedListing _ hmem).2 "7" (by decide) (by decide)⟩

end SecurityKey.Fingerprint
