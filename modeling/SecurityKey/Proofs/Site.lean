import Mathlib.Tactic.Common
import SecurityKey.Credential
import SecurityKey.Proofs.Text.Blank
import SecurityKey.Proofs.Text.Lines
import SecurityKey.Proofs.Text.Search
/-!
# Listings of sites

A line names the site behind its first `= `, without the blanks around the name
(`domainOfLine?_eq_some_iff`). What stands before may end in one more `=`, as an encoded number
does, and the name may have a `= ` of its own.

So a listing that is put together from names is read as these names, and what is read of any text
is a part of one of its lines, trimmed and not empty.

Main statement: `domainsOf_of_laidOut`.
-/

namespace SecurityKey.Site

open Text

/-- What stands before the name of a site. -/
abbrev assigns : List Char := ['=', ' ']

/-! ## One line -/

section Line

variable {line : List Char} {domain : String}

/-- A line names what stands behind its first mark, if there is more than blanks. -/
theorem domainOfLine?_eq_some_iff : domainOfLine? line = some domain ↔
    domain ≠ "" ∧ ∃ before value, splitOnce? assigns (dropReturns line) = some (before, value) ∧
      trim value = domain.toList := by
  constructor
  · intro h
    obtain ⟨value, hvalue, hname⟩ := Option.bind_eq_some_iff.1 h
    obtain ⟨⟨before, rest⟩, hsplit, hrest⟩ := Option.bind_eq_some_iff.1 hvalue
    have hrest : (if rest.isEmpty then none else some rest) = some value := hrest
    split_ifs at hrest hname with _ hblank
    obtain rfl := Option.some.inj hrest
    obtain rfl := Option.some.inj hname
    exact ⟨by simpa using hblank, before, rest, hsplit, String.toList_ofList.symm⟩
  · rintro ⟨hne, before, value, hsplit, htrim⟩
    have hname : trim value ≠ [] := by simpa [htrim] using hne
    have hvalue : value ≠ [] := by
      rintro rfl
      exact hname trim_nil
    simp [domainOfLine?, assignment?, hsplit, hvalue, htrim, hne]

/-- A carriage return at the end of a line makes no difference. -/
theorem domainOfLine?_concat_return (line : List Char) :
    domainOfLine? (line ++ ['\r']) = domainOfLine? line := by
  have hreturn : dropReturns (line ++ ['\r']) = dropReturns line := dropTrailing_concat rfl line
  rw [domainOfLine?, domainOfLine?, assignment?, assignment?, hreturn]

theorem domainOfLine?_of_unmarked (h : ¬ assigns <:+: line) : domainOfLine? line = none := by
  have hbody : ¬ assigns <:+: dropReturns line := fun hin =>
    h (hin.trans (List.rdropWhile_prefix _ line).isInfix)
  rw [domainOfLine?, assignment?, splitOnce?_eq_none_iff.2 hbody]
  rfl

/-- A line that is put together from a name and what stands before it names the site. -/
theorem domainOfLine?_append {before : List Char} (hbefore : ¬ assigns <:+: before)
    (hne : domain ≠ "") (htrimmed : trimmed domain = domain) :
    domainOfLine? (before ++ assigns ++ domain.toList) = some domain := by
  have htrim : trim domain.toList = domain.toList := trimmed_eq_self_iff.1 htrimmed
  have hends : dropReturns (before ++ assigns ++ domain.toList) =
      before ++ assigns ++ domain.toList := by
    refine dropTrailing_eq_self fun c hlast => ?_
    have hname : domain.toList ≠ [] := by simpa using hne
    rw [List.getLast?_append_of_ne_nil _ hname, ← htrim] at hlast
    have hblank := getLast?_trim hlast
    rw [beq_eq_false_iff_ne]
    rintro rfl
    simp [isBlank] at hblank
  refine domainOfLine?_eq_some_iff.2 ⟨hne, before, domain.toList, ?_, htrim⟩
  rw [hends, splitOnce?_pair (by decide) hbefore]

/-- What a line names is a part of it, trimmed and not empty. -/
theorem infix_of_domainOfLine? (h : domainOfLine? line = some domain) :
    domain ≠ "" ∧ trimmed domain = domain ∧ domain.toList <:+: line := by
  obtain ⟨hne, before, value, hsplit, htrim⟩ := domainOfLine?_eq_some_iff.1 h
  refine ⟨hne, ?_, ?_⟩
  · rw [trimmed_eq_self_iff, ← htrim, trim_trim]
  · have hvalue : value <:+ dropReturns line := ⟨_, (append_of_splitOnce? hsplit).symm⟩
    have hbody : dropReturns line <+: line := List.rdropWhile_prefix _ line
    rw [← htrim]
    exact (isInfix_trim value).trans (hvalue.isInfix.trans hbody.isInfix)

end Line

/-! ## Listings put together -/

/-- A line of a listing. -/
inductive Row
  /-- The name of a site behind some other text. -/
  | site (before domain : String)
  /-- A line that names no site. -/
  | other (line : String)

namespace Row

/-- How a row is printed. -/
def line : Row → List Char
  | site before domain => (before ++ "= " ++ domain).toList
  | other line => line.toList

/-- The site that a row names. -/
def named? : Row → Option String
  | site _ domain => some domain
  | other _ => none

/-- Whether a row is what it says. -/
def Proper : Row → Prop
  | site before domain =>
    ¬ assigns <:+: before.toList ∧ domain ≠ "" ∧ trimmed domain = domain
  | other line => ¬ assigns <:+: line.toList

instance : DecidablePred Proper
  | site _ _ => inferInstanceAs (Decidable (_ ∧ _ ∧ _))
  | other _ => inferInstanceAs (Decidable (¬ _))

theorem domainOfLine?_line {row : Row} (h : row.Proper) : domainOfLine? row.line = row.named? := by
  cases row with
  | site before domain =>
    obtain ⟨hbefore, hne, htrimmed⟩ := h
    have hline : (Row.site before domain).line = before.toList ++ assigns ++ domain.toList := by
      simp [line]
    rw [hline, domainOfLine?_append hbefore hne htrimmed]
    rfl
  | other line => exact domainOfLine?_of_unmarked h

end Row

/-- **Sites are read as they were listed.** A listing that is put together from rows gives the sites
that they name, in this order and as often as they are named, whatever stands before them, in the
other rows and at the line ends. What any text gives is a part of the line that names it, trimmed
and not empty. -/
theorem domainsOf_of_laidOut :
    (∀ (rows : List Row) (text : String), (∀ row ∈ rows, row.Proper) →
      LaidOut (rows.map Row.line) text.toList → domainsOf text = rows.filterMap Row.named?) ∧
    ∀ text : String, ∀ domain ∈ domainsOf text, domain ≠ "" ∧ trimmed domain = domain ∧
      ∃ line ∈ lines text.toList, domainOfLine? line = some domain ∧ domain.toList <:+: line := by
  constructor
  · intro rows text hrows htext
    exact htext.filterMap_lines_map rfl domainOfLine?_concat_return
      fun row hmem => Row.domainOfLine?_line (hrows row hmem)
  · intro text domain hdomain
    obtain ⟨line, hline, hnamed⟩ := List.mem_filterMap.1 hdomain
    obtain ⟨hne, htrimmed, hin⟩ := infix_of_domainOfLine? hnamed
    exact ⟨hne, htrimmed, line, hline, hnamed, hin⟩

/-- Sites behind an encoded number, behind nothing and with a mark in the name, and one of them
twice. -/
def markedRows : List Row :=
  [.site "00: aGFzaA=" "a.test", .other "rk(s)=2", .site "" "b = c", .site "\t" "a.test"]

/-- These rows with line ends of both kinds, and none at the end. -/
def markedListing : String :=
  "00: aGFzaA== a.test\r\nrk(s)=2\n= b = c\r\n\t= a.test"

theorem domainsOf_of_laidOut_marked : (∀ row ∈ markedRows, row.Proper) ∧
    LaidOut (markedRows.map Row.line) markedListing.toList ∧
    domainsOf markedListing = ["a.test", "b = c", "a.test"] ∧
    ∃ line ∈ lines markedListing.toList, domainOfLine? line = some "b = c" ∧
      "b = c".toList <:+: line := by
  have hrows : ∀ row ∈ markedRows, row.Proper := by
    decide
  have hlaid : LaidOut (markedRows.map Row.line) markedListing.toList := by
    decide +kernel
  have hnames : domainsOf markedListing = ["a.test", "b = c", "a.test"] :=
    domainsOf_of_laidOut.1 markedRows markedListing hrows hlaid
  have hmem : "b = c" ∈ domainsOf markedListing := by
    rw [hnames]
    decide
  exact ⟨hrows, hlaid, hnames, (domainsOf_of_laidOut.2 markedListing _ hmem).2.2⟩

end SecurityKey.Site
