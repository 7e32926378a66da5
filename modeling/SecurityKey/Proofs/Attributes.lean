import Mathlib.Data.List.Forall2
import Mathlib.Data.List.Induction
import Mathlib.Tactic.Common
import SecurityKey.Attributes
import SecurityKey.Proofs.Text.Blank
import SecurityKey.Proofs.Text.Lines
import SecurityKey.Proofs.Text.Search
/-!
# Reports of attributes

**Read.** A line that is not blank gives the row that it shows (`Shows`), and a report the rows of
its lines in order (`forall₂_shows`). A look-up sees the last row of a name (`get?_eq_some_iff`).

**Put together.** A row does not depend on how its line ends, and a blank line gives none. So two
reports with a newline between them have the rows of both (`ofReport_append_newline`), of which the
later ones are seen first (`get?_extend`).

**Printed and read again.** A row that was read is `Tidy`: it has no newline, its name no separator
and its value no carriage return at the end. The line of a tidy row is cut at its own separator, and
its end is not cut at all. So what was read and printed is read as it was (`rows_ofReport_render`).

Main statement: `ofReport_render_edited`.
-/

namespace SecurityKey

open Text

/-! ## Lines of reports -/

namespace Attribute

variable {row : Attribute} {line : List Char}

/-- What stands between a name and its value. -/
abbrev separator : List Char := [':', ' ']

theorem ofReportLine?_nil : ofReportLine? [] = none :=
  rfl

/-- A carriage return at the end of a line makes no difference. -/
theorem ofReportLine?_concat_return (line : List Char) :
    ofReportLine? (line ++ ['\r']) = ofReportLine? line := by
  have hreturn : dropReturns (line ++ ['\r']) = dropReturns line := dropTrailing_concat rfl line
  rw [ofReportLine?, ofReportLine?, trim_concat (by decide), hreturn]

theorem toList_render (row : Attribute) :
    row.render.toList = row.name.toList ++ separator ++ row.value.toList := by
  simp [render]

/-- A line that is put together from a name and a value is cut into them again. -/
theorem ofLine_render (h : ¬ separator <:+: row.name.toList) : ofLine row.render.toList = row := by
  rw [ofLine, toList_render, splitOnce?_pair (by decide) h]
  simp

/-! ## Tidy rows -/

/-- A row as it is read from a report. -/
structure Tidy (row : Attribute) : Prop where
  separator_not_in_name : ¬ separator <:+: row.name.toList
  newline_not_in_name : '\n' ∉ row.name.toList
  newline_not_in_value : '\n' ∉ row.value.toList
  no_return_at_end : row.value.toList.getLast? ≠ some '\r'

/-- A line without a newline that no carriage return ends gives a tidy row. -/
theorem tidy_ofLine (hn : '\n' ∉ line) (hr : line.getLast? ≠ some '\r') : (ofLine line).Tidy := by
  rw [ofLine]
  cases hsplit : splitOnce? separator line with
  | none =>
    refine ⟨?_, ?_, ?_, ?_⟩
    · have hnot : ¬ occurs separator line := by simp [occurs, hsplit]
      simpa [occurs_iff] using hnot
    · simpa using hn
    · simp
    · simp
  | some parts =>
    obtain ⟨name, value⟩ := parts
    obtain rfl := append_of_splitOnce? hsplit
    refine ⟨?_, ?_, ?_, ?_⟩
    · simpa using not_infix_before (by simp) hsplit
    · simp_all
    · simp_all
    · intro hlast
      have hvalue : value.getLast? = some '\r' := by simpa using hlast
      exact hr (by rw [List.getLast?_append, hvalue]; rfl)

/-- Every row of a report is tidy. -/
theorem tidy_of_ofReportLine? (hn : '\n' ∉ line) (h : ofReportLine? line = some row) :
    row.Tidy := by
  rw [ofReportLine?] at h
  split at h
  · cases h
  · obtain rfl := Option.some.inj h
    refine tidy_ofLine (fun hmem => hn ?_) fun hlast => ?_
    · exact (List.rdropWhile_prefix _ line).subset hmem
    · simpa using getLast?_dropTrailing hlast

theorem Tidy.newline_not_in_line (h : row.Tidy) : '\n' ∉ row.render.toList := by
  simp [render, h.newline_not_in_name, h.newline_not_in_value]

/-- The line of a tidy row gives the row. -/
theorem Tidy.ofReportLine?_render (h : row.Tidy) : ofReportLine? row.render.toList = some row := by
  have hshows : trim row.render.toList ≠ [] := by
    rw [Ne, trim_eq_nil_iff]
    intro hblank
    have := hblank ':' (by simp [render])
    simp [isBlank] at this
  have hends : dropReturns row.render.toList = row.render.toList := by
    refine dropTrailing_eq_self fun c hlast => ?_
    rw [toList_render, List.getLast?_append] at hlast
    cases hvalue : row.value.toList.getLast? with
    | none =>
      obtain rfl : ' ' = c := by simpa [hvalue] using hlast
      rfl
    | some d =>
      obtain rfl : d = c := by simpa [hvalue] using hlast
      have hreturn : d ≠ '\r' := fun heq => h.no_return_at_end (heq ▸ hvalue)
      simpa using hreturn
  simp [ofReportLine?, hshows, hends, ofLine_render h.separator_not_in_name]

/-! ## Rows that lines show -/

/-- How a line shows a row. Its name ends at the first separator, and its value goes on to the end;
a line without a separator shows a name alone. Carriage returns at the end of the line belong to
neither. -/
inductive Shows : List Char → Attribute → Prop
  | pair {row : Attribute} (returns : Nat) : ¬ separator <:+: row.name.toList →
      row.value.toList.getLast? ≠ some '\r' →
      Shows (row.render.toList ++ List.replicate returns '\r') row
  | single {name : String} (returns : Nat) : ¬ separator <:+: name.toList →
      name.toList.getLast? ≠ some '\r' →
      Shows (name.toList ++ List.replicate returns '\r') ⟨name, ""⟩

theorem dropReturns_append (returns : Nat) (h : line.getLast? ≠ some '\r') :
    dropReturns (line ++ List.replicate returns '\r') = line := by
  induction returns with
  | zero =>
    rw [List.replicate_zero, List.append_nil]
    exact dropTrailing_eq_self fun c hc => by
      have hne : c ≠ '\r' := fun heq => h (heq ▸ hc)
      simpa using hne
  | succ returns ih =>
    rw [List.replicate_succ', ← List.append_assoc, dropReturns, dropTrailing_concat rfl]
    exact ih

/-- A line is what is left without the carriage returns at its end, and these. -/
theorem exists_returns (line : List Char) :
    ∃ returns, line = dropReturns line ++ List.replicate returns '\r' := by
  induction line using List.reverseRecOn with
  | nil => exact ⟨0, rfl⟩
  | append_singleton line c ih =>
    by_cases hc : c = '\r'
    · subst hc
      obtain ⟨returns, hreturns⟩ := ih
      refine ⟨returns + 1, ?_⟩
      rw [dropReturns, dropTrailing_concat rfl, List.replicate_succ', ← List.append_assoc]
      exact congrArg (· ++ ['\r']) hreturns
    · refine ⟨0, ?_⟩
      rw [dropReturns, dropTrailing_eq_self (by simpa using hc), List.replicate_zero,
        List.append_nil]

theorem getLast?_dropReturns (line : List Char) : (dropReturns line).getLast? ≠ some '\r' :=
  fun h => absurd (getLast?_dropTrailing h) (by decide)

theorem shows_ofLine {line : List Char} (h : line.getLast? ≠ some '\r') (returns : Nat) :
    Shows (line ++ List.replicate returns '\r') (ofLine line) := by
  rw [ofLine]
  cases hsplit : splitOnce? separator line with
  | none =>
    have hname := splitOnce?_eq_none_iff.1 hsplit
    have hshows : Shows ((String.ofList line).toList ++ List.replicate returns '\r')
        ⟨String.ofList line, ""⟩ :=
      .single returns (by simpa using hname) (by simpa using h)
    simpa using hshows
  | some parts =>
    obtain ⟨name, value⟩ := parts
    obtain rfl := append_of_splitOnce? hsplit
    have hname := not_infix_before (by simp) hsplit
    have hvalue : value.getLast? ≠ some '\r' := by
      intro hlast
      exact h (by rw [List.getLast?_append, hlast]; rfl)
    have hshows : Shows ((render ⟨String.ofList name, String.ofList value⟩).toList ++
        List.replicate returns '\r') ⟨String.ofList name, String.ofList value⟩ :=
      .pair returns (by simpa using hname) (by simpa using hvalue)
    simpa [toList_render] using hshows

theorem Shows.ofLine_dropReturns (h : Shows line row) : ofLine (dropReturns line) = row := by
  cases h with
  | pair returns hname hvalue =>
    have hlast : row.render.toList.getLast? ≠ some '\r' := by
      rw [toList_render, List.getLast?_append]
      cases hend : row.value.toList.getLast? with
      | none => simp
      | some d =>
        simpa using fun heq : d = '\r' => hvalue (heq ▸ hend)
    rw [dropReturns_append returns hlast]
    exact ofLine_render hname
  | single returns hname hlast =>
    rw [dropReturns_append returns hlast, ofLine, splitOnce?_eq_none_iff.2 hname]
    simp

/-- A line that is not blank gives the row that it shows. -/
theorem ofReportLine?_eq_some_iff :
    ofReportLine? line = some row ↔ (∃ c ∈ line, isBlank c = false) ∧ Shows line row := by
  have hblank : (∃ c ∈ line, isBlank c = false) ↔ trim line ≠ [] := by
    rw [Ne, trim_eq_nil_iff]
    simp
  rw [hblank, ofReportLine?]
  constructor
  · intro h
    split_ifs at h with hempty
    obtain rfl := Option.some.inj h
    obtain ⟨returns, hreturns⟩ := exists_returns line
    refine ⟨by simpa using hempty, ?_⟩
    have hshows := shows_ofLine (getLast?_dropReturns line) returns
    rwa [← hreturns] at hshows
  · rintro ⟨hne, hshows⟩
    rw [if_neg (by simpa using hne), hshows.ofLine_dropReturns]

end Attribute

namespace Attributes

variable {attributes : Attributes} {name : String}

/-! ## Rows of reports -/

/-- A report has one row for each of its lines that is not blank, in the same order. -/
theorem forall₂_shows (text : String) :
    List.Forall₂ Attribute.Shows ((lines text.toList).filter (·.any (!isBlank ·)))
      (ofReport text).rows := by
  rw [ofReport]
  induction lines text.toList with
  | nil => exact .nil
  | cons line lined ih =>
    cases hline : Attribute.ofReportLine? line with
    | some row =>
      obtain ⟨hshown, hshows⟩ := Attribute.ofReportLine?_eq_some_iff.1 hline
      rw [List.filter_cons_of_pos (by simpa using hshown), List.filterMap_cons_some hline]
      exact .cons hshows ih
    | none =>
      have hblank : ∀ c ∈ line, isBlank c := by
        rw [Attribute.ofReportLine?] at hline
        split_ifs at hline with hempty
        exact trim_eq_nil_iff.1 (by simpa using hempty)
      rw [List.filter_cons_of_neg (by simpa using hblank), List.filterMap_cons_none hline]
      exact ih

/-- A name has a value in some rows, and no row behind it has the name. -/
def Latest (rows : List Attribute) (name value : String) : Prop :=
  ∃ before after, rows = before ++ ⟨name, value⟩ :: after ∧ ∀ row ∈ after, row.name ≠ name

theorem get?_eq_some_iff {value : String} :
    attributes.get? name = some value ↔ Latest attributes.rows name value := by
  rw [get?, Option.map_eq_some_iff]
  constructor
  · rintro ⟨row, hfind, rfl⟩
    obtain ⟨hname, after, before, hrows, hafter⟩ := List.find?_eq_some_iff_append.1 hfind
    obtain rfl : row.name = name := by simpa using hname
    refine ⟨before.reverse, after.reverse, ?_, by simpa using hafter⟩
    rw [← List.reverse_reverse attributes.rows, hrows]
    simp
  · rintro ⟨before, after, hrows, hafter⟩
    refine ⟨⟨name, value⟩, List.find?_eq_some_iff_append.2 ⟨by simp, after.reverse,
      before.reverse, ?_, by simpa using hafter⟩, rfl⟩
    simp [hrows]

theorem get?_eq_none_iff :
    attributes.get? name = none ↔ ∀ row ∈ attributes.rows, row.name ≠ name := by
  simp [get?]

/-! ## Reports put together -/

/-- A newline between two reports makes one of them, whatever the first one ends in. -/
theorem ofReport_append_newline (first second : String) :
    ofReport (first ++ "\n" ++ second) = (ofReport first).extend second := by
  have htext : (first ++ "\n" ++ second).toList = first.toList ++ '\n' :: second.toList := by
    simp
  have hrows := filterMap_lines_append Attribute.ofReportLine?_nil
    Attribute.ofReportLine?_concat_return first.toList second.toList
  rw [ofReport, htext, hrows]
  rfl

/-- What was reported later is seen first. -/
theorem get?_extend (text : String) :
    (attributes.extend text).get? name = ((ofReport text).get? name).or (attributes.get? name) := by
  simp [get?, extend, List.find?_append, Option.map_or]

/-! ## Printed and read again -/

theorem tidy_ofReport {text : String} : ∀ row ∈ (ofReport text).rows, row.Tidy := by
  intro row hmem
  obtain ⟨line, hline, hrow⟩ := List.mem_filterMap.1 hmem
  exact Attribute.tidy_of_ofReportLine? (newline_not_mem_of_mem_lines hline) hrow

/-- Tidy rows are printed as one line each, with a newline behind it. -/
theorem laidOut_render {rows : List Attribute} (h : ∀ row ∈ rows, row.Tidy) :
    LaidOut (rows.map fun row => row.render.toList) (render ⟨rows⟩).toList := by
  induction rows with
  | nil => exact .nothing
  | cons row rows ih =>
    obtain ⟨hrow, hrows⟩ := List.forall_mem_cons.1 h
    have hprinted : (render ⟨row :: rows⟩).toList =
        row.render.toList ++ '\n' :: (render ⟨rows⟩).toList := by
      simp [render, String.toList_join]
    rw [List.map_cons, hprinted]
    exact .newline hrow.newline_not_in_line (ih hrows)

/-- Tidy rows are read as they were printed. -/
theorem rows_ofReport_render {rows : List Attribute} (h : ∀ row ∈ rows, row.Tidy) :
    (ofReport (render ⟨rows⟩)).rows = rows := by
  have hread := (laidOut_render h).filterMap_lines_map Attribute.ofReportLine?_nil
    Attribute.ofReportLine?_concat_return fun row hmem => (h row hmem).ofReportLine?_render
  rw [ofReport, hread, List.filterMap_some]

/-- A way to change attributes by reports alone. -/
inductive Edit
  | parse (text : String)
  | extend (text : String)
  | clear

/-- What a change makes of attributes. -/
def Edit.apply (attributes : Attributes) : Edit → Attributes
  | .parse text => .ofReport text
  | .extend text => attributes.extend text
  | .clear => .empty

/-- What changes make of no attributes, one after the other. -/
def edited (edits : List Edit) : Attributes :=
  edits.foldl Edit.apply .empty

/-- One change keeps all rows tidy. -/
theorem tidy_apply (h : ∀ row ∈ attributes.rows, row.Tidy) (edit : Edit) :
    ∀ row ∈ (edit.apply attributes).rows, row.Tidy := by
  cases edit with
  | parse text => exact tidy_ofReport
  | extend text =>
    intro row hmem
    rcases List.mem_append.1 hmem with hmem | hmem
    · exact h row hmem
    · exact tidy_ofReport row hmem
  | clear =>
    intro row hmem
    cases hmem

theorem tidy_foldl (h : ∀ row ∈ attributes.rows, row.Tidy) (edits : List Edit) :
    ∀ row ∈ (edits.foldl Edit.apply attributes).rows, row.Tidy := by
  induction edits generalizing attributes with
  | nil => exact h
  | cons edit edits ih => exact ih (tidy_apply h edit)

/-- **Attributes are read as they were printed.** However reports were taken in and dropped again,
the text of the attributes that are left gives the same rows in the same order, so that no look-up
tells the two apart. And a line of a name and a value is cut into just these two, if the name has no
separator of its own. -/
theorem ofReport_render_edited :
    (∀ edits : List Edit, ofReport (edited edits).render = edited edits) ∧
    ∀ name value : String, ¬ ": ".toList <:+: name.toList →
      Attribute.ofLine (name ++ ": " ++ value).toList = ⟨name, value⟩ := by
  constructor
  · intro edits
    have hnone : ∀ row ∈ empty.rows, row.Tidy := by
      intro row hmem
      cases hmem
    have hrows := rows_ofReport_render (tidy_foldl hnone edits)
    exact congrArg Attributes.mk hrows
  · intro name value h
    show Attribute.ofLine (Attribute.render ⟨name, value⟩).toList = ⟨name, value⟩
    exact Attribute.ofLine_render h

/-- Reports with a name that ends in a colon, one that is empty, and a line without a separator. -/
def colonEdits : List Edit :=
  [.extend "gone: 1\n", .clear, .parse "a:\r\r\n: x: y\r\n \n", .extend "b\r"]

theorem ofReport_render_edited_colons :
    (edited colonEdits).rows = [⟨"a:", ""⟩, ⟨"", "x: y"⟩, ⟨"b", ""⟩] ∧
      ofReport (edited colonEdits).render = edited colonEdits ∧
      ¬ ": ".toList <:+: "a:".toList ∧
      Attribute.ofLine ("a:" ++ ": " ++ "x: y").toList = ⟨"a:", "x: y"⟩ := by
  have hname : ¬ ": ".toList <:+: "a:".toList := by decide
  exact ⟨by decide, ofReport_render_edited.1 colonEdits, hname,
    ofReport_render_edited.2 "a:" "x: y" hname⟩

end Attributes

end SecurityKey
