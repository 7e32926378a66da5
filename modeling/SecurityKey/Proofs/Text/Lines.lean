import Mathlib.Data.List.Basic
import Mathlib.Tactic.Common
import SecurityKey.Text.Lines
import SecurityKey.Text.Search
/-!
# Texts as lines

A text is its lines with newlines between them, so what is to be shown of a text is shown of one
line, and of a line with a newline and more lines behind it (`line_induction`).

**Marks.** A mark without a newline lies within one line. So whether a text holds it is decided
line by line (`infix_append_cons_iff`, `exists_line_iff`).

**Line ends.** `lines` takes one carriage return with each newline and leaves out an empty last
line. A reader that does not care about either of them gets the same from the plain pieces between
the newlines (`filterMap_lines`), and these are easier to reason about: those of a text that is put
together are those of its parts (`filterMap_lines_append`). `LaidOut` says of a text which lines it
was put together from, each with an end of its own, and such a reader reads just these
(`LaidOut.filterMap_lines`).
-/

namespace SecurityKey.Text

variable {s t line mark : List Char}

/-- What holds of every text without a newline, and goes on to a text with one more line before
it, holds of every text. -/
@[elab_as_elim]
theorem line_induction {motive : List Char → Prop} (last : ∀ s, '\n' ∉ s → motive s)
    (line : ∀ l s, '\n' ∉ l → motive s → motive (l ++ '\n' :: s)) (s : List Char) : motive s := by
  by_cases h : '\n' ∈ s
  · obtain ⟨l, rest, rfl, hl⟩ := List.eq_append_cons_of_mem h
    exact line l rest hl (line_induction last line rest)
  · exact last s h
termination_by s.length

/-! ## Marks within a line -/

/-- A mark does not reach over a character that it lacks. -/
theorem infix_append_cons_iff {c : Char} (h : c ∉ mark) :
    mark <:+: s ++ c :: t ↔ mark <:+: s ∨ mark <:+: t := by
  have not_begins : ∀ rest, rest ≠ [] → (∀ d ∈ rest, d ∈ mark) → ¬ rest <+: c :: t := by
    intro rest hne hsub hpre
    obtain ⟨d, more, rfl⟩ := List.exists_cons_of_ne_nil hne
    have hd : d = c := (List.cons_prefix_cons.1 hpre).1
    exact h (hd ▸ hsub d List.mem_cons_self)
  rw [List.infix_append_iff]
  constructor
  · rintro (hs | ht | ⟨l, r, rfl, hl, hr⟩)
    · exact .inl hs
    · rcases List.infix_cons_iff.1 ht with hpre | ht
      · by_cases hnil : mark = []
        · exact .inl (hnil ▸ List.nil_infix)
        · exact absurd hpre (not_begins mark hnil fun _ hd => hd)
      · exact .inr ht
    · by_cases hnil : r = []
      · subst hnil
        rw [List.append_nil]
        exact .inl hl.isInfix
      · exact absurd hr (not_begins r hnil fun _ hd => List.mem_append_right l hd)
  · rintro (hs | ht)
    · exact .inl hs
    · exact .inr (.inl (List.infix_cons ht))

/-- What a text has exactly if one of its two sides has it, at every newline, it has exactly if one
of its lines has it. -/
theorem exists_line_iff {P : List Char → Prop}
    (h : ∀ s t, P (s ++ '\n' :: t) ↔ P s ∨ P t) (s : List Char) :
    P s ↔ ∃ line ∈ s.splitOn '\n', P line := by
  induction s using line_induction with
  | last s hs => simp [List.splitOn_eq_singleton hs]
  | line l s hl ih => simp [h, ih, List.splitOn_append_cons_self, List.splitOn_eq_singleton hl]

/-! ## Lines and their ends -/

/-- What stands before a text without a newline of its own becomes part of its first line, unless
it ends in a carriage return that now belongs to a line end. -/
theorem lines_append {first : List Char} {rest : List (List Char)} (h : '\n' ∉ s)
    (hr : s.getLast? = some '\r' → t.head? ≠ some '\n') (ht : lines t = first :: rest) :
    lines (s ++ t) = (s ++ first) :: rest := by
  induction s with
  | nil => exact ht
  | cons c s ih =>
    obtain ⟨hc, hs⟩ : '\n' ≠ c ∧ '\n' ∉ s := by simpa using h
    by_cases hnil : s = []
    · subst hnil
      have hhead : c = '\r' → t.head? ≠ some '\n' := fun heq => hr (by simp [heq])
      simp [lines_cons hc.symm hhead, ht]
    · have hhead : c = '\r' → (s ++ t).head? ≠ some '\n' := by
        intro _ hfirst
        rw [List.head?_append, List.head?_eq_some_head hnil] at hfirst
        exact hs (Option.some.inj hfirst ▸ List.head_mem hnil)
      rw [List.getLast?_cons_of_ne_nil hnil] at hr
      rw [List.cons_append, lines_cons hc.symm hhead, ih hs hr]
      rfl

/-- What has no newline is one line, unless it is empty. -/
theorem lines_of_not_mem (h : '\n' ∉ s) : lines s = if s = [] then [] else [s] := by
  by_cases hnil : s = []
  · simp [hnil]
  · obtain ⟨body, c, rfl⟩ := List.eq_nil_or_concat s |>.resolve_left hnil
    obtain ⟨hbody, hc⟩ : '\n' ∉ body ∧ '\n' ≠ c := by simpa using h
    have hlast : lines [c] = [[c]] := lines_cons hc.symm fun _ hhead => nomatch hhead
    have hhead : [c].head? ≠ some '\n' := by simpa [eq_comm] using hc
    simpa using lines_append hbody (fun _ => hhead) hlast

/-- A line that no carriage return ends, and its newline. -/
theorem lines_append_newline (h : '\n' ∉ line) (hr : line.getLast? ≠ some '\r') (t : List Char) :
    lines (line ++ '\n' :: t) = line :: lines t := by
  simpa using lines_append h (fun heq => absurd heq hr) (lines_newline t)

/-- A line with a carriage return and a newline. -/
theorem lines_append_return (h : '\n' ∉ line) (t : List Char) :
    lines (line ++ '\r' :: '\n' :: t) = line :: lines t := by
  have hends : lines ('\r' :: '\n' :: t) = [] :: lines t := by rw [lines]
  simpa using lines_append h (fun _ => by simp) hends

/-- A newline ends a line, together with a carriage return right before it, whatever follows. -/
theorem lines_cut (h : '\n' ∉ line) : ∃ body, (line = body ∨ line = body ++ ['\r']) ∧
    ∀ t, lines (line ++ '\n' :: t) = body :: lines t := by
  by_cases hr : line.getLast? = some '\r'
  · obtain ⟨body, rfl⟩ := List.getLast?_eq_some_iff.1 hr
    have hbody : '\n' ∉ body := fun hmem => h (List.mem_append_left _ hmem)
    exact ⟨body, .inr rfl, fun t => by simpa using lines_append_return hbody t⟩
  · exact ⟨line, .inl rfl, lines_append_newline h hr⟩

/-- A text that a newline ends has its lines, whatever follows. -/
theorem lines_append_ended (s t : List Char) :
    lines (s ++ '\n' :: t) = lines (s ++ ['\n']) ++ lines t := by
  induction s using line_induction with
  | last s hs =>
    obtain ⟨body, -, hcut⟩ := lines_cut hs
    rw [hcut, hcut, lines_nil, List.singleton_append]
  | line l s hl ih =>
    obtain ⟨body, -, hcut⟩ := lines_cut hl
    simp [hcut, ih]

theorem eq_nil_of_lines (h : lines s = []) : s = [] := by
  revert h
  fun_cases lines s <;> simp

/-- The first line begins the text. -/
theorem prefix_of_lines {first : List Char} {rest : List (List Char)}
    (h : lines s = first :: rest) : first <+: s := by
  fun_induction lines s generalizing first rest with
  | case1 => cases h
  | case2 s _ => exact (List.cons.inj h).1 ▸ List.nil_prefix
  | case3 s _ => exact (List.cons.inj h).1 ▸ List.nil_prefix
  | case4 c s _ _ _ _ => exact (List.cons.inj h).1 ▸ List.cons_prefix_cons.2 ⟨rfl, List.nil_prefix⟩
  | case5 c s _ _ l ls hs ih => exact (List.cons.inj h).1 ▸ List.cons_prefix_cons.2 ⟨rfl, ih hs⟩

/-- What begins a text without a line end in it begins its first line. -/
theorem lines_append_start (h : '\n' ∉ s) (hne : s ≠ []) (hr : s.getLast? ≠ some '\r')
    (t : List Char) : ∃ first rest, lines (s ++ t) = (s ++ first) :: rest ∧ first <+: t := by
  cases ht : lines t with
  | nil =>
    obtain rfl := eq_nil_of_lines ht
    exact ⟨[], [], by simp [lines_of_not_mem h, hne], List.nil_prefix⟩
  | cons first rest =>
    exact ⟨first, rest, lines_append h (fun heq => absurd heq hr) ht, prefix_of_lines ht⟩

/-- A reader that skips empty lines and does not mind a carriage return at the end of a line reads
the plain pieces between the newlines as it reads the lines. -/
theorem filterMap_lines {α : Type} {f : List Char → Option α} (hempty : f [] = none)
    (hreturn : ∀ line, f (line ++ ['\r']) = f line) (s : List Char) :
    (lines s).filterMap f = (s.splitOn '\n').filterMap f := by
  induction s using line_induction with
  | last s hs =>
    rw [lines_of_not_mem hs, List.splitOn_eq_singleton hs]
    by_cases hnil : s = []
    · simp [hnil, hempty]
    · simp [hnil]
  | line l s hl ih =>
    rw [List.splitOn_append_cons_self, List.splitOn_eq_singleton hl]
    obtain ⟨body, hbody, hcut⟩ := lines_cut hl
    have hsame : f l = f body := by
      rcases hbody with rfl | rfl
      · rfl
      · exact hreturn body
    simp [hcut, List.filterMap_cons, hsame, ih]

/-- Such a reader takes a newline between two texts for the end of a line, whatever stands there. -/
theorem filterMap_lines_append {α : Type} {f : List Char → Option α} (hempty : f [] = none)
    (hreturn : ∀ line, f (line ++ ['\r']) = f line) (s t : List Char) :
    (lines (s ++ '\n' :: t)).filterMap f = (lines s).filterMap f ++ (lines t).filterMap f := by
  simp only [filterMap_lines hempty hreturn, List.splitOn_append_cons_self, List.filterMap_append]

/-! ## Texts put together from lines -/

/-- A text has these lines, each with one of the two line ends. The last one may have none. -/
inductive LaidOut : List (List Char) → List Char → Prop
  | nothing : LaidOut [] []
  | unended {line : List Char} : '\n' ∉ line → LaidOut [line] line
  | newline {line text : List Char} {rest : List (List Char)} : '\n' ∉ line →
      LaidOut rest text → LaidOut (line :: rest) (line ++ '\n' :: text)
  | returned {line text : List Char} {rest : List (List Char)} : '\n' ∉ line →
      LaidOut rest text → LaidOut (line :: rest) (line ++ '\r' :: '\n' :: text)

/-- Whether a text has these lines, each with a line end, found by taking off line by line. -/
def isLaidOut : List (List Char) → List Char → Bool
  | [], s => s.isEmpty
  | line :: rest, s =>
    decide ('\n' ∉ line) && match line.isPrefixOf? s with
      | some [] => rest.isEmpty
      | some ('\n' :: text) | some ('\r' :: '\n' :: text) => isLaidOut rest text
      | _ => false

theorem isLaidOut_iff {laid : List (List Char)} : isLaidOut laid s ↔ LaidOut laid s := by
  induction laid generalizing s with
  | nil =>
    rw [isLaidOut, List.isEmpty_iff]
    constructor
    · rintro rfl
      exact .nothing
    · rintro ⟨⟩
      rfl
  | cons line rest ih =>
    rw [isLaidOut, Bool.and_eq_true, decide_eq_true_eq]
    constructor
    · rintro ⟨hline, hrest⟩
      split at hrest
      · next hs =>
        obtain rfl := isPrefixOf?_eq_some.1 hs
        obtain rfl := List.isEmpty_iff.1 hrest
        rw [List.append_nil]
        exact .unended hline
      · next hs =>
        obtain rfl := isPrefixOf?_eq_some.1 hs
        exact .newline hline (ih.1 hrest)
      · next hs =>
        obtain rfl := isPrefixOf?_eq_some.1 hs
        exact .returned hline (ih.1 hrest)
      · cases hrest
    · intro h
      cases h with
      | unended hline => simp [hline, isPrefixOf?_eq_some.2 (List.append_nil _).symm]
      | newline hline h => simp [hline, isPrefixOf?_eq_some.2 rfl, ih.2 h]
      | returned hline h => simp [hline, isPrefixOf?_eq_some.2 rfl, ih.2 h]

instance {laid : List (List Char)} : Decidable (LaidOut laid s) :=
  decidable_of_iff _ isLaidOut_iff

/-- A reader that skips empty lines and does not mind a carriage return at the end of a line reads
the lines that a text was put together from. -/
theorem LaidOut.filterMap_lines {α : Type} {f : List Char → Option α} (hempty : f [] = none)
    (hreturn : ∀ line, f (line ++ ['\r']) = f line) {laid : List (List Char)}
    (h : LaidOut laid s) : (lines s).filterMap f = laid.filterMap f := by
  rw [Text.filterMap_lines hempty hreturn]
  induction h with
  | nothing => simp [hempty]
  | unended hline => rw [List.splitOn_eq_singleton hline]
  | newline hline _ ih =>
    rw [List.splitOn_append_cons_self, List.splitOn_eq_singleton hline, List.filterMap_append, ih,
      ← List.filterMap_append]
    rfl
  | @returned line text rest hline _ ih =>
    have hreturned : line ++ '\r' :: '\n' :: text = (line ++ ['\r']) ++ '\n' :: text := by simp
    have hwhole : '\n' ∉ line ++ ['\r'] := by simpa using hline
    have hsame : [line ++ ['\r']].filterMap f = [line].filterMap f := by
      simp [List.filterMap_cons, hreturn]
    rw [hreturned, List.splitOn_append_cons_self, List.splitOn_eq_singleton hwhole,
      List.filterMap_append, hsame, ih, ← List.filterMap_append]
    rfl

/-- Such a reader gives what each of the lines has. -/
theorem LaidOut.filterMap_lines_map {α ρ : Type} {f : List Char → Option α}
    (hempty : f [] = none) (hreturn : ∀ line, f (line ++ ['\r']) = f line) {rows : List ρ}
    {line : ρ → List Char} {given : ρ → Option α} (hrows : ∀ row ∈ rows, f (line row) = given row)
    (h : LaidOut (rows.map line) s) : (lines s).filterMap f = rows.filterMap given := by
  rw [h.filterMap_lines hempty hreturn, List.filterMap_map]
  exact List.filterMap_congr hrows

end SecurityKey.Text
