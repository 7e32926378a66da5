import SecurityKey.Text.Blank
/-!
# Lines

A line ends at a newline. One carriage return right before the newline belongs to the line end;
one at the end of a text without a final newline belongs to the line. What follows the last
newline is a line only if it is not empty.
-/

namespace SecurityKey.Text

/-- The lines of a text, without their ends. -/
def lines : List Char → List (List Char)
  | [] => []
  | '\n' :: s => [] :: lines s
  | '\r' :: '\n' :: s => [] :: lines s
  | c :: s =>
    match lines s with
    | [] => [[c]]
    | l :: ls => (c :: l) :: ls

/-- A line without the carriage returns that end it. -/
def dropReturns (line : List Char) : List Char :=
  dropTrailing (· == '\r') line

@[simp] theorem lines_nil : lines [] = [] := rfl

@[simp] theorem lines_newline (s : List Char) : lines ('\n' :: s) = [] :: lines s := by
  simp [lines]

theorem lines_cons {c : Char} {s : List Char} (hn : c ≠ '\n')
    (hr : c = '\r' → s.head? ≠ some '\n') :
    lines (c :: s) = match lines s with
      | [] => [[c]]
      | l :: ls => (c :: l) :: ls := by
  rw [lines]
  · exact hn
  · rintro t rfl rfl; exact hr rfl rfl

/-- No line holds a newline. -/
theorem newline_not_mem_of_mem_lines {s line : List Char} (h : line ∈ lines s) : '\n' ∉ line := by
  fun_induction lines s generalizing line with
  | case1 => simp at h
  | case2 s ih =>
    rcases List.mem_cons.1 h with rfl | h
    · simp
    · exact ih h
  | case3 s ih =>
    rcases List.mem_cons.1 h with rfl | h
    · simp
    · exact ih h
  | case4 c s hn _ hs ih => simp at h; subst h; simpa [eq_comm] using hn
  | case5 c s hn _ l ls hs ih =>
    rw [hs] at ih
    rcases List.mem_cons.1 h with rfl | h
    · have := @ih l List.mem_cons_self
      simpa [eq_comm, this] using hn
    · exact ih (List.mem_cons_of_mem _ h)

end SecurityKey.Text
