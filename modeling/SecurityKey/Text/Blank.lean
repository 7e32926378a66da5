/-!
# Blank characters, trimming and words

The blank characters are those of the Unicode property White_Space, all twenty-five of them. The
separators U+001C to U+001F, the zero-width space and the byte order mark are *not* among them.

`trim` removes blanks at both ends of a text, and `words` cuts a text at its blanks. A word is
never empty and holds no blank (`ne_nil_of_mem_words`, `not_isBlank_of_mem_words`).
-/

namespace SecurityKey.Text

/-- The Unicode property White_Space. -/
def isBlank (c : Char) : Bool :=
  let n := c.toNat
  (0x09 ≤ n && n ≤ 0x0D) || n == 0x20 || n == 0x85 || n == 0xA0 || n == 0x1680 ||
    (0x2000 ≤ n && n ≤ 0x200A) || n == 0x2028 || n == 0x2029 || n == 0x202F || n == 0x205F ||
    n == 0x3000

/-! ## Trimming -/

/-- A text without the characters in `p` that end it. -/
def dropTrailing (p : Char → Bool) (s : List Char) : List Char :=
  (s.reverse.dropWhile p).reverse

/-- A text without the blanks that begin it. -/
def trimStart (s : List Char) : List Char :=
  s.dropWhile isBlank

/-- A text without the blanks that end it. -/
def trimEnd (s : List Char) : List Char :=
  dropTrailing isBlank s

/-- A text without the blanks at its two ends. -/
def trim (s : List Char) : List Char :=
  trimEnd (trimStart s)

/-- `trim` on strings. -/
def trimmed (s : String) : String :=
  String.ofList (trim s.toList)

@[simp] theorem trim_nil : trim [] = [] := rfl

/-! ## Words -/

/-- The stretches of a text between the characters in `p`, empty ones included: one more than
there are such characters. -/
def stretches (p : Char → Bool) : List Char → List (List Char)
  | [] => [[]]
  | c :: s =>
    if p c then [] :: stretches p s
    else match stretches p s with
      | [] => [[c]]
      | w :: ws => (c :: w) :: ws

/-- The longest blank-free stretches of a text, in order. -/
def words (s : List Char) : List (List Char) :=
  (stretches isBlank s).filter fun w => !w.isEmpty

/-- Words with one space between each two. -/
def unwords : List (List Char) → List Char
  | [] => []
  | [w] => w
  | w :: ws => w ++ ' ' :: unwords ws

theorem not_mem_of_mem_stretches {p : Char → Bool} {s w : List Char} {c : Char}
    (hw : w ∈ stretches p s) (hc : c ∈ w) : p c = false := by
  induction s generalizing w with
  | nil => simp [stretches] at hw; simp [hw] at hc
  | cons d s ih =>
    by_cases hd : p d
    · simp only [stretches, hd, if_true, List.mem_cons] at hw
      rcases hw with rfl | hw
      · simp at hc
      · exact ih hw hc
    · simp only [stretches, hd, Bool.false_eq_true, if_false] at hw
      split at hw
      · simp at hw; subst hw; simp at hc; subst hc; simpa using hd
      · next v vs hv =>
        rcases List.mem_cons.1 hw with rfl | hw
        · rcases List.mem_cons.1 hc with rfl | hc
          · simpa using hd
          · exact ih (hv ▸ List.mem_cons_self) hc
        · exact ih (hv ▸ List.mem_cons_of_mem _ hw) hc

theorem ne_nil_of_mem_words {s w : List Char} (h : w ∈ words s) : w ≠ [] := by
  simp only [words, List.mem_filter] at h
  simpa using h.2

theorem not_isBlank_of_mem_words {s w : List Char} {c : Char} (hw : w ∈ words s) (hc : c ∈ w) :
    isBlank c = false :=
  not_mem_of_mem_stretches (List.mem_filter.1 hw).1 hc

end SecurityKey.Text
