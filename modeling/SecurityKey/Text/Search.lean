/-!
# Searching a text

`splitOnce?` cuts a text around the first occurrence of a mark, `occurs` asks whether there is
one, and `earliest?` looks for several marks at once: the smallest position wins, and at one
position the mark that stands first in the list.
-/

namespace SecurityKey.Text

/-- The parts of a text before and after the first occurrence of `mark`. -/
def splitOnce? (mark : List Char) : List Char → Option (List Char × List Char)
  | [] => if mark.isEmpty then some ([], []) else none
  | c :: s =>
    match mark.isPrefixOf? (c :: s) with
    | some rest => some ([], rest)
    | none => (splitOnce? mark s).map fun (before, after) => (c :: before, after)

/-- Whether `mark` stands somewhere in a text. -/
def occurs (mark text : List Char) : Bool :=
  (splitOnce? mark text).isSome

/-- A mark found in a text: which one, and the text on its two sides. -/
structure Found where
  index : Nat
  before : List Char
  after : List Char
deriving DecidableEq

/-- The first mark of the list that the text begins with, and what follows it. -/
def leading? : List (List Char) → List Char → Option (Nat × List Char)
  | [], _ => none
  | mark :: marks, s =>
    match mark.isPrefixOf? s with
    | some rest => some (0, rest)
    | none => (leading? marks s).map fun (index, rest) => (index + 1, rest)

/-- The mark that stands at the smallest position of a text. -/
def earliest? (marks : List (List Char)) : List Char → Option Found
  | [] => (leading? marks []).map fun (index, rest) => ⟨index, [], rest⟩
  | c :: s =>
    match leading? marks (c :: s) with
    | some (index, rest) => some ⟨index, [], rest⟩
    | none => (earliest? marks s).map fun found => { found with before := c :: found.before }

/-! ## What is found is there -/

theorem isPrefixOf?_eq_some {mark s rest : List Char} :
    mark.isPrefixOf? s = some rest ↔ s = mark ++ rest := by
  induction mark generalizing s with
  | nil =>
    show some s = some rest ↔ s = rest
    exact Option.some_inj
  | cons m mark ih =>
    cases s with
    | nil =>
      show none = some rest ↔ [] = m :: mark ++ rest
      simp
    | cons c s =>
      show (if m == c then mark.isPrefixOf? s else none) = some rest ↔ c :: s = m :: mark ++ rest
      by_cases h : m = c
      · subst h; simp [ih]
      · simp [h, Ne.symm h]

/-- The two parts and the mark between them are the text. -/
theorem append_of_splitOnce? {mark s before after : List Char}
    (h : splitOnce? mark s = some (before, after)) : s = before ++ mark ++ after := by
  fun_induction splitOnce? mark s generalizing before after with
  | case1 hm => simp_all
  | case2 hm => simp at h
  | case3 c s rest hp => simp only [Option.some.injEq, Prod.mk.injEq] at h
                         obtain ⟨rfl, rfl⟩ := h
                         simpa using isPrefixOf?_eq_some.1 hp
  | case4 c s hp ih =>
    obtain ⟨⟨b, a⟩, hba, h⟩ := Option.map_eq_some_iff.1 h
    simp only [Prod.mk.injEq] at h
    obtain ⟨rfl, rfl⟩ := h
    simp [ih hba]

end SecurityKey.Text
