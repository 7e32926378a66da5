import SecurityKey.Pattern.CharSet
/-!
# Patterns

A pattern describes texts: characters out of a set, the two ends of the text, sequences, choices
and repetitions. Several stretches of a text may match, and a pattern has its preferences among
them: an earlier choice before a later one, and one more repetition before stopping, or the other
way round where the pattern is reluctant. `Pattern.Machine` turns the preferences into steps, and
`Pattern.Search` finds the stretch that is preferred.

Patterns are put together by `inOrder`, `choose` and `times`, which leave out what makes no
difference.
-/

namespace SecurityKey

/-- A description of texts. -/
inductive Pattern
  | empty
  /-- One character. -/
  | one (set : CharSet)
  /-- The beginning of the text. -/
  | start
  /-- The end of the text. -/
  | finish
  /-- A group, numbered by its place in the notation. -/
  | group (number : Nat) (body : Pattern)
  | sequence (first second : Pattern)
  /-- One of two, the first by preference. -/
  | choice (first second : Pattern)
  /-- From `least` to `most` times, or without an end, many by preference if `greedy` and few if
  not. -/
  | repeated (body : Pattern) (least : Nat) (most : Option Nat) (greedy : Bool)
deriving DecidableEq

namespace Pattern

/-- Whether a pattern describes the empty text, at some place of a text. -/
def canBeEmpty : Pattern → Bool
  | .empty | .start | .finish => true
  | .one _ => false
  | .group _ body => body.canBeEmpty
  | .sequence first second => first.canBeEmpty && second.canBeEmpty
  | .choice first second => first.canBeEmpty || second.canBeEmpty
  | .repeated body least _ _ => least = 0 || body.canBeEmpty

/-- Whether a pattern describes nothing but the empty text. -/
def isAlwaysEmpty : Pattern → Bool
  | .empty | .start | .finish => true
  | .one _ => false
  | .group _ body => body.isAlwaysEmpty
  | .sequence first second | .choice first second => first.isAlwaysEmpty && second.isAlwaysEmpty
  | .repeated body _ most _ => most = some 0 || body.isAlwaysEmpty

/-- The patterns that a pattern is a sequence of. -/
def parts : Pattern → List Pattern
  | .empty => []
  | .sequence first second => first.parts ++ second.parts
  | pattern => [pattern]

/-- The patterns that a pattern is a choice among. -/
def options : Pattern → List Pattern
  | .choice first second => first.options ++ second.options
  | pattern => [pattern]

/-- Whether a pattern describes one character and no other. -/
def isLetter : Pattern → Bool
  | .one set => set.only?.isSome
  | _ => false

/-- The parts of a pattern, where letters that follow each other make one word. -/
def words (pattern : Pattern) : List (List Pattern) :=
  pattern.parts.splitBy fun first second => first.isLetter && second.isLetter

/-- One pattern after the other. -/
def inOrder : List Pattern → Pattern
  | [] => .empty
  | [pattern] => pattern
  | pattern :: patterns => .sequence pattern (inOrder patterns)

/-- The set of characters that a choice comes to, if it is one among letters alone, or among wider
sets alone. -/
def commonSet? (alternatives : List Pattern) : Option CharSet := do
  let sets ← alternatives.mapM fun
    | .one set => some set
    | _ => none
  if alternatives.all isLetter || !alternatives.any isLetter then
    some (sets.foldl CharSet.union ⟨[]⟩)
  else none

/-- One of several patterns, an earlier one by preference. -/
def oneOf (alternatives : List Pattern) : Pattern :=
  match commonSet? alternatives with
  | some set => .one set
  | none => chain alternatives
where
  /-- A choice between each pattern and those after it. -/
  chain : List Pattern → Pattern
    | [] => .empty
    | [pattern] => pattern
    | pattern :: patterns => .choice pattern (chain patterns)

/-- What all lists begin with. -/
def sharedBeginning {α : Type} [DecidableEq α] : List (List α) → List α
  | [] => []
  | [items] => items
  | items :: others => shared items (sharedBeginning others)
where
  /-- What two lists begin with. -/
  shared : List α → List α → List α
    | a :: as, b :: bs => if a = b then a :: shared as bs else []
    | _, _ => []

/-- A choice among patterns. What several sequences all begin with stands before the choice, so
its preferences come before those of the choice. -/
def choose (alternatives : List Pattern) : Pattern :=
  let alternatives := alternatives.flatMap options
  let sequences := alternatives.map words
  let shared := sharedBeginning sequences
  if 1 < sequences.length && sequences.all (1 < ·.length) && !shared.isEmpty then
    let rests := sequences.map fun sequence => inOrder (sequence.drop shared.length).flatten
    inOrder (shared.flatten ++ [oneOf (rests.flatMap options)])
  else oneOf alternatives

/-- A repetition. What describes nothing but the empty text need not be repeated, and once is no
repetition. -/
def times (body : Pattern) (least : Nat) (most : Option Nat) (greedy : Bool) : Pattern :=
  let least := if body.isAlwaysEmpty then min least 1 else least
  let most := if body.isAlwaysEmpty then some ((most.getD 1).min 1) else most
  if most = some 0 then .empty
  else if least = 1 ∧ most = some 1 then body
  else .repeated body least most greedy

end Pattern

end SecurityKey
