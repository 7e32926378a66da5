import SecurityKey.Pattern
import SecurityKey.Text.Utf8.Ranges
/-!
# The size of patterns

A short pattern can describe a large machine, since what is repeated is laid out again for each
time. How large a pattern is, is measured by two automata that would read its texts byte by byte in
UTF-8: one forwards, which also marks where groups begin and end, and one backwards, which does not.
Each state takes thirty-two bytes, a fork four more for each of its ways, and a state that tells
ranges of bytes apart eight more for each range.

Only the bytes are counted here. Nothing is laid out, and a repetition costs no more to count than
its body.
-/

namespace SecurityKey

open Text.Utf8

/-- The two ways to read a text. -/
inductive Direction
  | forwards
  | backwards
deriving DecidableEq

/-- What a state takes. -/
def stateSize : Nat := 32

/-- What a fork takes that leads so many ways. -/
def forkSize (ways : Nat) : Nat := stateSize + 4 * ways

/-- What a state takes that tells so many ranges of bytes apart. -/
def rangesSize (ranges : Nat) : Nat := stateSize + 8 * ranges

/-- Several sizes together. -/
def totalSize (sizes : List Nat) : Nat := sizes.foldr (· + ·) 0

namespace CharSet

/-- The ways to go on from a place in some sequences of byte ranges, by their next range. -/
def branches (sequences : List (List ByteRange)) : List (List (List ByteRange)) :=
  (sequences.splitBy fun first second => first.head? = second.head?).map (·.map List.tail)

/-- The places that a reader of sequences of byte ranges can be in, each given by what is still to
come there; none of the sequences is longer than the first argument. -/
def places : Nat → List (List ByteRange) → List (List (List ByteRange))
  | 0, _ => []
  | length + 1, sequences =>
    if sequences.all List.isEmpty then []
    else sequences :: (branches sequences).flatMap (places length)

/-- What the states take that read one character of a set.

Forwards, places where the same is to come are one. Backwards, sequences share what they begin with
and nothing else. A shared beginning is found again in a table of a thousand entries; where two
beginnings fall on one entry, the earlier one is forgotten and laid out once more, and `again` is
what that comes to on average. -/
def size (direction : Direction) (set : CharSet) : Nat :=
  match set.only? with
  | some c => c.utf8Size * stateSize
  | none =>
    if set.stretches.all (·.last < 0x80) then stateSize + rangesSize set.stretches.length
    else
      let sequences := set.stretches.flatMap fun stretch => byteRanges stretch.first stretch.last
      let places := places 4 sequences
      match direction with
      | .forwards =>
        stateSize +
          totalSize (places.eraseDups.map fun place => rangesSize (branches place).length)
      | .backwards =>
        let beginnings := totalSize (places.map fun place => (branches place).length)
        let again := stateSize * beginnings * beginnings / 100000
        stateSize + forkSize sequences.length + stateSize * beginnings + again

example : any.size .forwards = 424 ∧ any.size .backwards = 1000 := by decide +kernel
example : digits.size .forwards = 1584 ∧ digits.size .backwards = 5123 := by decide +kernel

end CharSet

namespace Pattern

/-- The bytes of a pattern that describes one text, if it does and the text is not empty. -/
def bytes? : Pattern → Option (List UInt8)
  | .one set => set.only?.map String.utf8EncodeChar
  | .sequence first second => do return (← first.bytes?) ++ (← second.bytes?)
  | _ => none

/-- The texts that still follow at a place in a choice among texts, cut where a text ends there:
what comes before that end is preferred to it, and what comes after it is not. Ends that begin the
list are one. -/
def cut (texts : List (List UInt8)) : List (List (List UInt8)) :=
  let ends := texts.takeWhile List.isEmpty
  let rest := texts.dropWhile List.isEmpty
  let pieces := rest.foldr (fun text pieces =>
    match text, pieces with
    | [], _ => [] :: pieces
    | _, [] => [[text]]
    | _, piece :: pieces => (text :: piece) :: pieces) [[]]
  if ends.isEmpty then pieces else [] :: pieces

/-- What the states take of a choice among texts, none of them longer than the first argument. Texts
that begin alike share their beginning. -/
def textsSize : Nat → List (List UInt8) → Nat
  | 0, _ => 0
  | length + 1, texts =>
    if texts.all List.isEmpty then 0
    else
      let pieces := cut texts
      let stretches := pieces.filter (!·.isEmpty)
      let sizes := stretches.map fun piece =>
        let firsts := (piece.filterMap List.head?).eraseDups
        let own := if firsts.length = 1 then stateSize else rangesSize firsts.length
        let following := firsts.map fun first =>
          textsSize length ((piece.filter (·.head? = some first)).map List.tail)
        own + totalSize following
      forkSize (stretches.length + (pieces.length - 1)) + totalSize sizes

/-- What the states of a choice take, without its ways. -/
def choiceSize (direction : Direction) (alternatives : List Pattern) (separate : Nat) : Nat :=
  match alternatives.mapM bytes? with
  | some texts =>
    let texts := if direction = .backwards then texts.map List.reverse else texts
    stateSize + textsSize ((texts.map List.length).foldl max 0) texts
  | none => forkSize alternatives.length + stateSize + separate

/-- What the states of a pattern take, or if `among` is set and it is a choice, what its
alternatives take without what joins them. -/
def statesSize (direction : Direction) (among : Bool) : Pattern → Nat
  | .empty | .start | .finish => stateSize
  | .one set => set.size direction
  | .group _ body =>
    body.statesSize direction false + if direction = .forwards then 2 * stateSize else 0
  | .sequence first second =>
    first.statesSize direction false + second.statesSize direction false
  | .choice first second =>
    let separate := first.statesSize direction true + second.statesSize direction true
    if among then separate
    else choiceSize direction (first.options ++ second.options) separate
  | .repeated body least none _ =>
    let size := body.statesSize direction false
    if least = 0 then
      if body.canBeEmpty then size + 2 * forkSize 2 + stateSize else size + forkSize 2
    else least * size + forkSize 2
  | .repeated body least (some most) _ =>
    let size := body.statesSize direction false
    if least = 0 ∧ most = 1 then size + forkSize 2 + stateSize
    else
      let needed := if least = 0 then stateSize else least * size
      if most = least then needed
      else needed + (most - least) * (size + forkSize 2) + stateSize

/-- What the automaton takes that reads a pattern in some direction: besides the states of the
pattern, those that pass over what comes before it and those that it ends with. -/
def size (direction : Direction) (pattern : Pattern) : Nat :=
  pattern.statesSize direction false + stateSize + rangesSize 1 + forkSize 2 + stateSize +
    if direction = .forwards then 2 * stateSize else 0

/-- The size that no automaton of a pattern may exceed: ten mebibytes. -/
def maxSize : Nat := 10 * 1024 * 1024

/-- Whether a pattern is too large. -/
def isTooLarge (pattern : Pattern) : Bool :=
  maxSize < pattern.size .forwards || maxSize < pattern.size .backwards

end Pattern

end SecurityKey
