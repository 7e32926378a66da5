import SecurityKey.Pattern.Size
import SecurityKey.Text.Numeral
/-!
# The notation of patterns

Patterns are written in the usual notation of regular expressions: most characters stand for
themselves, `.` for any character but the newline, `[a-c]` for a class, `\d` for a decimal digit of
any script, `^` and `$` for the two ends, `|` for a choice, parentheses for a group, and `*`, `+`,
`?`, `{2}`, `{2,}` and `{2,4}` for repetitions, reluctant with one more `?`. `(?i)` ignores case up
to the end of its group.

Reading goes in two steps. The first cuts the notation into tokens, the second builds the pattern
with a stack of the groups that are open. What is not in the notation is refused: an unclosed group
or class, a closing parenthesis too many, a repetition of nothing, bounds in the wrong order, an
escape of nothing. A pattern that is nested too deep or is too large is refused too.
-/

namespace SecurityKey.Pattern

open Text

/-- A piece of the notation. -/
inductive Token
  /-- One character out of a set or, with `complement`, out of its complement. A class is nested as
  deep as `depth` says. -/
  | one (set : CharSet) (complement : Bool) (depth : Nat)
  | start
  | finish
  | bar
  /-- Opens a group, which may be numbered and may set whether case is ignored in it. -/
  | openGroup (numbered : Bool) (ignoreCase : Option Bool)
  | closeGroup
  /-- Sets whether case is ignored from here on. -/
  | flag (ignoreCase : Bool)
  /-- Repeats what stands before it. -/
  | times (least : Nat) (most : Option Nat) (greedy : Bool)
deriving DecidableEq

/-! ## Tokens -/

/-- What the character after a backslash stands for: a set, or with `true` what is not in it. -/
def escaped? (c : Char) : Option (CharSet × Bool) :=
  let letter (c : Char) : Option (CharSet × Bool) := some (.single c, false)
  if c = 'd' then some (.digits, false)
  else if c = 'D' then some (.digits, true)
  else if c = 's' then some (.blanks, false)
  else if c = 'S' then some (.blanks, true)
  else if c = 'n' then letter '\n'
  else if c = 'r' then letter '\r'
  else if c = 't' then letter '\t'
  else if c = 'f' then letter '\x0c'
  else if c = 'v' then letter '\x0b'
  else if c = 'a' then letter '\x07'
  else if c.isAlphanum || c = '<' || c = '>' || c.toNat ≥ 0x80 || c.toNat < 0x20 then none
  else letter c

/-- One item, or one end of a range, at the beginning of the rest of a class. -/
def item? : List Char → Option (CharSet × List Char)
  | [] => none
  | '\\' :: c :: s =>
    (escaped? c).map fun (set, complement) => (if complement then set.complement else set, s)
  | '\\' :: [] => none
  | c :: s => some (.single c, s)

/-- A range of characters, from two sets of one character each. -/
def range? (first last : CharSet) : Option CharSet := do
  let first ← first.only?
  let last ← last.only?
  if h : first.toNat ≤ last.toNat then some ⟨[⟨first.toNat, last.toNat, h⟩]⟩ else none

/-- The items of a class, up to the bracket that closes it. A hyphen between two characters makes a
range of them, unless it comes last. -/
def items? : Nat → List Char → Option (List CharSet × List Char)
  | 0, _ | _, [] | _, '[' :: _ => none
  | _, ']' :: s => some ([], s)
  | fuel + 1, s => do
    let (item, s) ← item? s
    let (item, s) ← match s with
      | '-' :: ']' :: _ => some (item, s)
      | '-' :: '-' :: _ => none
      | '-' :: s => do
        let (last, s) ← item? s
        some (← range? item last, s)
      | _ => some (item, s)
    let (items, s) ← items? fuel s
    some (item :: items, s)

/-- A class, from behind the bracket that opens it. Hyphens that come first stand for themselves,
and so does a closing bracket. A class of several items is nested deeper than one of a single
item. -/
def charClass? (s : List Char) : Option (Token × List Char) := do
  let (complement, s) := if s.head? = some '^' then (true, s.tail) else (false, s)
  let hyphens := s.takeWhile (· = '-')
  let s := s.dropWhile (· = '-')
  let (bracket, s) :=
    if hyphens.isEmpty && s.head? = some ']' then ([']'], s.tail) else ([], s)
  let (items, s) ← items? (s.length + 1) s
  let items := (hyphens ++ bracket).map CharSet.single ++ items
  some (.one (items.foldl .union ⟨[]⟩) complement (if items.length = 1 then 1 else 2), s)

/-- A count at the beginning of a text, with blanks around it, and what follows. -/
def count? (s : List Char) : Option (Nat × List Char) := do
  let s := trimStart s
  let count ← readNat? (s.takeWhile Char.isDigit)
  if count < UInt32.size then some (count, trimStart (s.dropWhile Char.isDigit)) else none

/-- The bounds of a counted repetition, from behind its opening brace. -/
def bounds? (s : List Char) : Option (Nat × Option Nat × List Char) := do
  match ← count? s with
  | (least, '\x7d' :: s) => some (least, some least, s)
  | (least, ',' :: '\x7d' :: s) => some (least, none, s)
  | (least, ',' :: s) =>
    match ← count? s with
    | (most, '\x7d' :: s) => if most < least then none else some (least, some most, s)
    | _ => none
  | _ => none

/-- A repetition of the given bounds, reluctant if a question mark follows. -/
def repetition (least : Nat) (most : Option Nat) (s : List Char) : Token × List Char :=
  if s.head? = some '?' then (.times least most false, s.tail) else (.times least most true, s)

/-- The token at the beginning of a notation. -/
def token? : List Char → Option (Token × List Char)
  | [] => none
  | '\\' :: 'A' :: s => some (.start, s)
  | '\\' :: 'z' :: s => some (.finish, s)
  | '\\' :: c :: s => (escaped? c).map fun (set, complement) => (.one set complement 0, s)
  | '\\' :: [] => none
  | '[' :: s => charClass? s
  | '(' :: '?' :: 'i' :: ')' :: s => some (.flag true, s)
  | '(' :: '?' :: '-' :: 'i' :: ')' :: s => some (.flag false, s)
  | '(' :: '?' :: 'i' :: ':' :: s => some (.openGroup false (some true), s)
  | '(' :: '?' :: '-' :: 'i' :: ':' :: s => some (.openGroup false (some false), s)
  | '(' :: '?' :: ':' :: s => some (.openGroup false none, s)
  | '(' :: '?' :: _ => none
  | '(' :: s => some (.openGroup true none, s)
  | ')' :: s => some (.closeGroup, s)
  | '|' :: s => some (.bar, s)
  | '.' :: s => some (.one .any false 0, s)
  | '^' :: s => some (.start, s)
  | '$' :: s => some (.finish, s)
  | '*' :: s => some (repetition 0 none s)
  | '+' :: s => some (repetition 1 none s)
  | '?' :: s => some (repetition 0 (some 1) s)
  | '\x7b' :: s => (bounds? s).map fun (least, most, s) => repetition least most s
  | c :: s => some (.one (.single c) false 0, s)

/-- The tokens of a notation. -/
def tokens? : Nat → List Char → Option (List Token)
  | _, [] => some []
  | 0, _ => none
  | fuel + 1, s => do
    let (token, s) ← token? s
    let rest ← tokens? fuel s
    some (token :: rest)

/-! ## Patterns from tokens -/

/-- A part of the notation that is read: its pattern, and how deep it is nested. -/
structure Part where
  pattern : Pattern
  depth : Nat

/-- How deep several things are nested that make one together: one deeper than the deepest, and a
thing alone no deeper than it is. -/
def depthTogether : List Nat → Nat
  | [depth] => depth
  | [] => 0
  | depths => 1 + depths.foldl max 0

/-- A group that is open: its number if it has one, the alternatives read so far, last one first,
and the sequence after them, last part first. A part is missing where case was switched, since a
switch cannot be repeated. -/
structure Group where
  number : Option Nat
  alternatives : List Part
  parts : List (Option Part)
  ignoreCase : Bool

namespace Group

/-- A group of which nothing is read. -/
def fresh (number : Option Nat) (ignoreCase : Bool) : Group := ⟨number, [], [], ignoreCase⟩

/-- A group when one more part of it is read. -/
def add (group : Group) (pattern : Pattern) (depth : Nat) : Group :=
  { group with parts := some ⟨pattern, depth⟩ :: group.parts }

/-- A group when the sequence at its end is read as an alternative. -/
def alternative (group : Group) : Group :=
  let last : Part :=
    { pattern := inOrder ((group.parts.reverse.filterMap id).flatMap (·.pattern.parts))
      depth := depthTogether (group.parts.map fun part => (part.map Part.depth).getD 0) }
  { group with alternatives := last :: group.alternatives, parts := [] }

/-- What a group that ends here is. -/
def close (group : Group) : Part :=
  let alternatives := group.alternative.alternatives.reverse
  let body := choose (alternatives.map Part.pattern)
  { pattern := match group.number with
      | some number => .group number body
      | none => body
    depth := depthTogether (alternatives.map Part.depth) }

end Group

/-- Reads tokens into the innermost open group, when `count` groups are numbered already; `outer`
are the groups around it. -/
def build (count : Nat) (group : Group) (outer : List Group) : List Token → Option Part
  | [] => if outer.isEmpty then some group.close else none
  | .one set complement depth :: tokens =>
    let set := if group.ignoreCase then set.ignoringCase else set
    let set := if complement then set.complement else set
    build count (group.add (.one set) depth) outer tokens
  | .start :: tokens => build count (group.add .start 0) outer tokens
  | .finish :: tokens => build count (group.add .finish 0) outer tokens
  | .bar :: tokens => build count group.alternative outer tokens
  | .openGroup numbered ignoreCase :: tokens =>
    let ignoreCase := ignoreCase.getD group.ignoreCase
    if numbered then build (count + 1) (.fresh (some count) ignoreCase) (group :: outer) tokens
    else build count (.fresh none ignoreCase) (group :: outer) tokens
  | .closeGroup :: tokens =>
    match outer with
    | [] => none
    | parent :: outer =>
      let inner := group.close
      build count (parent.add inner.pattern (inner.depth + 1)) outer tokens
  | .flag ignoreCase :: tokens =>
    build count { group with parts := none :: group.parts, ignoreCase } outer tokens
  | .times least most greedy :: tokens =>
    match group.parts with
    | some last :: parts =>
      let group := { group with parts }
      build count (group.add (last.pattern.times least most greedy) (last.depth + 1)) outer tokens
    | _ => none

/-- How deep a pattern may be nested. -/
def maxDepth : Nat := 250

/-- The pattern that a notation writes. -/
def read? (written : String) : Option Pattern := do
  let tokens ← tokens? written.toList.length written.toList
  let whole ← build 0 (.fresh none false) [] tokens
  if maxDepth < whole.depth || whole.pattern.isTooLarge then none else some whole.pattern

end SecurityKey.Pattern
