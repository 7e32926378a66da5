/-!
# UTF-8 in pieces

A decoder takes a byte string in chunks of any size. A sequence that a chunk leaves unfinished
waits for the next one; bytes that cannot begin or continue a well-formed sequence become the
replacement character, one for every maximal part that was right so far.

The state is the unfinished sequence itself, so it never has more than three bytes, and the text
does not depend on the cuts: `feed_append` says that feeding two chunks is feeding the one they
make.
-/

namespace SecurityKey.Text.Utf8

/-- An unfinished sequence: its bytes, the bits they carry, and the ranges, ends included, that
the bytes still to come must lie in. Nothing is to come between two characters. -/
structure Unfinished where
  bytes : List UInt8
  bits : Nat
  ranges : List (Nat × Nat)
deriving DecidableEq

/-- The decoder between two characters. -/
def Unfinished.none : Unfinished := ⟨[], 0, []⟩

/-- Stands for every maximal part of a byte string that is not UTF-8. -/
def replacement : Char := '\uFFFD'

/-- The bits that a lead byte carries and the ranges of the bytes that follow it. The narrower
second ranges keep out overlong forms, surrogates and numbers above U+10FFFF. -/
def lead? (b : Nat) : Option (Nat × List (Nat × Nat)) :=
  if 0xC2 ≤ b ∧ b ≤ 0xDF then some (b - 0xC0, [(0x80, 0xBF)])
  else if b = 0xE0 then some (0, [(0xA0, 0xBF), (0x80, 0xBF)])
  else if b = 0xED then some (0xD, [(0x80, 0x9F), (0x80, 0xBF)])
  else if 0xE1 ≤ b ∧ b ≤ 0xEF then some (b - 0xE0, [(0x80, 0xBF), (0x80, 0xBF)])
  else if b = 0xF0 then some (0, [(0x90, 0xBF), (0x80, 0xBF), (0x80, 0xBF)])
  else if 0xF1 ≤ b ∧ b ≤ 0xF3 then some (b - 0xF0, [(0x80, 0xBF), (0x80, 0xBF), (0x80, 0xBF)])
  else if b = 0xF4 then some (4, [(0x80, 0x8F), (0x80, 0xBF), (0x80, 0xBF)])
  else none

/-- A byte between two characters. -/
def begin (b : UInt8) : List Char × Unfinished :=
  if b < 0x80 then ([Char.ofNat b.toNat], .none)
  else match lead? b.toNat with
    | some (bits, ranges) => ([], ⟨[b], bits, ranges⟩)
    | none => ([replacement], .none)

/-- One byte: the characters it completes, and the sequence it leaves unfinished. -/
def step (u : Unfinished) (b : UInt8) : List Char × Unfinished :=
  match u.ranges with
  | [] => begin b
  | (low, high) :: ranges =>
    if low ≤ b.toNat ∧ b.toNat ≤ high then
      let bits := u.bits * 64 + (b.toNat - 0x80)
      if ranges.isEmpty then ([Char.ofNat bits], .none)
      else ([], ⟨u.bytes ++ [b], bits, ranges⟩)
    else
      let (text, next) := begin b
      (replacement :: text, next)

/-- A chunk of bytes: the characters it completes, and the sequence it leaves unfinished. -/
def feed (u : Unfinished) : List UInt8 → List Char × Unfinished
  | [] => ([], u)
  | b :: bytes =>
    let (text, next) := step u b
    let (more, last) := feed next bytes
    (text ++ more, last)

/-- What an unfinished sequence becomes when no more bytes follow. -/
def Unfinished.finish (u : Unfinished) : List Char :=
  if u.bytes.isEmpty then [] else [replacement]

/-- The text of a whole byte string. -/
def decode (bytes : List UInt8) : String :=
  let (text, last) := feed .none bytes
  String.ofList (text ++ last.finish)

theorem feed_append (u : Unfinished) (a b : List UInt8) :
    feed u (a ++ b) = ((feed u a).1 ++ (feed (feed u a).2 b).1, (feed (feed u a).2 b).2) := by
  induction a generalizing u with
  | nil => simp [feed]
  | cons x a ih => simp [feed, ih]

example : decode [0xC0, 0x80] = "\uFFFD\uFFFD" ∧ decode [0xE2, 0x82] = "\uFFFD" ∧
    decode [0xED, 0xA0, 0x80] = "\uFFFD\uFFFD\uFFFD" ∧ decode [0xF0, 0x9F, 0x94, 0x91] = "🔑" := by
  decide

end SecurityKey.Text.Utf8
