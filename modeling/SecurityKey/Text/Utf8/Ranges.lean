/-!
# Stretches of characters as ranges of bytes

A program that reads UTF-8 byte by byte knows a stretch of characters by sequences of byte ranges:
a character belongs to the stretch if its bytes lie, one by one, in the ranges of one sequence.
`byteRanges` gives the sequences of a stretch, in the order of the characters and each as wide as
it can be. The surrogates, which are no characters, are left out.
-/

namespace SecurityKey.Text.Utf8

/-- Bytes from one to another, ends included. -/
abbrev ByteRange := Nat × Nat

/-- The sequences of the numbers from `first` to `last`, written with one byte for each of some
units, the largest unit first. The first byte is counted from `mark`, each later one from 0x80. -/
def spread (mark : Nat) : List Nat → Nat → Nat → List (List ByteRange)
  | [], _, _ => [[]]
  | unit :: units, first, last =>
    let part (low high first last : Nat) : List (List ByteRange) :=
      (spread 0x80 units first last).map ((mark + low, mark + high) :: ·)
    let low := first / unit
    let high := last / unit
    if low = high then part low low (first % unit) (last % unit)
    else
      -- The bytes at the two ends stand alone if not all that may follow them is in the stretch.
      let isWholeLow := first % unit = 0
      let isWholeHigh := last % unit = unit - 1
      let innerLow := if isWholeLow then low else low + 1
      let innerHigh := if isWholeHigh then high else high - 1
      (if isWholeLow then [] else part low low (first % unit) (unit - 1)) ++
        (if innerLow ≤ innerHigh then part innerLow innerHigh 0 (unit - 1) else []) ++
        (if isWholeHigh then [] else part high high 0 (last % unit))

/-- The characters that are written with equally many bytes. -/
structure Form where
  first : Nat
  last : Nat
  /-- What the first byte is counted from. -/
  mark : Nat
  /-- How much each byte counts. -/
  units : List Nat

/-- The forms in which characters are written. -/
def forms : List Form := [
  ⟨0, 0x7F, 0, [1]⟩, ⟨0x80, 0x7FF, 0xC0, [64, 1]⟩,
  ⟨0x800, 0xD7FF, 0xE0, [4096, 64, 1]⟩, ⟨0xE000, 0xFFFF, 0xE0, [4096, 64, 1]⟩,
  ⟨0x10000, 0x10FFFF, 0xF0, [262144, 4096, 64, 1]⟩]

/-- The sequences of byte ranges of the characters from `first` to `last`, by number. -/
def byteRanges (first last : Nat) : List (List ByteRange) :=
  forms.flatMap fun form =>
    let first := max first form.first
    let last := min last form.last
    if first ≤ last then spread form.mark form.units first last else []

example : byteRanges 0x41 0x3FF = [[(0x41, 0x7F)], [(0xC2, 0xCF), (0x80, 0xBF)]] := by decide
example : byteRanges 0x43F 0x481 =
    [[(0xD0, 0xD0), (0xBF, 0xBF)], [(0xD1, 0xD1), (0x80, 0xBF)], [(0xD2, 0xD2), (0x80, 0x81)]] := by
  decide
example : byteRanges 0x800 0xFFFF =
    [[(0xE0, 0xE0), (0xA0, 0xBF), (0x80, 0xBF)], [(0xE1, 0xEC), (0x80, 0xBF), (0x80, 0xBF)],
      [(0xED, 0xED), (0x80, 0x9F), (0x80, 0xBF)], [(0xEE, 0xEF), (0x80, 0xBF), (0x80, 0xBF)]] := by
  decide

end SecurityKey.Text.Utf8
