/-!
# Numbers in texts

A numeral is a non-empty run of the digits 0 to 9, with any number of leading zeros. Signs and
bounds are the reader's: a count takes one leading `+` or `-`, a size one leading `+`. A number
beyond its bounds is refused, however long its numeral, and never wraps.
-/

namespace SecurityKey.Text

/-- The number a run of digits denotes. -/
def valueOfDigits (digits : List Char) : Nat :=
  digits.foldl (fun n c => 10 * n + (c.toNat - '0'.toNat)) 0

/-- Reads a text that is one numeral and nothing else. -/
def readNat? (s : List Char) : Option Nat :=
  if s.isEmpty || !s.all Char.isDigit then none else some (valueOfDigits s)

/-- Reads an unsigned 64-bit number, with or without a plus sign. -/
def readUInt64? (s : List Char) : Option Nat :=
  (readNat? (if s.head? = some '+' then s.tail else s)).filter (· < UInt64.size)

/-- Reads a signed 64-bit number, with or without a sign. -/
def readInt64? (s : List Char) : Option Int :=
  let number : Option Int :=
    match s with
    | '-' :: digits => (readNat? digits).map fun n => -(n : Int)
    | '+' :: digits => (readNat? digits).map Int.ofNat
    | digits => (readNat? digits).map Int.ofNat
  number.filter fun n => Int64.minValue.toInt ≤ n && n ≤ Int64.maxValue.toInt

/-- The decimal numeral of a number. -/
def numeral (n : Nat) : String :=
  String.ofList (Nat.toDigits 10 n)

/-- The decimal numeral of an integer, with a minus sign below zero. -/
def signedNumeral : Int → String
  | .ofNat n => numeral n
  | .negSucc n => "-" ++ numeral (n + 1)

/-- A time of `ms` milliseconds: seconds with the decimals they need from one second up,
milliseconds below, and `0ns` for none at all. -/
def span (ms : Nat) : String :=
  if ms = 0 then "0ns"
  else if ms < 1000 then numeral ms ++ "ms"
  else if ms % 1000 = 0 then numeral (ms / 1000) ++ "s"
  else
    let thousandths := (Nat.toDigits 10 (1000 + ms % 1000)).tail
    let decimals := (thousandths.reverse.dropWhile (· == '0')).reverse
    numeral (ms / 1000) ++ "." ++ String.ofList decimals ++ "s"

example : readInt64? "-9223372036854775808".toList = some (-9223372036854775808) ∧
    readInt64? "9223372036854775808".toList = none ∧ readInt64? "+".toList = none := by decide

example : span 0 = "0ns" ∧ span 90 = "90ms" ∧ span 20000 = "20s" ∧ span 1050 = "1.05s" := by
  decide

end SecurityKey.Text
