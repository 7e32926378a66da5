import SecurityKey.Text.Lines
import SecurityKey.Text.Search
import SecurityKey.Text.Numeral
/-!
# The minimum PIN length

A device reports the shortest PIN it takes on a line `minpinlen: 6`. The first line whose name is
exactly that decides: its value is the run of digits that follows the blanks after the colon, and a
run that is empty or denotes a number beyond 32 bits leaves the length unknown.
-/

namespace SecurityKey.PinPolicy

open Text

/-- The text after the first colon of a line, if what stands before it is `name`. -/
def valueOf? (name : String) (line : List Char) : Option (List Char) := do
  let (key, value) ← splitOnce? [':'] line
  if trim key = name.toList then some value else none

/-- The number that a value begins with. -/
def leadingNumber? (value : List Char) : Option Nat :=
  (readNat? ((trimStart value).takeWhile Char.isDigit)).filter (· < UInt32.size)

/-- The minimum PIN length that a report gives. -/
def minLength? (report : String) : Option Nat :=
  ((lines report.toList).findSome? (valueOf? "minpinlen")).bind leadingNumber?

example : minLength? "maxrpids in minpinlen: 0\nminpinlen:\t6 (default)\n" = some 6 := by decide

end SecurityKey.PinPolicy
