import SecurityKey.Text.Lines
import SecurityKey.Text.Search
import SecurityKey.Text.Numeral
/-!
# Connected devices

The tool lists one device a line: its handle, a colon, and a description whose last part stands in
parentheses. A blank line and a line without a colon list nothing. The first slot of a card reader
is always known by one fixed handle, whatever else its line says.

Devices are numbered from 1 in the order of the listing, and a number means nothing outside the
listing it came from.
-/

namespace SecurityKey

open Text

/-- A connected device as one listing shows it. -/
structure Device where
  /-- What every later invocation names the device by. -/
  handle : String
  label : String
  /-- The place in the listing, from 1. -/
  ordinal : Nat
deriving DecidableEq

namespace Device

/-- How a device is offered for selection. -/
def shown (device : Device) : String :=
  "Device [" ++ numeral device.ordinal ++ "] : " ++ device.label

/-- The handle of the first slot of a card reader. -/
def readerSlot : String := "pcsc://slot0"

/-- The trimmed contents of the first pair of parentheses, if there is something in them. -/
def parenthesized? (line : List Char) : Option (List Char) := do
  let (_, rest) ← splitOnce? ['('] line
  let (inner, _) ← splitOnce? [')'] rest
  if (trim inner).isEmpty then none else some (trim inner)

/-- The handle and the label that one line lists. -/
def ofLine? (line : List Char) : Option (String × String) :=
  let line := trim line
  if !occurs [':'] line then none
  else if occurs readerSlot.toList line then some (readerSlot, readerSlot)
  else do
    let first ← (words line).head?
    let handle := dropTrailing (· == ':') first
    if handle.isEmpty then none
    else some (String.ofList handle, String.ofList ((parenthesized? line).getD handle))

/-- Devices numbered in order. -/
def number (listed : List (String × String)) : List Device :=
  listed.zipIdx.map fun ((handle, label), index) => ⟨handle, label, index + 1⟩

/-- The devices of a listing. -/
def ofListing (text : String) : List Device :=
  number ((lines text.toList).filterMap ofLine?)

example : ofListing "/dev/hidraw4: vendor=1 (Key)\n\npcsc://slot0: x\nnone\n" =
    [⟨"/dev/hidraw4", "Key", 1⟩, ⟨"pcsc://slot0", "pcsc://slot0", 2⟩] := by decide

end Device

end SecurityKey
