/-!
# PINs

A PIN is kept for as long as a session and is never shown. The text `0000` stands for "no PIN is
set, or none is known": neither it nor the empty text is ever passed to the tool.

A new PIN is one that was entered twice, identically. The PIN dialogs take nothing else.
-/

namespace SecurityKey

/-- A PIN as it was entered. -/
structure Pin where
  text : String
deriving DecidableEq

namespace Pin

/-- What is entered when no PIN is set. -/
def placeholder : String := "0000"

/-- Whether a PIN stands for none. -/
def isPlaceholder (pin : Pin) : Bool :=
  pin.text = placeholder

/-- The PIN to pass to the tool, if there is any to pass. -/
def forTool? (pin : Option Pin) : Option String :=
  (pin.filter fun p => !p.text.isEmpty && !p.isPlaceholder).map Pin.text

/-- How any PIN is shown. -/
def shown (_ : Pin) : String := "Pin(***)"

end Pin

/-- A PIN that was entered twice, identically. -/
structure NewPin where
  pin : Pin
deriving DecidableEq

namespace NewPin

/-- The new PIN that two entries make, if they are the same. -/
def confirm? (first again : Pin) : Option NewPin :=
  if first = again then some ⟨first⟩ else none

/-- How any new PIN is shown. -/
def shown (_ : NewPin) : String := "ConfirmedPin(***)"

end NewPin

end SecurityKey
