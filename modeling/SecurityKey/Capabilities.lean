import SecurityKey.Attributes
import SecurityKey.Text.Case
/-!
# What a device can do

Three actions depend on what a device reports. A count that is missing or is no number counts as
nothing, so it never offers an action that the device may lack.
-/

namespace SecurityKey

open Text

/-- The actions that a device's attributes allow. -/
structure Capabilities where
  /-- There is at least one passkey to manage. -/
  passkeys : Bool
  /-- There is room for passkeys or, where room is not reported, a PIN attempt is left. -/
  changePin : Bool
  /-- Some attribute speaks of fingerprints. -/
  fingerprints : Bool
deriving DecidableEq

namespace Capabilities

/-- Whether a text speaks of fingerprints, in any case of its letters. -/
def mentionsFingerprint (text : String) : Bool :=
  occurs "fingerprint".toList (lowered text.toList)

/-- Whether the latest value of a name is a count above zero. -/
def positive (attributes : Attributes) (name : String) : Bool :=
  match attributes.count? name with
  | some n => 0 < n
  | none => false

/-- The actions that attributes allow. -/
def ofAttributes (attributes : Attributes) : Capabilities where
  passkeys := positive attributes "existing rk(s)"
  changePin :=
    if (attributes.get? "remaining rk(s)").isSome then positive attributes "remaining rk(s)"
    else positive attributes "pin retries"
  fingerprints :=
    attributes.rows.any fun row => mentionsFingerprint row.name || mentionsFingerprint row.value

end Capabilities

end SecurityKey
