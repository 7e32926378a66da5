import SecurityKey.Capabilities
import SecurityKey.Device
import SecurityKey.Pin
/-!
# Sessions

A session is the device that was selected, the PIN that was entered for it, and what was last
loaded from it. It belongs to whoever selected the device, and every operation on it gives it back.
-/

namespace SecurityKey

/-- A selected device and what is known about it. -/
structure Session where
  device : Device
  /-- The PIN as it was entered last, whatever it stands for. -/
  entered : Option Pin
  attributes : Attributes
deriving DecidableEq

namespace Session

/-- A session on a device of which nothing is known yet. -/
def begin (device : Device) (pin : Option Pin) : Session :=
  ⟨device, pin, .empty⟩

/-- The handle of the session's device. -/
def handle (session : Session) : String :=
  session.device.handle

/-- The PIN of a session. The placeholder counts as none. -/
def pin? (session : Session) : Option Pin :=
  session.entered.filter fun pin => !pin.isPlaceholder

/-- The session with another PIN. -/
def enterPin (session : Session) (pin : Pin) : Session :=
  { session with entered := some pin }

/-- The session with other attributes. -/
def withAttributes (session : Session) (attributes : Attributes) : Session :=
  { session with attributes }

/-- What the device of a session can do, as far as is known. -/
def capabilities (session : Session) : Capabilities :=
  .ofAttributes session.attributes

end Session

end SecurityKey
