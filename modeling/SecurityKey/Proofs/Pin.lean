import Mathlib.Tactic.Common
import SecurityKey.Invocation
import SecurityKey.Session
/-!
# Which PINs are passed on

Two filters stand between a PIN that was entered and the tool. A session gives back every PIN but
the placeholder (`Session.pin?_eq_some`), and an argument list leaves out the empty one as well. A
PIN that is `Usable` goes through both and is passed on behind the flag (`Invocation.pinArgs_some`).
-/

namespace SecurityKey

/-- A PIN that stands for one: it is neither empty nor the placeholder. -/
structure Pin.Usable (pin : Pin) : Prop where
  nonempty : pin.text ≠ ""
  notPlaceholder : pin.text ≠ placeholder

variable {session : Session} {pin other : Pin}

theorem Pin.Usable.forTool?_some (h : pin.Usable) : Pin.forTool? (some pin) = some pin.text := by
  simp [Pin.forTool?, Pin.isPlaceholder, Option.filter_some, h.nonempty, h.notPlaceholder]

theorem Invocation.pinArgs_some (h : pin.Usable) : pinArgs (some pin) = [pinFlag, pin.text] := by
  rw [pinArgs, h.forTool?_some]

/-- The session gives back every PIN but the placeholder. -/
theorem Session.pin?_eq_some :
    session.pin? = some pin ↔ session.entered = some pin ∧ pin.text ≠ Pin.placeholder := by
  rw [pin?, Option.filter_eq_some_iff, Pin.isPlaceholder, Bool.not_eq_true',
    decide_eq_false_iff_not]

theorem Session.pin?_enterPin :
    (session.enterPin pin).pin? = some other ↔ other = pin ∧ pin.text ≠ Pin.placeholder := by
  rw [Session.pin?_eq_some, enterPin, Option.some.injEq, eq_comm]
  exact and_congr_right fun h => by rw [h]

theorem Pin.Usable.pin?_enterPin (h : pin.Usable) : (session.enterPin pin).pin? = some pin :=
  Session.pin?_enterPin.2 ⟨rfl, h.notPlaceholder⟩

end SecurityKey
