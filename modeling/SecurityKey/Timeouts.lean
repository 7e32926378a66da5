import SecurityKey.Text.Numeral
/-!
# Bounds on waiting

Every wait is bounded. Times are in milliseconds.
-/

namespace SecurityKey

open Text

/-- How long each kind of wait may last. -/
structure Timeouts where
  /-- For an invocation to finish. -/
  invocation : Nat
  /-- For one prompt of a conversation. -/
  prompt : Nat
  /-- For the prompt that follows a touch of the key. -/
  touch : Nat
  /-- For an immediate refusal of a new PIN. -/
  policyProbe : Nat
  /-- How long after it was plugged in a key still accepts a factory reset. -/
  replugWindow : Nat
deriving DecidableEq

namespace Timeouts

/-- The usual bounds. -/
def standard : Timeouts := ⟨20000, 20000, 30000, 1000, 10000⟩

/-- The usual bounds, with one bound for invocations and prompts. -/
def ofBase (base : Nat) : Timeouts :=
  { standard with invocation := base, prompt := base }

/-- The bounds with their names. -/
def shown (timeouts : Timeouts) : String :=
  "Timeouts \x7b invocation: " ++ span timeouts.invocation ++
    ", prompt: " ++ span timeouts.prompt ++
    ", touch: " ++ span timeouts.touch ++
    ", policy_probe: " ++ span timeouts.policyProbe ++
    ", replug_window: " ++ span timeouts.replugWindow ++ " \x7d"

end Timeouts

end SecurityKey
