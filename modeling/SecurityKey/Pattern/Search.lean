import SecurityKey.Pattern.Machine
/-!
# Searching a text for a pattern

A machine is followed along all its ways at once, side by side in the order of preference, while
the text is read once. Before each character a new way begins, after all others: what begins
earlier is preferred. Then the ways are followed as far as they go without taking a character. A
step that a preferred way has come to is not looked at again, so there are never more ways than
steps, and no round of a repetition goes on without taking anything. A way that reaches the goal
is the best so far: those after it are given up, no new one begins, and those before it go on.

`find?` gives the stretch of a text that begins first and, of those that begin there, the one that
is preferred.

Main statement: `infix_of_find?`, what is found stands in the text.
-/

namespace SecurityKey.Pattern

/-- What a step can tell of its place in a text. -/
structure Place where
  isStart : Bool
  isFinish : Bool

/-- A way through a machine: the step that it has come to, and where in the text it began. -/
structure Way where
  step : Nat
  began : Nat
deriving DecidableEq

namespace Machine

/-- Follows the `pending` ways, in the order of preference, without taking a character. `ways` are
those that can go no further, last one first; `seen` has the number `stamp` at each step that was
come to. What comes after a way to the goal is given up. -/
def follow (machine : Machine) (place : Place) (stamp : Nat) :
    Nat → List Way → List Way → Array Nat → List Way × Array Nat
  | 0, _, ways, seen => (ways, seen)
  | _, [], ways, seen => (ways, seen)
  | fuel + 1, way :: pending, ways, seen =>
    if seen[way.step]? = some stamp then follow machine place stamp fuel pending ways seen
    else
      let seen := seen.setIfInBounds way.step stamp
      let on (next : Nat) : Way := { way with step := next }
      match machine[way.step]? with
      | some (.goTo next) => follow machine place stamp fuel (on next :: pending) ways seen
      | some (.fork preferred other) =>
        follow machine place stamp fuel (on preferred :: on other :: pending) ways seen
      | some (.atStart next) =>
        let pending := if place.isStart then on next :: pending else pending
        follow machine place stamp fuel pending ways seen
      | some (.atFinish next) =>
        let pending := if place.isFinish then on next :: pending else pending
        follow machine place stamp fuel pending ways seen
      | some (.take ..) => follow machine place stamp fuel pending (way :: ways) seen
      | none => (way :: ways, seen)

/-- Where a way leads if its step takes a character. -/
def taken? (machine : Machine) (c : Char) (way : Way) : Option Way :=
  match machine[way.step]? with
  | some (.take set next) => if set.has c then some { way with step := next } else none
  | _ => none

/-- Follows some ways along the text `s`, which begins at `position`, and gives where the best
match begins and ends. It is `best` if neither these ways nor those that still begin have one. -/
def run (machine : Machine) (position : Nat) (ways : List Way) (best : Option (Nat × Nat))
    (seen : Array Nat) (s : List Char) : Option (Nat × Nat) :=
  let pending := if best.isNone then ways ++ [⟨0, position⟩] else ways
  -- Each step is looked at once and leads to two at most, so this is enough to follow them all.
  let fuel := pending.length + 2 * (machine.size + 1)
  let (ways, seen) := machine.follow ⟨position = 0, s.isEmpty⟩ (position + 1) fuel pending [] seen
  let best := match ways with
    | ⟨step, began⟩ :: _ => if step = machine.size then some (began, position) else best
    | [] => best
  match s with
  | [] => best
  | c :: s =>
    let ways := ways.reverse.filterMap (machine.taken? c)
    if ways.isEmpty && best.isSome then best else machine.run (position + 1) ways best seen s

/-- The stretch of a text that matches first. -/
def find? (machine : Machine) (s : List Char) : Option (List Char) :=
  (machine.run 0 [] none (Array.replicate (machine.size + 1) 0) s).map fun (first, last) =>
    (s.take last).drop first

theorem infix_of_find? {machine : Machine} {s t : List Char} (h : machine.find? s = some t) :
    t <:+: s := by
  obtain ⟨⟨first, last⟩, -, rfl⟩ := Option.map_eq_some_iff.1 h
  exact (List.drop_suffix _ _).isInfix.trans (List.take_prefix _ _).isInfix

end Machine

example : (Pattern.repeated (.choice (.repeated (.one (.single 'a')) 0 none true)
    (.one (.single 'b'))) 0 none true).machine.find? ['a', 'b', 'a', 'c'] =
    some ['a', 'b', 'a'] := by decide +kernel
example : (Pattern.repeated (.choice .empty (.one (.single 'a'))) 0 none true).machine.find?
    ['a', 'a'] = some [] := by decide +kernel
example : (Pattern.sequence (.repeated (.one (.single 'a')) 1 none true)
    (.one (.single 'b'))).machine.find? ['a', 'c', 'a', 'a', 'b'] = some ['a', 'a', 'b'] := by
  decide +kernel

/-- The stretch of a text that matches first. -/
def find? (pattern : Pattern) (text : String) : Option String :=
  (pattern.machine.find? text.toList).map String.ofList

theorem infix_of_find? {pattern : Pattern} {text found : String}
    (h : pattern.find? text = some found) : found.toList <:+: text.toList := by
  obtain ⟨t, ht, rfl⟩ := Option.map_eq_some_iff.1 h
  rw [String.toList_ofList]
  exact Machine.infix_of_find? ht

end SecurityKey.Pattern
