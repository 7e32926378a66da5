import SecurityKey.Pattern
/-!
# Machines of patterns

A machine reads a text by steps that are numbered from zero; the number behind the last step is
the goal. A step takes a character, tests the place in the text, or leads on without taking
anything, where a fork leads two ways and prefers the first. A machine is laid out so that each
pattern has its steps in one stretch, which begins with the step it is entered by.

Main statement: `length_steps`, the stretch of a pattern is as long as `stepCount` says, so the
numbers that a step leads to are where they are meant to be.
-/

namespace SecurityKey.Pattern

/-- A step of a machine. -/
inductive Step
  | take (set : CharSet) (next : Nat)
  | atStart (next : Nat)
  | atFinish (next : Nat)
  | goTo (next : Nat)
  | fork (preferred other : Nat)
deriving DecidableEq

/-- The fork of a repetition: to go round, or out. -/
def Step.again (greedy : Bool) (round out : Nat) : Step :=
  if greedy then .fork round out else .fork out round

/-- The number of steps of a pattern. -/
def stepCount : Pattern → Nat
  | .empty | .one _ | .start | .finish => 1
  | .group _ body => body.stepCount
  | .sequence first second => first.stepCount + second.stepCount
  | .choice first second => 1 + first.stepCount + second.stepCount
  | .repeated body 0 none _ => body.stepCount + if body.canBeEmpty then 2 else 1
  | .repeated body (least + 1) none _ => (least + 1) * body.stepCount + 1
  | .repeated body least (some most) _ =>
    least * body.stepCount + (most - least) * (1 + body.stepCount) + 1

/-- `count` copies of a stretch of `size` steps, each leading into the next one and the last to
`base + count * size`. -/
def copies (stretch : Nat → Nat → List Step) (size : Nat) : Nat → Nat → List Step
  | 0, _ => []
  | count + 1, base => stretch base (base + size) ++ copies stretch size count (base + size)

/-- The steps of a pattern that stand from `base` on and lead to `next`.

A repetition without an end comes back to the fork it was entered by. If its body can be empty,
the fork behind the body is one of its own, so that a round that takes nothing leads out at once:
the fork it was entered by is being looked at already and would not be looked at again. -/
def steps : Pattern → Nat → Nat → List Step
  | .empty, _, next => [.goTo next]
  | .one set, _, next => [.take set next]
  | .start, _, next => [.atStart next]
  | .finish, _, next => [.atFinish next]
  | .group _ body, base, next => body.steps base next
  | .sequence first second, base, next =>
    let middle := base + first.stepCount
    first.steps base middle ++ second.steps middle next
  | .choice first second, base, next =>
    let other := base + 1 + first.stepCount
    .fork (base + 1) other :: (first.steps (base + 1) next ++ second.steps other next)
  | .repeated body 0 none greedy, base, next =>
    let fork := Step.again greedy (base + 1) next
    if body.canBeEmpty then
      fork :: (body.steps (base + 1) (base + 1 + body.stepCount) ++ [fork])
    else fork :: body.steps (base + 1) base
  | .repeated body (least + 1) none greedy, base, next =>
    let last := base + least * body.stepCount
    let fork := Step.again greedy last next
    copies (fun base next => body.steps base next) body.stepCount least base ++
      body.steps last (last + body.stepCount) ++ [fork]
  | .repeated body least (some most) greedy, base, next =>
    let middle := base + least * body.stepCount
    let out := middle + (most - least) * (1 + body.stepCount)
    copies (fun base next => body.steps base next) body.stepCount least base ++
      copies (fun base next => Step.again greedy (base + 1) out :: body.steps (base + 1) next)
        (1 + body.stepCount) (most - least) middle ++
      [.goTo next]

theorem length_copies {stretch : Nat → Nat → List Step} {size : Nat}
    (h : ∀ base next, (stretch base next).length = size) (count base : Nat) :
    (copies stretch size count base).length = count * size := by
  induction count generalizing base with
  | zero => simp [copies]
  | succ count ih => simp [copies, h, ih, Nat.succ_mul, Nat.add_comm]

theorem length_steps (pattern : Pattern) (base next : Nat) :
    (pattern.steps base next).length = pattern.stepCount := by
  induction pattern generalizing base next with
  | empty | one | start | finish => rfl
  | group _ body ih => exact ih base next
  | sequence first second ih₁ ih₂ => simp [steps, stepCount, ih₁, ih₂]
  | choice first second ih₁ ih₂ =>
    simp only [steps, stepCount, List.length_cons, List.length_append, ih₁, ih₂]
    omega
  | repeated body least most greedy ih =>
    cases most with
    | some most =>
      have round (out base next : Nat) :
          (Step.again greedy (base + 1) out :: body.steps (base + 1) next).length =
            1 + body.stepCount := by
        simp [ih, Nat.add_comm]
      simp [steps, stepCount, length_copies ih, length_copies (round _), Nat.add_assoc]
    | none =>
      cases least with
      | zero => cases h : body.canBeEmpty <;> simp [steps, stepCount, h, ih]
      | succ least => simp [steps, stepCount, length_copies ih, ih, Nat.succ_mul, Nat.add_assoc]

/-- A machine; the goal is the number of its steps. -/
abbrev Machine := Array Step

/-- The machine of a pattern, which is entered by its first step. -/
def machine (pattern : Pattern) : Machine :=
  (pattern.steps 0 pattern.stepCount).toArray

end SecurityKey.Pattern
