import SecurityKey.Dialog
import SecurityKey.Reply
/-!
# What an operation asks of the world

An operation is a tree of requests. Each node asks for one thing: to run the tool, to hold a PIN
dialog with it, to open a terminal window, to have the lock of a device, to know the time, to print
a text. Each possible answer has a subtree that goes on with it, and a leaf is the result.

The tree says nothing about the world, so what is true of every walk through it is true whatever
the tool does. `Procedure.Walk` is the relation between a procedure, the requests and answers on a
way through it, and the result at its end.

A lock is held from when it is granted until the procedure ends, or is given up.
-/

namespace SecurityKey

/-- An operation as a tree of requests and the answers to them. -/
inductive Procedure (α : Type) where
  | done (result : α)
  /-- Runs the tool to its end, for so many milliseconds at most. -/
  | run (call : Invocation) (within : Nat) (next : Except Failure Reply → Procedure α)
  /-- Starts the tool and holds a dialog with it. -/
  | converse (call : Invocation) (dialog : Dialog)
      (next : Except Failure PinOutcome → Procedure α)
  /-- Opens a terminal window that runs the tool, and does not wait for it. -/
  | launch (call : Invocation) (next : Except Failure Unit → Procedure α)
  /-- Waits for the lock of a handle. -/
  | acquire (handle : String) (next : Procedure α)
  /-- Reads the clock, in milliseconds. -/
  | clock (next : Int → Procedure α)
  /-- Prints a text. -/
  | say (text : String) (next : Procedure α)

namespace Procedure

variable {α β : Type}

/-- Goes on with the result of a procedure. -/
def bind : Procedure α → (α → Procedure β) → Procedure β
  | .done result, f => f result
  | .run call within next, f => .run call within fun answer => (next answer).bind f
  | .converse call dialog next, f => .converse call dialog fun answer => (next answer).bind f
  | .launch call next, f => .launch call fun answer => (next answer).bind f
  | .acquire handle next, f => .acquire handle (next.bind f)
  | .clock next, f => .clock fun now => (next now).bind f
  | .say text next, f => .say text (next.bind f)

instance : Monad Procedure where
  pure := .done
  bind := bind

/-! ## Requests as procedures -/

/-- Runs the tool. -/
def call (invocation : Invocation) (within : Nat) : Procedure (Except Failure Reply) :=
  .run invocation within .done

/-- Holds a PIN dialog with the tool. -/
def talk (invocation : Invocation) (dialog : Dialog) : Procedure (Except Failure PinOutcome) :=
  .converse invocation dialog .done

/-- Opens a terminal window. -/
def handOff (invocation : Invocation) : Procedure (Except Failure Unit) :=
  .launch invocation .done

/-- Waits for the lock of a handle and then goes on. -/
def holding (handle : String) (body : Procedure α) : Procedure α :=
  .acquire handle body

/-- The time. -/
def now : Procedure Int :=
  .clock .done

/-- Prints a text. -/
def print (text : String) : Procedure Unit :=
  .say text (.done ())

/-! ## Walks -/

/-- A request and the answer it got. -/
inductive Exchange
  | ran (call : Invocation) (within : Nat) (answer : Except Failure Reply)
  | conversed (call : Invocation) (dialog : Dialog) (answer : Except Failure PinOutcome)
  | launched (call : Invocation) (answer : Except Failure Unit)
  | acquired (handle : String)
  | read (now : Int)
  | said (text : String)

/-- A dialog can be answered by the failure to start the tool, or by whatever a script makes of
it. -/
inductive DialogAnswer (dialog : Dialog) : Except Failure PinOutcome → Prop
  | notStarted (failure : Failure) : DialogAnswer dialog (.error failure)
  | played (script : Script) : DialogAnswer dialog (dialog.run script).1

/-- A way through a procedure: what was asked and answered, and the result. -/
inductive Walk : Procedure α → List Exchange → α → Prop
  | done (result : α) : Walk (.done result) [] result
  | run {call : Invocation} {within : Nat} {next : Except Failure Reply → Procedure α}
      {trace : List Exchange} {result : α} (answer : Except Failure Reply) :
      Walk (next answer) trace result →
      Walk (.run call within next) (.ran call within answer :: trace) result
  | converse {call : Invocation} {dialog : Dialog}
      {next : Except Failure PinOutcome → Procedure α} {trace : List Exchange} {result : α}
      (answer : Except Failure PinOutcome) : DialogAnswer dialog answer →
      Walk (next answer) trace result →
      Walk (.converse call dialog next) (.conversed call dialog answer :: trace) result
  | launch {call : Invocation} {next : Except Failure Unit → Procedure α}
      {trace : List Exchange} {result : α} (answer : Except Failure Unit) :
      Walk (next answer) trace result →
      Walk (.launch call next) (.launched call answer :: trace) result
  | acquire {handle : String} {next : Procedure α} {trace : List Exchange} {result : α} :
      Walk next trace result → Walk (.acquire handle next) (.acquired handle :: trace) result
  | clock {next : Int → Procedure α} {trace : List Exchange} {result : α} (now : Int) :
      Walk (next now) trace result → Walk (.clock next) (.read now :: trace) result
  | say {text : String} {next : Procedure α} {trace : List Exchange} {result : α} :
      Walk next trace result → Walk (.say text next) (.said text :: trace) result

/-- A walk through two procedures, one after the other. -/
theorem walk_bind {p : Procedure α} {f : α → Procedure β} {trace : List Exchange} {result : β} :
    Walk (p.bind f) trace result ↔
      ∃ first second middle,
        Walk p first middle ∧ Walk (f middle) second result ∧ trace = first ++ second := by
  constructor
  · intro h
    induction p generalizing trace with
    | done a => exact ⟨[], trace, a, .done a, h, rfl⟩
    | run call within next ih =>
      cases h with
      | run answer h =>
        obtain ⟨t, u, m, h₁, h₂, rfl⟩ := ih answer h
        exact ⟨_, u, m, .run answer h₁, h₂, rfl⟩
    | converse call dialog next ih =>
      cases h with
      | converse answer ha h =>
        obtain ⟨t, u, m, h₁, h₂, rfl⟩ := ih answer h
        exact ⟨_, u, m, .converse answer ha h₁, h₂, rfl⟩
    | launch call next ih =>
      cases h with
      | launch answer h =>
        obtain ⟨t, u, m, h₁, h₂, rfl⟩ := ih answer h
        exact ⟨_, u, m, .launch answer h₁, h₂, rfl⟩
    | acquire handle next ih =>
      cases h with
      | acquire h =>
        obtain ⟨t, u, m, h₁, h₂, rfl⟩ := ih h
        exact ⟨_, u, m, .acquire h₁, h₂, rfl⟩
    | clock next ih =>
      cases h with
      | clock now h =>
        obtain ⟨t, u, m, h₁, h₂, rfl⟩ := ih now h
        exact ⟨_, u, m, .clock now h₁, h₂, rfl⟩
    | say text next ih =>
      cases h with
      | say h =>
        obtain ⟨t, u, m, h₁, h₂, rfl⟩ := ih h
        exact ⟨_, u, m, .say h₁, h₂, rfl⟩
  · rintro ⟨t, u, m, h₁, h₂, rfl⟩
    induction h₁ with
    | done a => exact h₂
    | run answer _ ih => exact .run answer (ih h₂)
    | converse answer ha _ ih => exact .converse answer ha (ih h₂)
    | launch answer _ ih => exact .launch answer (ih h₂)
    | acquire _ ih => exact .acquire (ih h₂)
    | clock now _ ih => exact .clock now (ih h₂)
    | say _ ih => exact .say (ih h₂)

end Procedure

end SecurityKey
