import SecurityKey.Locks
import SecurityKey.Procedure
import SecurityKey.Simulation.Tool
/-!
# A simulated world

Procedures run against a simulated tool, by a simulated clock. Each is a task that has its turns,
and in a turn it runs until it has to wait: for the lock that it has asked for, or for the tool. A
wait for the tool is known beforehand, as the stops at which something happens until it is over.

Whoever finishes or is given up drops its lock. A task that is to be given up runs first, so one
that finishes in that turn has finished.

`Simulation.Schedule` says whose turn it is.
-/

namespace SecurityKey.Simulation

/-- What the procedures did to the world. -/
inductive Entry
  | ran (call : Invocation) (within : Nat)
  | started (call : Invocation)
  | launched (call : Invocation)
  | talked (event : Event)
  /-- A line that the tool has read, noted when the conversation is over. -/
  | heard (line : String)
  | said (text : String)
deriving DecidableEq

/-- The world that procedures run in. -/
structure World where
  tool : Tool
  /-- How the opening of a terminal window goes. -/
  launching : Invocation → Except Failure Unit
  /-- What a clock on the wall shows at a time of the simulation. -/
  wallClock : Nat → Int
  time : Nat
  /-- How many turns were begun. -/
  turns : Nat
  /-- The locks of the tasks, by their numbers. -/
  locks : Locks Nat
  /-- What was done, and when. -/
  log : List (Nat × Entry)

/-- What happens at a moment at which a task stops waiting. -/
structure Stop where
  time : Nat
  /-- When it was settled that the task waits until then. -/
  since : Nat
  entries : List Entry

/-- What is done at once in a conversation that begins at `start`, and the stops after that.
`ending` is noted when it is over. -/
def Stop.ofEvents (start : Nat) (ending : List Entry) : List (Nat × Event) → List Entry × List Stop
  | [] => (ending, [])
  | (time, event) :: events =>
    let (entries, stops) := ofEvents start ending events
    match event with
    | .waited since => ([], ⟨start + time, start + since, entries⟩ :: stops)
    | event => (if event.outward then .talked event :: entries else entries, stops)

/-- What a task is about. -/
inductive Activity (α : Type)
  | ready (procedure : Procedure α)
  /-- Waits for the lock that it has asked for. -/
  | waiting (next : Procedure α)
  /-- Waits for the tool until the last of some stops. The turns that the task has had since it
  began to wait are given by their times and numbers, the last one first. -/
  | busy (stops : List Stop) (turns : List (Nat × Nat)) (next : Procedure α)
  | finished (result : α) (time : Nat)
  | givenUp (time : Nat)

/-- A procedure that runs beside others. -/
structure Task (α : Type) where
  activity : Activity α
  /-- When it is to be given up. -/
  giveUpAt : Option Nat

namespace World

variable {α : Type}

/-- Notes what is done now. -/
def note (world : World) (entry : Entry) : World :=
  { world with log := world.log ++ [(world.time, entry)] }

/-- Notes several things that are done now. -/
def noteAll (world : World) (entries : List Entry) : World :=
  entries.foldl note world

/-- Begins a wait for the tool. -/
def await (world : World) (stops : List Stop) (next : Procedure α) : World × Activity α :=
  (world, .busy stops [(world.time, world.turns)] next)

/-- Lets a task run until it waits or finishes. -/
def advance (id : Nat) : Procedure α → World → World × Activity α
  | .done result, world =>
    ({ world with locks := world.locks.drop id }, .finished result world.time)
  | .run call within next, world =>
    let world := world.note (.ran call within)
    let (time, answer, tool) := world.tool.run call within
    let world := { world with tool }
    if time = 0 then advance id (next answer) world
    else world.await [⟨world.time + time, world.time, []⟩] (next answer)
  | .converse call dialog next, world =>
    let world := world.note (.started call)
    let (opening, tool) := world.tool.start call
    let world := { world with tool }
    match opening with
    | .error failure => advance id (next (.error failure)) world
    | .ok script =>
      let (outcome, talk) := dialog.run script
      let (entries, stops) := Stop.ofEvents world.time (talk.heard.map .heard) talk.events
      let world := world.noteAll entries
      if stops.isEmpty then advance id (next outcome) world else world.await stops (next outcome)
  | .launch call next, world =>
    advance id (next (world.launching call)) (world.note (.launched call))
  | .acquire handle next, world =>
    let world := { world with locks := world.locks.request id handle }
    if world.locks.holds id then advance id next world else (world, .waiting next)
  | .clock next, world => advance id (next (world.wallClock world.time)) world
  | .say text next, world => advance id next (world.note (.said text))

/-- Lets a task go on if it can. -/
def goOn (id : Nat) (activity : Activity α) (world : World) : World × Activity α :=
  match activity with
  | .ready procedure => advance id procedure world
  | .waiting next => if world.locks.holds id then advance id next world else (world, activity)
  | .busy (stop :: stops) turns next =>
    if world.time < stop.time then (world, activity)
    else
      let world := world.noteAll stop.entries
      if stops.isEmpty then advance id next world
      else (world, .busy stops ((world.time, world.turns) :: turns) next)
  | .busy [] _ next => advance id next world
  | .finished .. | .givenUp _ => (world, activity)

/-- Gives up a task whose time has come, unless it has finished. -/
def giveUp (id : Nat) (task : Task α) (world : World) : World × Task α :=
  match task.activity, task.giveUpAt with
  | .finished .., _ | .givenUp _, _ | _, none => (world, task)
  | _, some time =>
    if time ≤ world.time then
      ({ world with locks := world.locks.drop id }, { task with activity := .givenUp world.time })
    else (world, task)

/-- A turn of a task. -/
def turn (id : Nat) (task : Task α) (world : World) : World × Task α :=
  let (world, activity) := goOn id task.activity world
  let (world, task) := giveUp id { task with activity } world
  ({ world with turns := world.turns + 1 }, task)

/-- The world at the beginning of a simulation. -/
def begin (tool : Tool) (launching : Invocation → Except Failure Unit) (wallClock : Nat → Int) :
    World :=
  { tool, launching, wallClock, time := 0, turns := 0, locks := .empty, log := [] }

/-- The same world when its clock is set back and its log is empty. -/
def again (world : World) : World :=
  { world with time := 0, turns := 0, locks := .empty, log := [] }

end World

end SecurityKey.Simulation
