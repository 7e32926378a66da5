import SecurityKey.Simulation.World
/-!
# Procedures side by side

Any number of procedures run as tasks in one world. The tasks that can go on stand in a queue, at
first all of them in order, and whoever is first has its turn. A task that is given the lock which
another one drops joins the end of the queue.

The clock stands still while anybody is in the queue, and then jumps to the next moment at which a
task stops waiting or is to be given up. Several tasks can be due at that moment. They join the
queue in the order in which it was settled that they would be: a task that began its wait in an
earlier turn goes first.
-/

namespace SecurityKey.Simulation

/-- A moment at which a task is to have a turn, and the number of the turn in which that was
settled. -/
structure Alarm where
  time : Nat
  settled : Nat

/-- When a task that waits for the tool is to have its next turn. -/
def Activity.alarm? {α : Type} : Activity α → Option Alarm
  | .busy (stop :: _) turns _ => some ⟨stop.time, (turns.lookup stop.since).getD 0⟩
  | _ => none

/-- The alarms of the task of some number. That it is to be given up was settled in its first turn,
whose number is the task's own. -/
def Task.alarms {α : Type} (id : Nat) (task : Task α) : List Alarm :=
  match task.activity with
  | .finished .. | .givenUp _ => []
  | activity => activity.alarm?.toList ++ task.giveUpAt.toList.map (⟨·, id⟩)

/-- Tasks side by side, each known by its place in the list. -/
structure Schedule (α : Type) where
  world : World
  tasks : List (Task α)
  /-- The tasks that can go on, the next one first. -/
  queue : List Nat

namespace Schedule

variable {α : Type}

/-- Gives the task of some number its turn. Those that are given a lock by it join the queue. -/
def turn (schedule : Schedule α) (id : Nat) : Schedule α :=
  match schedule.tasks[id]? with
  | none => schedule
  | some task =>
    let (world, task) := schedule.world.turn id task
    let granted := (world.locks.grantedSince schedule.world.locks).filter fun other =>
      other ≠ id ∧ other ∉ schedule.queue
    { world, tasks := schedule.tasks.set id task, queue := schedule.queue ++ granted }

/-- The alarms of all tasks, each with the number of its task. -/
def alarms (schedule : Schedule α) : List (Nat × Alarm) :=
  (schedule.tasks.mapIdx fun id task => (task.alarms id).map fun alarm => (id, alarm)).flatten

/-- Moves the clock to the next alarm, if there is one, and queues the tasks that are due then. -/
def jump? (schedule : Schedule α) : Option (Schedule α) :=
  let alarms := schedule.alarms
  (alarms.map (·.2.time)).min?.map fun time =>
    let due := alarms.filter (·.2.time = time)
    let inOrder := due.mergeSort fun first second => first.2.settled ≤ second.2.settled
    { schedule with
      world := { schedule.world with time }
      queue := (inOrder.map Prod.fst).eraseDups }

/-- Runs tasks until none can go on, in at most `fuel` steps. A step is a turn or a jump of the
clock. -/
def settle : Nat → Schedule α → Schedule α
  | 0, schedule => schedule
  | fuel + 1, schedule =>
    match schedule.queue with
    | id :: queue => settle fuel ({ schedule with queue }.turn id)
    | [] =>
      match schedule.jump? with
      | some schedule => settle fuel schedule
      | none => schedule

end Schedule

/-- How a task ended: its result, if it was not given up, and when. -/
structure Report (α : Type) where
  result : Option α
  time : Nat

namespace World

variable {α : Type}

/-- A number of steps that is enough for `count` tasks. Each task begins once, is given a lock once
and is given up once at most; an operation waits for the tool less than thirty times beside the
sites that one reply can list and the cues of one script; and the clock jumps no more often. -/
def enough (world : World) (count : Nat) : Nat :=
  2 * count * (world.tool.volume + world.tool.longestScript + 34)

/-- The report on a task. -/
def report (world : World) (task : Task α) : Report α :=
  match task.activity with
  | .finished result time => ⟨some result, time⟩
  | .givenUp time => ⟨none, time⟩
  | _ => ⟨none, world.time⟩

/-- Runs procedures side by side, each to be given up at some time or never. -/
def runAll (world : World) (procedures : List (Procedure α × Option Nat)) :
    World × List (Report α) :=
  let tasks := procedures.map fun (procedure, giveUpAt) => ⟨.ready procedure, giveUpAt⟩
  let schedule : Schedule α := ⟨world, tasks, List.range tasks.length⟩
  let schedule := schedule.settle (world.enough tasks.length)
  (schedule.world, schedule.tasks.map (report schedule.world))

end World

end SecurityKey.Simulation
