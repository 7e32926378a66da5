import SecurityKey.Proofs.Interleaving
import SecurityKey.Simulation.Schedule
/-!
# A simulation is an interleaving

In a simulation the tasks have turns, and in a turn a task does all that it can. Taken one by one,
these are steps of operations side by side: a turn is some steps of one operation (`reaches_turn`),
and a jump of the clock is none. So whatever a simulation comes to, a run comes to as well
(`run_of_settle`), and what holds of all interleavings holds of it at every moment.
-/

namespace SecurityKey.Simulation

open Procedure Interleaving

variable {α : Type} {s t : State Nat α} {id : Nat} {world : World} {after : World × Activity α}
  {rest next : Procedure α}

/-! ## Turns -/

/-- Where the operation of a task stands. What the tool is going to answer to it is settled in the
simulation when it is asked. -/
inductive Activity.Shows : Activity α → Stand α → Prop
  | ready (p : Procedure α) : Shows (.ready p) (.ready p)
  | waiting {handle : String} {next : Procedure α} :
      Shows (.waiting next) (.asked (.acquire handle next))
  | busy {stops : List Stop} {turns : List (Nat × Nat)} {rest next : Procedure α}
      {exchange : Exchange} : Answers rest exchange next →
      (∀ handle, exchange ≠ .acquired handle) → Shows (.busy stops turns next) (.asked rest)
  | finished (result : α) (time : Nat) : Shows (.finished result time) (.finished result)
  | givenUp (time : Nat) : Shows (.givenUp time) .givenUp

/-- Steps of one operation lead to the locks of a world and to what its task is about there. -/
def Reaches (s : State Nat α) (id : Nat) (after : World × Activity α) : Prop :=
  ∃ log t, Run s log t ∧ t.locks = after.1.locks ∧ after.2.Shows (t.stands id) ∧
    ∀ other, other ≠ id → t.stands other = s.stands other

theorem reaches_here (hlocks : s.locks = after.1.locks) (hshows : after.2.Shows (s.stands id)) :
    Reaches s id after :=
  ⟨[], s, .nil s, hlocks, hshows, fun _ _ => rfl⟩

theorem Reaches.cons {move : Move} (hstep : Step s (id, move) t) (h : Reaches t id after) :
    Reaches s id after := by
  obtain ⟨log, u, hrun, hlocks, hshows, hother⟩ := h
  exact ⟨_, u, .cons hstep hrun, hlocks, hshows,
    fun other hne => (hother other hne).trans (hstep.stands_other hne)⟩

theorem Reaches.trans {middle : World × Activity α} (h : Reaches s id middle)
    (hrest : ∀ t : State Nat α, t.locks = middle.1.locks → middle.2.Shows (t.stands id) →
      Reaches t id after) : Reaches s id after := by
  obtain ⟨log, t, hrun, hlocks, hshows, hother⟩ := h
  obtain ⟨more, u, hmore, hlocks', hshows', hother'⟩ := hrest t hlocks hshows
  exact ⟨_, u, run_append_iff.2 ⟨t, hrun, hmore⟩, hlocks', hshows',
    fun other hne => (hother' other hne).trans (hother other hne)⟩

/-- A request that is answered at once. -/
theorem Reaches.answered {ask : Ask} {exchange : Exchange} (hstand : s.stands id = .ready rest)
    (hask : rest.asks? = some ask) (hanswer : Answers rest exchange next)
    (hholds : ∀ handle, exchange = .acquired handle → (requestIn s.locks id ask).holds id)
    (h : ∀ t : State Nat α, t.stands id = .ready next → t.locks = requestIn s.locks id ask →
      Reaches t id after) : Reaches s id after :=
  .cons (.ask hstand hask) (.cons (.answer State.stands_put_self hanswer hholds)
    (h (s.put id _ _ |>.put id _ _) State.stands_put_self rfl))

/-- A request whose answer has to be waited for. -/
theorem reaches_asked {ask : Ask} (hstand : s.stands id = .ready rest)
    (hask : rest.asks? = some ask) (hlocks : requestIn s.locks id ask = after.1.locks)
    (hshows : after.2.Shows (.asked rest)) : Reaches s id after :=
  .cons (.ask hstand hask) (reaches_here hlocks (by rwa [State.stands_put_self]))

namespace World

@[simp] theorem locks_note (entry : Entry) : (world.note entry).locks = world.locks := rfl

@[simp] theorem locks_noteAll (entries : List Entry) :
    (world.noteAll entries).locks = world.locks := by
  induction entries generalizing world with
  | nil => rfl
  | cons entry entries ih => exact ih

/-- What a task does until it waits or finishes. -/
theorem reaches_advance {p : Procedure α} (hstand : s.stands id = .ready p)
    (hlocks : s.locks = world.locks) : Reaches s id (advance id p world) := by
  induction p generalizing world s with
  | done result =>
    refine .cons (.finish hstand) (reaches_here ?_ ?_)
    · rw [State.locks_put, hlocks]
      rfl
    · rw [State.stands_put_self]
      exact .finished result world.time
  | run call within next ih =>
    rw [advance]
    obtain ⟨time, answer, tool⟩ := (world.note (.ran call within)).tool.run call within
    dsimp only
    split_ifs
    · exact .answered hstand rfl (.run answer) (by rintro _ ⟨⟩) fun t hready hsame =>
        ih answer hready (hsame.trans hlocks)
    · exact reaches_asked hstand rfl hlocks (.busy (.run answer) (by rintro _ ⟨⟩))
  | converse call dialog next ih =>
    rw [advance]
    obtain ⟨opening, tool⟩ := (world.note (.started call)).tool.start call
    cases opening with
    | error failure =>
      exact .answered hstand rfl (.converse (.notStarted failure)) (by rintro _ ⟨⟩)
        fun t hready hsame => ih _ hready (hsame.trans hlocks)
    | ok script =>
      have hplayed : DialogAnswer dialog (dialog.run script).1 := .played script
      dsimp only
      split_ifs
      · refine .answered hstand rfl (.converse hplayed) (by rintro _ ⟨⟩) fun t hready hsame => ?_
        refine ih _ hready ?_
        rw [locks_noteAll]
        exact hsame.trans hlocks
      · refine reaches_asked hstand rfl ?_ (.busy (.converse hplayed) (by rintro _ ⟨⟩))
        rw [await, locks_noteAll]
        exact hlocks
  | launch call next ih =>
    exact .answered hstand rfl (.launch _) (by rintro _ ⟨⟩) fun t hready hsame =>
      ih _ hready (hsame.trans hlocks)
  | acquire handle next ih =>
    rw [advance]
    dsimp only
    split_ifs with hholds
    · exact .answered hstand rfl .acquire (by rintro _ ⟨⟩; rwa [requestIn, hlocks])
        fun t hready hsame => ih hready (by rw [hsame, requestIn, hlocks])
    · exact reaches_asked hstand rfl (by rw [requestIn, hlocks]) .waiting
  | clock next ih =>
    exact .answered hstand rfl (.clock _) (by rintro _ ⟨⟩) fun t hready hsame =>
      ih _ hready (hsame.trans hlocks)
  | say text next ih =>
    exact .answered hstand rfl .say (by rintro _ ⟨⟩) fun t hready hsame =>
      ih hready (hsame.trans hlocks)

theorem reaches_goOn {activity : Activity α} (hshows : activity.Shows (s.stands id))
    (hlocks : s.locks = world.locks) : Reaches s id (goOn id activity world) := by
  generalize hstand : s.stands id = stand at hshows
  cases hshows with
  | ready p => exact reaches_advance hstand hlocks
  | @waiting handle next =>
    rw [goOn]
    split_ifs with hholds
    · refine .cons (.answer hstand .acquire fun _ _ => ?_)
        (reaches_advance State.stands_put_self hlocks)
      rwa [hlocks]
    · exact reaches_here hlocks (hstand ▸ .waiting)
  | @busy stops turns rest next exchange hanswer hnone =>
    have hstep : Step s (id, .answered exchange) _ :=
      .answer hstand hanswer fun handle heq => absurd heq (hnone handle)
    cases stops with
    | nil => exact .cons hstep (reaches_advance State.stands_put_self hlocks)
    | cons stop stops =>
      rw [goOn]
      dsimp only
      split_ifs
      · exact reaches_here hlocks (hstand ▸ .busy hanswer hnone)
      · refine .cons hstep (reaches_advance State.stands_put_self ?_)
        rw [locks_noteAll]
        exact hlocks
      · refine reaches_here ?_ (hstand ▸ .busy hanswer hnone)
        rw [locks_noteAll]
        exact hlocks
  | finished result time => exact reaches_here hlocks (hstand ▸ .finished result time)
  | givenUp time => exact reaches_here hlocks (hstand ▸ .givenUp time)

/-- A task that is given up in time leaves the queue that it stands in. -/
theorem reaches_givenUp (hlive : (s.stands id).rest?.isSome) (hlocks : s.locks = world.locks) :
    Reaches s id ({ world with locks := world.locks.drop id },
      (Activity.givenUp world.time : Activity α)) := by
  refine .cons (.giveUp hlive) (reaches_here ?_ ?_)
  · rw [State.locks_put, hlocks]
  · rw [State.stands_put_self]
    exact .givenUp world.time

theorem reaches_giveUp {task : Task α} (hshows : task.activity.Shows (s.stands id))
    (hlocks : s.locks = world.locks) :
    Reaches s id ((giveUp id task world).1, (giveUp id task world).2.activity) := by
  have hunchanged : Reaches s id (world, task.activity) := reaches_here hlocks hshows
  obtain ⟨activity, giveUpAt⟩ := task
  cases giveUpAt with
  | none => cases activity <;> exact hunchanged
  | some time =>
    rw [giveUp]
    generalize hstand : s.stands id = stand at hshows
    cases hshows with
    | finished result time => exact hunchanged
    | givenUp time => exact hunchanged
    | _ =>
      dsimp only
      split_ifs
      · exact reaches_givenUp (by rw [hstand]; rfl) hlocks
      · exact hunchanged

/-- **A turn** is some steps of one operation. -/
theorem reaches_turn {task : Task α} (hshows : task.activity.Shows (s.stands id))
    (hlocks : s.locks = world.locks) :
    Reaches s id ((world.turn id task).1, (world.turn id task).2.activity) := by
  refine (reaches_goOn hshows hlocks).trans fun t hsame hmid => ?_
  exact reaches_giveUp hmid hsame

end World

/-! ## Schedules -/

/-- The operations of a schedule stand where the schedule shows it. -/
structure Schedule.Tracks (schedule : Schedule α) (s : State Nat α) : Prop where
  locks : s.locks = schedule.world.locks
  shows : ∀ {id : Nat} {task : Task α}, schedule.tasks[id]? = some task →
    task.activity.Shows (s.stands id)

variable {schedule : Schedule α}

theorem Schedule.Tracks.turn (h : schedule.Tracks s) (id : Nat) :
    ∃ log t, Run s log t ∧ (schedule.turn id).Tracks t := by
  rw [Schedule.turn]
  cases htask : schedule.tasks[id]? with
  | none => exact ⟨[], s, .nil s, h⟩
  | some task =>
    obtain ⟨log, t, hrun, hlocks, hshows, hother⟩ := World.reaches_turn (h.shows htask) h.locks
    refine ⟨log, t, hrun, hlocks, ?_⟩
    intro other shown hshown
    dsimp only at hshown
    rw [List.getElem?_set] at hshown
    split_ifs at hshown with hsame hrange
    · obtain rfl := Option.some.inj hshown
      exact hsame ▸ hshows
    · rw [hother other (Ne.symm hsame)]
      exact h.shows hshown

/-- The clock moves nobody. -/
theorem Schedule.Tracks.jump {later : Schedule α} (h : schedule.Tracks s)
    (hjump : schedule.jump? = some later) : later.Tracks s := by
  obtain ⟨time, -, rfl⟩ := Option.map_eq_some_iff.1 hjump
  exact ⟨h.locks, h.shows⟩

theorem Schedule.Tracks.settle (h : schedule.Tracks s) (fuel : Nat) :
    ∃ log t, Run s log t ∧ (schedule.settle fuel).Tracks t := by
  induction fuel generalizing schedule s with
  | zero => exact ⟨[], s, .nil s, h⟩
  | succ fuel ih =>
    rw [Schedule.settle]
    cases schedule.queue with
    | cons id queue =>
      have hpopped : ({ schedule with queue } : Schedule α).Tracks s := ⟨h.locks, h.shows⟩
      obtain ⟨log, t, hrun, hturn⟩ := hpopped.turn id
      obtain ⟨more, u, hmore, hsettled⟩ := ih hturn
      exact ⟨_, u, run_append_iff.2 ⟨t, hrun, hmore⟩, hsettled⟩
    | nil =>
      cases hjump : schedule.jump? with
      | none => exact ⟨[], s, .nil s, h⟩
      | some later => exact ih (h.jump hjump)

/-- **A simulation** comes to nothing that a run does not come to, at any moment. -/
theorem run_of_settle {operations : Nat → Procedure α} {tasks : List (Task α)}
    (hlocks : world.locks = .empty)
    (hready : ∀ (id : Nat) (task : Task α), tasks[id]? = some task →
      task.activity = .ready (operations id))
    (queue : List Nat) (fuel : Nat) :
    ∃ log s, Run (State.begin operations) log s ∧
      (Schedule.settle fuel ⟨world, tasks, queue⟩).Tracks s := by
  have hbegin : Schedule.Tracks ⟨world, tasks, queue⟩ (State.begin operations) := by
    refine ⟨hlocks.symm, fun {id task} (htask : tasks[id]? = some task) => ?_⟩
    rw [hready id task htask]
    exact .ready _
  exact hbegin.settle fuel

end SecurityKey.Simulation
