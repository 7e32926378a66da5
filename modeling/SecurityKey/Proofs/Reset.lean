import SecurityKey.Proofs.Arguments
import SecurityKey.Proofs.CommandLine
import SecurityKey.Proofs.Exclusion
import SecurityKey.Proofs.Text.Blank
import SecurityKey.Proofs.Text.Lines
/-!
# What stands before a factory reset

A factory reset lists the devices, takes the lock of the first one that accepts it, and only then
reads the clock. The tool is told to reset where all of this went well and the key was plugged in
within the window, and nowhere else (`walk_factoryReset`).

Among other operations it is the same. When the tool is told to reset, the lock of the target is
held, and what came before it is that listing, that lock and that time (`resets_under_lock`). On the
command line a reset uses the tool only after a yes (`walk_reset_cancelled`).

Main result: `factoryReset_gated`.
-/

namespace SecurityKey

open Procedure

variable {trace : List Exchange}

/-! ## Requests that reset -/

/-- Whether a request tells the tool to reset a device. -/
def Procedure.Ask.Resets : Ask → Prop
  | .tool call | .window call => "-R" ∈ call.args
  | .lock _ | .time | .print _ => False

/-- Whether a request uses the tool at all. -/
def Procedure.Ask.UsesTool : Ask → Prop
  | .tool _ | .window _ => True
  | .lock _ | .time | .print _ => False

theorem not_resets_listDevices : ¬ (Ask.tool .listDevices).Resets := by
  show "-R" ∉ ["-L"]
  decide

theorem resets_factoryReset (handle : String) : (Ask.tool (.factoryReset handle)).Resets :=
  List.mem_cons_self

/-- The one entry with a property stands at one place. -/
theorem append_cons_inj {α : Type} {P : α → Prop} {front before after : List α} {last x : α}
    (hfront : ∀ y ∈ front, ¬ P y) (hx : P x) (h : front ++ [last] = before ++ x :: after) :
    before = front ∧ x = last ∧ after = [] := by
  rcases List.append_eq_append_iff.1 h with ⟨middle, rfl, hlast⟩ | ⟨middle, rfl, hrest⟩
  · cases middle with
    | nil =>
      obtain ⟨rfl, rfl⟩ := List.cons.inj hlast
      exact ⟨List.append_nil _, rfl, rfl⟩
    | cons y middle =>
      obtain ⟨_, hnil⟩ := List.cons.inj hlast
      simp at hnil
  · cases middle with
    | nil =>
      obtain ⟨rfl, rfl⟩ := List.cons.inj hrest
      exact ⟨(List.append_nil _).symm, rfl, rfl⟩
    | cons y middle =>
      obtain ⟨rfl, _⟩ := List.cons.inj hrest
      exact absurd hx (hfront x (by simp))

namespace Manager

variable {manager : Manager} {pluggedIn : Int} {handle : String}

/-! ## One reset -/

theorem walk_now_bind {α : Type} {f : Int → Attempt α} {result : Except Failure α} :
    Walk (ExceptT.lift now >>= f).run trace result ↔
      ∃ now rest, trace = .read now :: rest ∧ Walk (f now).run rest result := by
  rw [walk_attempt_bind]
  constructor
  · rintro (⟨failure, hnow, -⟩ | ⟨first, second, now, hnow, hrest, rfl⟩)
    · cases hnow with
      | clock now h => cases h
    · cases hnow with
      | clock now h =>
        cases h
        exact ⟨now, second, rfl, hrest⟩
  · rintro ⟨now, rest, rfl, hrest⟩
    exact .inr ⟨[.read now], rest, now, .clock now (.done _), hrest, rfl⟩

/-- The ways through the reset of a device: the clock is read, and decides. -/
inductive DeviceResetWalk (manager : Manager) (handle : String) (pluggedIn : Int) :
    List Exchange → Except Failure Unit → Prop
  | late {now : Int} : now - pluggedIn > manager.timeouts.replugWindow →
      DeviceResetWalk manager handle pluggedIn [.read now] (.error .replugWindowElapsed)
  | reset {now : Int} (answer : Except Failure Reply) :
      now - pluggedIn ≤ manager.timeouts.replugWindow →
      DeviceResetWalk manager handle pluggedIn
        [.read now, .ran (.factoryReset handle) manager.timeouts.touch answer]
        ((checked answer).map fun _ => ())

theorem walk_resetDevice {result : Except Failure Unit} :
    Walk (manager.resetDevice handle pluggedIn).run trace result ↔
      DeviceResetWalk manager handle pluggedIn trace result := by
  rw [resetDevice, walk_now_bind]
  constructor
  · rintro ⟨now, rest, rfl, hrest⟩
    split_ifs at hrest with hlate
    · obtain ⟨rfl, rfl⟩ := walk_attempt_throw.1 hrest
      exact .late hlate
    · obtain ⟨inner, hrun, rfl⟩ := walk_attempt_map.1 hrest
      obtain ⟨answer, rfl, rfl⟩ := walk_runChecked.1 hrun
      exact .reset answer (Int.not_lt.1 hlate)
  · intro h
    cases h with
    | late hlate => exact ⟨_, _, rfl, by rw [if_pos hlate]; exact walk_attempt_throw.2 ⟨rfl, rfl⟩⟩
    | reset answer hintime =>
      refine ⟨_, _, rfl, ?_⟩
      rw [if_neg (Int.not_lt.2 hintime)]
      exact walk_attempt_map.2 ⟨_, walk_runChecked.2 ⟨answer, rfl, rfl⟩, rfl⟩

/-- The first of the handles that accepts a reset, and the part of it that the reset goes to. -/
def FirstTarget (pattern : Pattern) (handles : List String) (target : String) : Prop :=
  ∃ before handle after, handles = before ++ handle :: after ∧
    pattern.find? handle = some target ∧ ∀ earlier ∈ before, pattern.find? earlier = none

theorem resettable?_eq_some {pattern : Pattern} {handles : List String} {target : String} :
    resettable? pattern handles = some target ↔ FirstTarget pattern handles target :=
  List.findSome?_eq_some_iff

/-- The ways through a factory reset. -/
inductive ResetWalk (manager : Manager) (pluggedIn : Int) :
    List Exchange → Except Failure String → Prop
  /-- The listing fails. -/
  | unlisted {listing : Except Failure Reply} {failure : Failure} :
      listed listing = .error failure →
      ResetWalk manager pluggedIn [.ran .listDevices manager.timeouts.invocation listing]
        (.error failure)
  /-- No listed device accepts a reset. -/
  | untargeted {listing : Except Failure Reply} {devices : List Device} :
      listed listing = .ok devices →
      (∀ device ∈ devices, manager.resetPattern.find? device.handle = none) →
      ResetWalk manager pluggedIn [.ran .listDevices manager.timeouts.invocation listing]
        (.error .noResettableDevice)
  /-- The target is had, and reset if it is not too late. -/
  | targeted {listing : Except Failure Reply} {devices : List Device} {target : String}
      {rest : List Exchange} {result : Except Failure Unit} :
      listed listing = .ok devices →
      FirstTarget manager.resetPattern (devices.map Device.handle) target →
      DeviceResetWalk manager target pluggedIn rest result →
      ResetWalk manager pluggedIn (.ran .listDevices manager.timeouts.invocation listing ::
        .acquired target :: rest) (result.map fun _ => target)

/-- **A factory reset** goes one of these ways. -/
theorem walk_factoryReset {result : Except Failure String} :
    Walk (manager.factoryReset pluggedIn).run trace result ↔
      ResetWalk manager pluggedIn trace result := by
  rw [factoryReset, walk_attempt_bind]
  constructor
  · rintro (⟨failure, hlist, rfl⟩ | ⟨first, second, devices, hlist, hrest, rfl⟩)
    · obtain ⟨listing, rfl, hfail⟩ := walk_tryListDevices.1 hlist
      exact .unlisted hfail.symm
    · obtain ⟨listing, rfl, hlisted⟩ := walk_tryListDevices.1 hlist
      split at hrest
      · next hnone =>
        obtain ⟨rfl, rfl⟩ := walk_attempt_throw.1 hrest
        refine .untargeted hlisted.symm fun device hdevice => ?_
        exact List.findSome?_eq_none_iff.1 hnone _ (List.mem_map_of_mem hdevice)
      · next target htarget =>
        obtain ⟨rest, rfl, hbody⟩ := walk_withLock.1 hrest
        obtain ⟨inner, hreset, rfl⟩ := walk_attempt_map.1 hbody
        exact .targeted hlisted.symm (resettable?_eq_some.1 htarget) (walk_resetDevice.1 hreset)
  · intro h
    cases h with
    | unlisted hfail => exact .inl ⟨_, walk_tryListDevices.2 ⟨_, rfl, hfail.symm⟩, rfl⟩
    | @untargeted listing devices hlisted hnone =>
      refine .inr ⟨_, [], devices, walk_tryListDevices.2 ⟨_, rfl, hlisted.symm⟩, ?_, rfl⟩
      have hnone : resettable? manager.resetPattern (devices.map Device.handle) = none := by
        rw [resettable?, List.findSome?_map, List.findSome?_eq_none_iff]
        exact hnone
      rw [hnone]
      exact walk_attempt_throw.2 ⟨rfl, rfl⟩
    | @targeted listing devices target rest inner hlisted htarget hreset =>
      refine .inr ⟨_, _, devices, walk_tryListDevices.2 ⟨_, rfl, hlisted.symm⟩, ?_, rfl⟩
      rw [resettable?_eq_some.2 htarget]
      exact walk_withLock.2 ⟨rest, rfl, walk_attempt_map.2 ⟨_, walk_resetDevice.2 hreset, rfl⟩⟩

/-! ## Before and after the reset -/

/-- What has come before the tool may be told to reset a device: a listing in which it is the first
target, its lock, and then a time within the window. -/
inductive Cleared (manager : Manager) (pluggedIn : Int) (target : String) :
    List Exchange → Prop
  | mk {listing : Except Failure Reply} {devices : List Device} {now : Int} :
      listed listing = .ok devices →
      FirstTarget manager.resetPattern (devices.map Device.handle) target →
      now - pluggedIn ≤ manager.timeouts.replugWindow →
      Cleared manager pluggedIn target
        [.ran .listDevices manager.timeouts.invocation listing, .acquired target, .read now]

theorem Cleared.not_resets {target : String} (h : Cleared manager pluggedIn target trace) :
    ∀ exchange ∈ trace, ¬ exchange.ask.Resets := by
  cases h with
  | mk =>
    intro exchange hmem
    simp only [List.mem_cons, List.not_mem_nil, or_false] at hmem
    rcases hmem with rfl | rfl | rfl
    · exact not_resets_listDevices
    · exact id
    · exact id

/-- The ways through a factory reset, by whether the tool is told to reset. -/
theorem ResetWalk.cleared_or {result : Except Failure String}
    (h : ResetWalk manager pluggedIn trace result) :
    (∃ target before answer, Cleared manager pluggedIn target before ∧
        trace = before ++ [.ran (.factoryReset target) manager.timeouts.touch answer] ∧
        result = (checked answer).map fun _ => target) ∨
      (∀ exchange ∈ trace, ¬ exchange.ask.Resets) ∧ ∃ failure, result = .error failure ∧
        ((∃ listing, trace = [.ran .listDevices manager.timeouts.invocation listing] ∧
          listed listing = .error failure) ∨
        failure = .noResettableDevice ∨ failure = .replugWindowElapsed) := by
  cases h with
  | @unlisted listing failure hfail =>
    refine .inr ⟨fun exchange hmem => ?_, failure, rfl, .inl ⟨listing, rfl, hfail⟩⟩
    obtain rfl := List.mem_singleton.1 hmem
    exact not_resets_listDevices
  | untargeted hlisted hnone =>
    refine .inr ⟨fun exchange hmem => ?_, _, rfl, .inr (.inl rfl)⟩
    obtain rfl := List.mem_singleton.1 hmem
    exact not_resets_listDevices
  | targeted hlisted htarget hreset =>
    cases hreset with
    | late hlate =>
      refine .inr ⟨fun exchange hmem => ?_, _, rfl, .inr (.inr rfl)⟩
      simp only [List.mem_cons, List.not_mem_nil, or_false] at hmem
      rcases hmem with rfl | rfl | rfl
      · exact not_resets_listDevices
      · exact id
      · exact id
    | reset answer hintime =>
      refine .inl ⟨_, _, answer, .mk hlisted htarget hintime, rfl, ?_⟩
      cases checked answer <;> rfl

/-- What comes before the tool is told to reset, and that nothing comes after it. -/
theorem ResetWalk.before {result : Except Failure String} {before after : List Exchange}
    {exchange : Exchange}
    (h : ResetWalk manager pluggedIn (before ++ exchange :: after) result)
    (hresets : exchange.ask.Resets) :
    ∃ target answer, Cleared manager pluggedIn target before ∧
      exchange = .ran (.factoryReset target) manager.timeouts.touch answer ∧ after = [] ∧
      result = (checked answer).map fun _ => target := by
  rcases h.cleared_or with ⟨target, front, answer, hcleared, htrace, hresult⟩ | ⟨hnone, -⟩
  · obtain ⟨rfl, rfl, rfl⟩ := append_cons_inj hcleared.not_resets hresets htrace.symm
    exact ⟨target, answer, hcleared, rfl, rfl, hresult⟩
  · exact absurd hresets (hnone exchange (by simp))

/-- A factory reset succeeds exactly where the tool did what it was told. -/
theorem ResetWalk.ok_iff {result : Except Failure String} {target : String}
    (h : ResetWalk manager pluggedIn trace result) :
    result = .ok target ↔ ∃ before reply,
      trace = before ++ [.ran (.factoryReset target) manager.timeouts.touch (.ok reply)] ∧
      reply.deviceError? = none := by
  rcases h.cleared_or with
    ⟨actual, before, answer, hcleared, rfl, rfl⟩ | ⟨hnone, failure, rfl, -⟩
  · constructor
    · intro hok
      cases hchecked : checked answer with
      | error failure =>
        rw [hchecked] at hok
        cases hok
      | ok reply =>
        rw [hchecked] at hok
        obtain rfl := Except.ok.inj hok
        obtain ⟨rfl, herror⟩ := checked_eq_ok.1 hchecked
        exact ⟨before, reply, rfl, herror⟩
    · rintro ⟨other, reply, htrace, herror⟩
      obtain ⟨rfl, hlast⟩ := List.append_inj' htrace rfl
      cases hlast
      rw [checked_eq_ok.2 ⟨rfl, herror⟩]
      rfl
  · constructor
    · intro hok
      cases hok
    · rintro ⟨before, reply, rfl, -⟩
      have hnot := hnone _ (List.mem_append_right before (List.mem_singleton_self _))
      exact absurd (resets_factoryReset target) hnot

/-! ## Among other operations -/

/-- Served as a request, a factory reset goes the same ways. -/
theorem walk_serve_factoryReset {session left : Option Session} {answer : Except Failure Answer} :
    Walk (manager.serve session (.factoryReset pluggedIn)) trace (left, answer) ↔
      ∃ result, ResetWalk manager pluggedIn trace result ∧ left = session ∧
        answer = result.map .handle := by
  constructor
  · intro h
    obtain ⟨result, hreset, heq⟩ := walk_map_iff.1 h
    cases heq
    exact ⟨result, walk_factoryReset.1 hreset, rfl, rfl⟩
  · rintro ⟨result, hreset, rfl, rfl⟩
    exact walk_map_iff.2 ⟨result, walk_factoryReset.2 hreset, rfl⟩

open Interleaving in
/-- While the tool resets a device, for one operation among others, the operation holds the lock of
that device and has come there with its own listing, that lock, and a time within the window. -/
theorem resets_under_lock {ι : Type} [DecidableEq ι] {operations : ι → Operation}
    {log : List (ι × Move)} {s : State ι (Option Session × Except Failure Answer)} {id : ι}
    {session : Option Session} {rest : Procedure (Option Session × Except Failure Answer)}
    {call : Invocation} (hreset : operations id = .serve session (.factoryReset pluggedIn))
    (hrun : Run (State.begin fun id => (operations id).procedure manager) log s)
    (hstand : s.stands id = .asked rest) (hask : rest.asks? = some (.tool call))
    (hresets : (Ask.tool call).Resets) :
    ∃ target, call = .factoryReset target ∧
      Cleared manager pluggedIn target (exchangesOf id log) ∧
      (id, target) ∈ s.locks.granted := by
  have hcame := came_run hrun id
  rw [hstand, hreset] at hcame
  obtain ⟨exchange, more, ⟨left, answer⟩, hsame, hwalk⟩ := Path.walk hcame hask
  obtain ⟨result, hreset, -, -⟩ := walk_serve_factoryReset.1 hwalk
  obtain ⟨target, reply, hcleared, rfl, -, -⟩ := hreset.before (hsame ▸ hresets)
  obtain rfl : Invocation.factoryReset target = call := Ask.tool.inj hsame
  have horderly := (orderly_begin fun id => (operations id).guards manager).run hrun
  exact ⟨target, rfl, hcleared, horderly.guarded hstand hask rfl⟩

end Manager

/-! ## On the command line -/

namespace CommandLine

open Text

/-- The first line of an input, without the blanks around it. -/
def firstLine (input : String) : List Char :=
  trim (input.toList.takeWhile (· ≠ '\n'))

/-- Whether a text is a yes, in letters of any case. -/
def Yes (text : List Char) : Prop :=
  lowered text = ['y'] ∨ lowered text = ['y', 'e', 's']

theorem isYes_iff {answer : String} : isYes answer ↔ Yes answer.toList := by
  simp [isYes, Yes]

/-- The first line goes to the first newline. A carriage return before it is trimmed. -/
theorem trim_head_lines (s : List Char) :
    trim ((lines s).head?.getD []) = trim (s.takeWhile (· ≠ '\n')) := by
  have hall : ∀ l : List Char, '\n' ∉ l → ∀ c ∈ l, decide (c ≠ '\n') := by
    intro l hl c hc
    exact decide_eq_true (ne_of_mem_of_not_mem hc hl)
  cases s using line_induction with
  | last s hs =>
    rw [List.takeWhile_eq_self_iff.2 (hall s hs), lines_of_not_mem hs]
    by_cases hnil : s = [] <;> simp [hnil]
  | line l s hl _ =>
    have hfirst : (l ++ '\n' :: s).takeWhile (· ≠ '\n') = l := by
      rw [List.takeWhile_append_of_pos (hall l hl), List.takeWhile_cons_of_neg (by decide),
        List.append_nil]
    obtain ⟨body, hbody, hcut⟩ := lines_cut hl
    rw [hfirst, hcut]
    rcases hbody with rfl | rfl
    · rfl
    · exact (trim_concat (by decide) body).symm

/-- The answer to the first question is the first line. -/
theorem nextLine_inputLines (input : String) :
    (nextLine (inputLines input)).1.toList = firstLine input := by
  rw [firstLine, ← trim_head_lines, inputLines]
  cases lines input.toList with
  | nil => rfl
  | cons line rest => exact String.toList_ofList ..

/-- Without a yes, a reset only prints. -/
theorem walk_reset_cancelled {manager : Manager} {input : List String}
    {result : Except Trouble Unit} (h : Walk (reset manager false input).run trace result)
    (hno : isYes (nextLine input).1 = false) : ∃ texts : List String, trace = texts.map .said := by
  rw [reset, walk_attempt_bind] at h
  rcases h with ⟨trouble, hsay, _⟩ | ⟨_, _, _, hsay, hrest, rfl⟩
  · cases (walk_sayLine.1 hsay).2
  · obtain ⟨rfl, -⟩ := walk_sayLine.1 hsay
    rw [if_neg Bool.false_ne_true, walk_attempt_bind] at hrest
    rcases hrest with ⟨trouble, hask, _⟩ | ⟨_, _, _, hask, hcancel, rfl⟩
    · cases (walk_say.1 hask).2
    · obtain ⟨rfl, -⟩ := walk_say.1 hask
      rw [hno, if_neg Bool.false_ne_true] at hcancel
      obtain ⟨rfl, -⟩ := walk_sayLine.1 hcancel
      exact ⟨[_, _, _], rfl⟩

end CommandLine

/-! ## All gates -/

/-- What stands before a factory reset. -/
structure ResetGated (manager : Manager) : Prop where
  /-- The tool is told to reset after a listing in which the target comes first, its lock, and a
  time within the window, at the end, and once. -/
  cleared : ∀ {pluggedIn before exchange after result},
    Walk (manager.factoryReset pluggedIn).run (before ++ exchange :: after) result →
    exchange.ask.Resets → ∃ target answer, Manager.Cleared manager pluggedIn target before ∧
      exchange = .ran (.factoryReset target) manager.timeouts.touch answer ∧ after = []
  /-- After these, it is told to. -/
  told : ∀ {pluggedIn target before}, Manager.Cleared manager pluggedIn target before →
    ∀ answer, ∃ result, Walk (manager.factoryReset pluggedIn).run
      (before ++ [.ran (.factoryReset target) manager.timeouts.touch answer]) result
  /-- Where it is not, the listing failed, or had no target, or it was too late. -/
  refused : ∀ {pluggedIn trace result}, Walk (manager.factoryReset pluggedIn).run trace result →
    (∀ exchange ∈ trace, ¬ exchange.ask.Resets) → ∃ failure, result = .error failure ∧
      ((∃ listing, trace = [.ran .listDevices manager.timeouts.invocation listing] ∧
        Manager.listed listing = .error failure) ∨
      failure = .noResettableDevice ∨ failure = .replugWindowElapsed)
  /-- A reset succeeds exactly where the tool ran it and its reply holds no device error. -/
  ok_iff : ∀ {pluggedIn trace result target},
    Walk (manager.factoryReset pluggedIn).run trace result →
    (result = .ok target ↔ ∃ before reply,
      trace = before ++ [.ran (.factoryReset target) manager.timeouts.touch (.ok reply)] ∧
      reply.deviceError? = none)
  /-- Among other operations, the lock of the target is held while the tool resets it. -/
  under_lock : ∀ {ι : Type} [DecidableEq ι] {operations : ι → Operation} {log s id session
      pluggedIn rest call},
    operations id = .serve session (.factoryReset pluggedIn) →
    Interleaving.Run (.begin fun id => (operations id).procedure manager) log s →
    s.stands id = .asked rest → rest.asks? = some (.tool call) → (Ask.tool call).Resets →
    ∃ target, call = .factoryReset target ∧
      Manager.Cleared manager pluggedIn target (Interleaving.exchangesOf id log) ∧
      (id, target) ∈ s.locks.granted
  /-- The command uses the tool only where it was told not to ask, or where the first line of the
  input is a yes. -/
  asked : ∀ {environment args settings yes input trace result},
    CommandLine.read environment args = .ok settings → settings.command = .reset yes →
    Walk (CommandLine.run manager (CommandLine.inputLines input) settings.command).run trace
      result →
    (∃ exchange ∈ trace, exchange.ask.UsesTool) →
    "--yes" ∈ args ∨ CommandLine.Yes (CommandLine.firstLine input)

/-- **A factory reset is gated** by the listing, the pattern, the lock, the window and a yes. -/
theorem factoryReset_gated (manager : Manager) : ResetGated manager where
  cleared h hresets := by
    obtain ⟨target, answer, hcleared, rfl, rfl, -⟩ :=
      (Manager.walk_factoryReset.1 h).before hresets
    exact ⟨target, answer, hcleared, rfl, rfl⟩
  told h answer := by
    cases h with
    | mk hlisted htarget hintime =>
      exact ⟨_, Manager.walk_factoryReset.2 (.targeted hlisted htarget (.reset answer hintime))⟩
  refused h hnone := by
    rcases (Manager.walk_factoryReset.1 h).cleared_or with ⟨target, before, answer, _, rfl, _⟩ | h
    · have hnot := hnone _ (List.mem_append_right before (List.mem_singleton_self _))
      exact absurd (resets_factoryReset target) hnot
    · exact h.2
  ok_iff h := (Manager.walk_factoryReset.1 h).ok_iff
  under_lock hreset hrun hstand hask hresets :=
    Manager.resets_under_lock hreset hrun hstand hask hresets
  asked := by
    intro environment args settings yes input trace result hread hcommand hwalk huse
    rw [hcommand] at hwalk
    cases yes with
    | true => exact .inl (CommandLine.mem_of_read_reset hread hcommand)
    | false =>
      right
      rw [← CommandLine.nextLine_inputLines, ← CommandLine.isYes_iff]
      by_contra hno
      rw [Bool.not_eq_true] at hno
      obtain ⟨texts, rfl⟩ := CommandLine.walk_reset_cancelled hwalk hno
      obtain ⟨exchange, hmem, huses⟩ := huse
      obtain ⟨text, -, rfl⟩ := List.mem_map.1 hmem
      exact huses

end SecurityKey
