import Mathlib.Data.List.Basic
import Mathlib.Tactic.Common
import SecurityKey.Proofs.Pattern.Straight
/-!
# What a search finds

A search follows all ways through a machine side by side, and looks at each step once only before
each character. On a machine that is straight it finds what a reader finds who goes one way at a
time and goes back where that fails: `followed` says so of the ways at one place of a text, and
`run_eq` of those through the whole.

Main statements: `find?_eq_firstMatch`, and from it `find?_eq_some_iff` and `find?_eq_none_iff`.
-/

namespace SecurityKey.Pattern

namespace Machine

variable {machine : Machine}

/-! ## One look at a step -/

section Follow

variable {place : Place} {stamp fuel : Nat} {way : Way} {pending ways : List Way}
  {seen : Array Nat} {step : Step}

theorem follow_nil : machine.follow place stamp fuel [] ways seen = (ways, seen) := by
  cases fuel <;> rfl

theorem follow_seen (h : seen[way.step]? = some stamp) :
    machine.follow place stamp (fuel + 1) (way :: pending) ways seen =
      machine.follow place stamp fuel pending ways seen := by
  rw [follow, if_pos h]

theorem follow_goal (h : seen[way.step]? ≠ some stamp) (hgoal : machine[way.step]? = none) :
    machine.follow place stamp (fuel + 1) (way :: pending) ways seen =
      (way :: ways, seen.setIfInBounds way.step stamp) := by
  rw [follow, if_neg h]
  simp only [hgoal]

theorem follow_take (h : seen[way.step]? ≠ some stamp) (hstep : machine[way.step]? = some step)
    (htakes : step.takes = true) :
    machine.follow place stamp (fuel + 1) (way :: pending) ways seen =
      machine.follow place stamp fuel pending (way :: ways)
        (seen.setIfInBounds way.step stamp) := by
  rw [follow, if_neg h]
  simp only [hstep]
  cases step with
  | take set next => rfl
  | _ => cases htakes

theorem follow_onward (h : seen[way.step]? ≠ some stamp) (hstep : machine[way.step]? = some step)
    (htakes : step.takes = false) :
    machine.follow place stamp (fuel + 1) (way :: pending) ways seen =
      machine.follow place stamp fuel ((step.onward place).map way.onTo ++ pending) ways
        (seen.setIfInBounds way.step stamp) := by
  rw [follow, if_neg h]
  simp only [hstep]
  cases step with
  | take set next => cases htakes
  | goTo next => rfl
  | fork preferred other => rfl
  | atStart next => cases hstart : place.isStart <;> simp [Step.onward, hstart, Way.onTo]
  | atFinish next => cases hfinish : place.isFinish <;> simp [Step.onward, hfinish, Way.onTo]

end Follow

/-! ## Following all ways -/

section Followed

variable (straight : Straight machine) (position : Nat) (s : List Char)

/-- Where a match begins and ends that a way comes to, before the text `s`. -/
def Straight.matchOf (way : Way) : Option (Nat × Nat) :=
  (straight.backtrack (position = 0) way.step s).map fun n => (way.began, position + n)

/-- A step that was looked at needs no other look. All that it leads to was followed, or is followed
next, so if it leads to a match, one of these ways does. -/
def Straight.Settled (ways pending : List Way) (q : Nat) : Prop :=
  ∃ next rest, pending = next ++ rest ∧
    (∀ way ∈ next, straight.rank way.step < straight.rank q) ∧
    ((straight.backtrack (position = 0) q s).isSome →
      ∃ way ∈ ways ++ next, (straight.matchOf position s way).isSome)

/-- How many steps were not looked at. -/
def unlooked (stamp : Nat) (seen : Array Nat) : Nat :=
  seen.countP (· ≠ stamp)

/-- The ways that go no further take a character, but for the last one, which may be at the goal. -/
def Halted (machine : Machine) (ways : List Way) : Prop :=
  ∃ taking, (∀ way ∈ taking, ∃ set next, machine[way.step]? = some (.take set next)) ∧
    (ways = taking ∨ ∃ goal : Way, goal.step = machine.size ∧ ways = goal :: taking)

/-- What comes of some ways that are all followed. -/
structure Followed (all : List Way) (seen : Array Nat) (result : List Way × Array Nat) :
    Prop where
  found : result.1.reverse.findSome? (straight.matchOf position s) =
    all.findSome? (straight.matchOf position s)
  halted : Halted machine result.1
  size : result.2.size = machine.size + 1
  stamps : ∀ (q stamp : Nat), result.2[q]? = some stamp →
    stamp = position + 1 ∨ seen[q]? = some stamp

variable {straight position s} {way : Way} {ways pending more : List Way} {q stamp fuel : Nat}
  {seen : Array Nat}

theorem isSome_matchOf : (straight.matchOf position s way).isSome ↔
    (straight.backtrack (position = 0) way.step s).isSome := by
  rw [Straight.matchOf, Option.isSome_map]

namespace Straight.Settled

/-- If a step is come to again, all that it leads to was followed. -/
theorem followed_all (h : straight.Settled position s ways (way :: pending) way.step)
    (hmatch : (straight.matchOf position s way).isSome) :
    ∃ other ∈ ways, (straight.matchOf position s other).isSome := by
  obtain ⟨next, rest, hpending, hrank, hsome⟩ := h
  obtain ⟨other, hother, hfound⟩ := hsome (isSome_matchOf.1 hmatch)
  cases next with
  | nil => exact ⟨other, by simpa using hother, hfound⟩
  | cons first next =>
    obtain ⟨rfl, -⟩ := List.cons.inj hpending
    exact absurd (hrank way List.mem_cons_self) (Nat.lt_irrefl _)

theorem skip (h : straight.Settled position s ways (way :: pending) q)
    (hway : straight.Settled position s ways (way :: pending) way.step) :
    straight.Settled position s ways pending q := by
  obtain ⟨next, rest, hpending, hrank, hsome⟩ := h
  cases next with
  | nil => exact ⟨[], pending, rfl, List.forall_mem_nil _, hsome⟩
  | cons first next =>
    obtain ⟨rfl, rfl⟩ := List.cons.inj hpending
    refine ⟨next, rest, rfl, fun w hw => hrank w (List.mem_cons_of_mem _ hw), fun hq => ?_⟩
    obtain ⟨other, hother, hfound⟩ := hsome hq
    rcases List.mem_append.1 hother with hmem | hmem
    · exact ⟨other, List.mem_append_left _ hmem, hfound⟩
    · rcases List.mem_cons.1 hmem with rfl | hmem
      · obtain ⟨earlier, hearlier, hmatch⟩ := hway.followed_all hfound
        exact ⟨earlier, List.mem_append_left _ hearlier, hmatch⟩
      · exact ⟨other, List.mem_append_right _ hmem, hfound⟩

theorem take (h : straight.Settled position s ways (way :: pending) q) :
    straight.Settled position s (way :: ways) pending q := by
  obtain ⟨next, rest, hpending, hrank, hsome⟩ := h
  cases next with
  | nil =>
    refine ⟨[], pending, rfl, List.forall_mem_nil _, fun hq => ?_⟩
    obtain ⟨other, hother, hfound⟩ := hsome hq
    exact ⟨other, List.mem_cons_of_mem _ hother, hfound⟩
  | cons first next =>
    obtain ⟨rfl, rfl⟩ := List.cons.inj hpending
    refine ⟨next, rest, rfl, fun w hw => hrank w (List.mem_cons_of_mem _ hw), fun hq => ?_⟩
    obtain ⟨other, hother, hfound⟩ := hsome hq
    exact ⟨other, by simpa [or_left_comm] using hother, hfound⟩

theorem onward (h : straight.Settled position s ways (way :: pending) q)
    (hrank : ∀ other ∈ more, straight.rank other.step < straight.rank way.step)
    (hmore : (straight.matchOf position s way).isSome →
      ∃ other ∈ more, (straight.matchOf position s other).isSome) :
    straight.Settled position s ways (more ++ pending) q := by
  obtain ⟨next, rest, hpending, hless, hsome⟩ := h
  cases next with
  | nil => exact ⟨[], more ++ pending, rfl, List.forall_mem_nil _, hsome⟩
  | cons first next =>
    obtain ⟨rfl, rfl⟩ := List.cons.inj hpending
    have hway := hless way List.mem_cons_self
    refine ⟨more ++ next, rest, by simp, fun w hw => ?_, fun hq => ?_⟩
    · rcases List.mem_append.1 hw with hw | hw
      · exact Nat.lt_trans (hrank w hw) hway
      · exact hless w (List.mem_cons_of_mem _ hw)
    · obtain ⟨other, hother, hfound⟩ := hsome hq
      rcases List.mem_append.1 hother with hmem | hmem
      · exact ⟨other, List.mem_append_left _ hmem, hfound⟩
      · rcases List.mem_cons.1 hmem with rfl | hmem
        · obtain ⟨later, hlater, hmatch⟩ := hmore hfound
          exact ⟨later, by simp [hlater], hmatch⟩
        · exact ⟨other, by simp [hmem], hfound⟩

end Straight.Settled

theorem unlooked_set (hlook : seen[q]? ≠ some stamp) (hq : q < seen.size) :
    unlooked stamp (seen.setIfInBounds q stamp) + 1 = unlooked stamp seen := by
  have hpos : 0 < seen.countP (· ≠ stamp) := by
    rw [Array.countP_pos_iff]
    refine ⟨seen[q], Array.getElem_mem hq, ?_⟩
    rw [Array.getElem?_eq_getElem hq] at hlook
    simpa using hlook
  rw [Array.getElem?_eq_getElem hq] at hlook
  have hne : seen[q] ≠ stamp := fun heq => hlook (congrArg some heq)
  rw [unlooked, unlooked, Array.setIfInBounds, dif_pos hq, Array.countP_set]
  simp only [ne_eq, hne, not_false_eq_true, decide_true, if_true, not_true, decide_false,
    Bool.false_eq_true, if_false, Nat.add_zero]
  simp only [ne_eq] at hpos
  omega

theorem getElem?_set {looked found : Nat}
    (h : (seen.setIfInBounds looked stamp)[q]? = some found) :
    (q = looked ∧ found = stamp) ∨ seen[q]? = some found := by
  rw [Array.getElem?_setIfInBounds] at h
  split_ifs at h with heq hlt
  · exact .inl ⟨heq.symm, (Option.some.inj h).symm⟩
  · exact .inr h

theorem stamps_set {looked : Nat} (q found : Nat)
    (h : (seen.setIfInBounds looked stamp)[q]? = some found) :
    found = stamp ∨ seen[q]? = some found :=
  (getElem?_set h).imp_left And.right

theorem Straight.onward_of_mem (straight : Straight machine) {step : Step} {place : Place}
    (hstep : machine[way.step]? = some step) {other : Way}
    (h : other ∈ (step.onward place).map way.onTo) :
    straight.rank other.step < straight.rank way.step ∧ other.step ≤ machine.size := by
  obtain ⟨next, hnext, rfl⟩ := List.mem_map.1 h
  exact ⟨straight.rank_lt way.step step place next hstep hnext,
    straight.onward_le way.step step place next hstep hnext⟩

/-- A way goes on to where its step leads, the preferred step first. -/
theorem matchOf_onward {step : Step} (hstep : machine[way.step]? = some step)
    (htakes : step.takes = false) :
    straight.matchOf position s way =
      ((step.onward ⟨position = 0, s.isEmpty⟩).map way.onTo).findSome?
        (straight.matchOf position s) := by
  rw [Straight.matchOf, straight.backtrack_onward hstep htakes, List.map_findSome?,
    List.findSome?_map]
  rfl

theorem Followed.mono {all other : List Way} {before : Array Nat} {result : List Way × Array Nat}
    (h : Followed straight position s all seen result)
    (hfound : all.findSome? (straight.matchOf position s) =
      other.findSome? (straight.matchOf position s))
    (hseen : ∀ (q stamp : Nat), seen[q]? = some stamp →
      stamp = position + 1 ∨ before[q]? = some stamp) :
    Followed straight position s other before result where
  found := h.found.trans hfound
  halted := h.halted
  size := h.size
  stamps q stamp hq := (h.stamps q stamp hq).elim .inl (hseen q stamp)

/-- A way is left out that comes to nothing, or to nothing better. -/
theorem findSome?_skip (h : (straight.matchOf position s way).isSome →
    ∃ other ∈ ways, (straight.matchOf position s other).isSome) :
    (ways.reverse ++ pending).findSome? (straight.matchOf position s) =
      (ways.reverse ++ way :: pending).findSome? (straight.matchOf position s) := by
  rw [List.findSome?_append, List.findSome?_append, List.findSome?_cons]
  cases hway : straight.matchOf position s way with
  | none => rfl
  | some found =>
    obtain ⟨other, hother, hsome⟩ := h (by rw [hway]; rfl)
    have hearlier : (ways.reverse.findSome? (straight.matchOf position s)).isSome :=
      List.findSome?_isSome_iff.2 ⟨other, List.mem_reverse.2 hother, hsome⟩
    obtain ⟨best, hbest⟩ := Option.isSome_iff_exists.1 hearlier
    rw [hbest, Option.some_or, Option.some_or]

theorem length_onward_le (step : Step) (place : Place) : (step.onward place).length ≤ 2 := by
  cases step with
  | take set next => exact Nat.zero_le 2
  | goTo next => exact Nat.le_succ 1
  | fork preferred other => exact Nat.le_refl 2
  | atStart next => rw [Step.onward]; split_ifs <;> simp
  | atFinish next => rw [Step.onward]; split_ifs <;> simp

/-- The state of looking at steps. The fuel is enough, as each look uses up as much as it adds. -/
structure Following (straight : Straight machine) (position : Nat) (s : List Char)
    (ways pending : List Way) (seen : Array Nat) (fuel : Nat) : Prop where
  enough : pending.length + 2 * unlooked (position + 1) seen ≤ fuel
  taking : ∀ way ∈ ways, ∃ set next, machine[way.step]? = some (.take set next)
  step_le : ∀ way ∈ pending, way.step ≤ machine.size
  size : seen.size = machine.size + 1
  settled : ∀ q : Nat, seen[q]? = some (position + 1) → straight.Settled position s ways pending q

namespace Following

variable {step : Step}

/-- A step that was looked at is skipped. -/
theorem skip (h : Following straight position s ways (way :: pending) seen (fuel + 1))
    (hlook : seen[way.step]? = some (position + 1)) :
    Following straight position s ways pending seen fuel where
  enough := by
    have henough := h.enough
    rw [List.length_cons] at henough
    omega
  taking := h.taking
  step_le := (List.forall_mem_cons.1 h.step_le).2
  size := h.size
  settled q hq := (h.settled q hq).skip (h.settled way.step hlook)

/-- A look at a step makes up for two ways. -/
theorem enough_look (h : Following straight position s ways (way :: pending) seen (fuel + 1))
    (hlook : seen[way.step]? ≠ some (position + 1)) (hstep : machine[way.step]? = some step) :
    pending.length + 2 + 2 * unlooked (position + 1) (seen.setIfInBounds way.step (position + 1)) ≤
      fuel := by
  have hlt : way.step < seen.size := by
    have := (Array.getElem?_eq_some_iff.1 hstep).1
    have := h.size
    omega
  have hless := unlooked_set hlook hlt
  have henough := h.enough
  rw [List.length_cons] at henough
  omega

theorem size_look (h : Following straight position s ways (way :: pending) seen (fuel + 1)) :
    (seen.setIfInBounds way.step (position + 1)).size = machine.size + 1 :=
  Array.size_setIfInBounds.trans h.size

/-- A step that takes a character goes no further. -/
theorem take (h : Following straight position s ways (way :: pending) seen (fuel + 1))
    (hlook : seen[way.step]? ≠ some (position + 1)) (hstep : machine[way.step]? = some step)
    (htakes : step.takes = true) :
    Following straight position s (way :: ways) pending
      (seen.setIfInBounds way.step (position + 1)) fuel where
  enough := Nat.le_trans (by omega) (h.enough_look hlook hstep)
  taking := by
    refine List.forall_mem_cons.2 ⟨?_, h.taking⟩
    cases step with
    | take set next => exact ⟨set, next, hstep⟩
    | _ => cases htakes
  step_le := (List.forall_mem_cons.1 h.step_le).2
  size := h.size_look
  settled q hq := by
    rcases getElem?_set hq with ⟨rfl, -⟩ | hq
    · exact ⟨[], pending, rfl, List.forall_mem_nil _, fun hmatch =>
        ⟨way, List.mem_cons_self, isSome_matchOf.2 hmatch⟩⟩
    · exact (h.settled q hq).take

/-- Another step leads on. -/
theorem onward (h : Following straight position s ways (way :: pending) seen (fuel + 1))
    (hlook : seen[way.step]? ≠ some (position + 1)) (hstep : machine[way.step]? = some step)
    (htakes : step.takes = false) :
    Following straight position s ways
      ((step.onward ⟨position = 0, s.isEmpty⟩).map way.onTo ++ pending)
      (seen.setIfInBounds way.step (position + 1)) fuel where
  enough := by
    have hlength := length_onward_le step ⟨position = 0, s.isEmpty⟩
    have henough := h.enough_look hlook hstep
    rw [List.length_append, List.length_map]
    omega
  taking := h.taking
  step_le := List.forall_mem_append.2 ⟨fun other hother => (straight.onward_of_mem hstep hother).2,
    (List.forall_mem_cons.1 h.step_le).2⟩
  size := h.size_look
  settled q hq := by
    have hrank : ∀ other ∈ (step.onward ⟨position = 0, s.isEmpty⟩).map way.onTo,
        straight.rank other.step < straight.rank way.step :=
      fun other hother => (straight.onward_of_mem hstep hother).1
    have hsome : (straight.matchOf position s way).isSome →
        ∃ other ∈ (step.onward ⟨position = 0, s.isEmpty⟩).map way.onTo,
          (straight.matchOf position s other).isSome := by
      rw [matchOf_onward hstep htakes]
      exact List.findSome?_isSome_iff.1
    rcases getElem?_set hq with ⟨rfl, -⟩ | hq
    · refine ⟨_, pending, rfl, hrank, fun hmatch => ?_⟩
      obtain ⟨other, hother, hfound⟩ := hsome (isSome_matchOf.2 hmatch)
      exact ⟨other, List.mem_append_right _ hother, hfound⟩
    · exact (h.settled q hq).onward hrank hsome

/-- Where no way is left, all are followed. -/
theorem done (h : Following straight position s ways [] seen fuel) :
    Followed straight position s (ways.reverse ++ []) seen (ways, seen) where
  found := by rw [List.append_nil]
  halted := ⟨ways, h.taking, .inl rfl⟩
  size := h.size
  stamps _ _ hq := .inr hq

/-- At the goal the ways that are left are given up, as they come to nothing better. -/
theorem goal (h : Following straight position s ways (way :: pending) seen (fuel + 1))
    (hgoal : machine[way.step]? = none) :
    Followed straight position s (ways.reverse ++ way :: pending) seen
      (way :: ways, seen.setIfInBounds way.step (position + 1)) where
  found := by
    have hmatch : straight.matchOf position s way = some (way.began, position) := by
      rw [Straight.matchOf, straight.backtrack_goal hgoal]
      rfl
    simp only [List.reverse_cons, List.findSome?_append, List.findSome?_cons, hmatch]
  halted := ⟨ways, h.taking, .inr ⟨way, Nat.le_antisymm (h.step_le way List.mem_cons_self)
    (Array.getElem?_eq_none_iff.1 hgoal), rfl⟩⟩
  size := h.size_look
  stamps := stamps_set

end Following

/-- **All ways are followed**, in the order of preference: what they come to is what those come to
that go no further. -/
theorem followed (h : Following straight position s ways pending seen fuel) :
    Followed straight position s (ways.reverse ++ pending) seen
      (machine.follow ⟨position = 0, s.isEmpty⟩ (position + 1) fuel pending ways seen) := by
  -- Each look uses up fuel, and leaves a state of the same kind; the fuel ends with the ways.
  induction fuel generalizing pending ways seen with
  | zero =>
    have henough := h.enough
    obtain rfl : pending = [] := List.length_eq_zero_iff.1 (by omega)
    exact h.done
  | succ fuel ih =>
    cases pending with
    | nil =>
      rw [follow_nil]
      exact h.done
    | cons way pending =>
      by_cases hlook : seen[way.step]? = some (position + 1)
      · rw [follow_seen hlook]
        exact (ih (h.skip hlook)).mono
          (findSome?_skip (h.settled way.step hlook).followed_all) fun _ _ => .inr
      cases hstep : machine[way.step]? with
      | none =>
        rw [follow_goal hlook hstep]
        exact h.goal hstep
      | some step =>
        cases htakes : step.takes with
        | true =>
          rw [follow_take hlook hstep htakes]
          exact (ih (h.take hlook hstep htakes)).mono (by simp) stamps_set
        | false =>
          rw [follow_onward hlook hstep htakes]
          refine (ih (h.onward hlook hstep htakes)).mono ?_ stamps_set
          simp only [List.findSome?_append, List.findSome?_cons, ← matchOf_onward hstep htakes]
          cases straight.matchOf position s way <;> rfl

end Followed

/-! ## The whole text -/

/-- Where the first match begins and ends, if none begins before `position`. -/
def Straight.firstMatch (straight : Straight machine) (position : Nat) :
    List Char → Option (Nat × Nat)
  | [] => straight.matchOf position [] ⟨0, position⟩
  | c :: s => (straight.matchOf position (c :: s) ⟨0, position⟩).or
      (straight.firstMatch (position + 1) s)

section Run

variable {straight : Straight machine} {position : Nat} {s : List Char} {c : Char}
  {ways : List Way} {best : Option (Nat × Nat)} {seen : Array Nat}

/-- The best match after ways were followed. -/
def bestAfter (machine : Machine) (position : Nat) (best : Option (Nat × Nat)) :
    List Way → Option (Nat × Nat)
  | ⟨step, began⟩ :: _ => if step = machine.size then some (began, position) else best
  | [] => best

theorem bestAfter_taking
    (h : ∀ way ∈ ways, ∃ set next, machine[way.step]? = some (.take set next)) :
    bestAfter machine position best ways = best := by
  cases ways with
  | nil => rfl
  | cons way ways =>
    obtain ⟨set, next, hstep⟩ := h way List.mem_cons_self
    exact if_neg (Nat.ne_of_lt (Array.getElem?_eq_some_iff.1 hstep).1)

theorem bestAfter_goal {goal : Way} (h : goal.step = machine.size) :
    bestAfter machine position best (goal :: ways) = some (goal.began, position) :=
  if_pos h

theorem matchOf_goal {goal : Way} (h : goal.step = machine.size) :
    straight.matchOf position s goal = some (goal.began, position) := by
  rw [Straight.matchOf, straight.backtrack_goal (by simp [h])]
  rfl

/-- At the end of the text only the goal is a match. -/
theorem bestAfter_eq_nil (h : Halted machine ways) :
    bestAfter machine position best ways =
      (ways.reverse.findSome? (straight.matchOf position [])).or best := by
  obtain ⟨taking, htaking, hways⟩ := h
  have hnone : taking.reverse.findSome? (straight.matchOf position []) = none := by
    rw [List.findSome?_eq_none_iff]
    intro way hway
    obtain ⟨set, next, hstep⟩ := htaking way (List.mem_reverse.1 hway)
    rw [Straight.matchOf, straight.backtrack_take_nil hstep]
    rfl
  rcases hways with rfl | ⟨goal, hgoal, rfl⟩
  · rw [bestAfter_taking htaking, hnone, Option.none_or]
  · rw [bestAfter_goal hgoal, List.reverse_cons, List.findSome?_append, hnone,
      List.findSome?_cons, matchOf_goal hgoal]
    rfl

theorem matchOf_taken? {way : Way} {set : CharSet} {next : Nat}
    (hstep : machine[way.step]? = some (.take set next)) :
    (machine.taken? c way).bind (straight.matchOf (position + 1) s) =
      straight.matchOf position (c :: s) way := by
  rw [taken?, Straight.matchOf, straight.backtrack_take_cons hstep, hstep]
  by_cases hc : set.has c
  · simp only [hc, if_true, Option.bind_some, Straight.matchOf, Option.map_map,
      Nat.add_one_ne_zero, decide_false]
    congr 1
    funext n
    simp only [Function.comp_apply, Nat.add_assoc, Nat.add_comm 1]
  · simp [hc]

theorem taken?_goal {goal : Way} (h : goal.step = machine.size) :
    machine.taken? c goal = none := by
  rw [taken?, Array.getElem?_eq_none (Nat.le_of_eq h.symm)]

/-- Before a character, the ways that take it are followed behind it. -/
theorem bestAfter_eq_cons (h : Halted machine ways) :
    ((ways.reverse.filterMap (machine.taken? c)).findSome?
        (straight.matchOf (position + 1) s)).or (bestAfter machine position best ways) =
      (ways.reverse.findSome? (straight.matchOf position (c :: s))).or best := by
  obtain ⟨taking, htaking, hways⟩ := h
  have hbehind : (taking.reverse.filterMap (machine.taken? c)).findSome?
      (straight.matchOf (position + 1) s) =
        taking.reverse.findSome? (straight.matchOf position (c :: s)) := by
    have heach : taking.reverse.filterMap (fun way =>
        (machine.taken? c way).bind (straight.matchOf (position + 1) s)) =
          taking.reverse.filterMap (straight.matchOf position (c :: s)) := by
      refine List.filterMap_congr fun way hway => ?_
      obtain ⟨set, next, hstep⟩ := htaking way (List.mem_reverse.1 hway)
      exact matchOf_taken? hstep
    rw [← List.head?_filterMap, List.filterMap_filterMap, heach, List.head?_filterMap]
  rcases hways with rfl | ⟨goal, hgoal, rfl⟩
  · rw [bestAfter_taking htaking, hbehind]
  · rw [bestAfter_goal hgoal, List.reverse_cons, List.filterMap_append, List.filterMap_cons,
      taken?_goal hgoal, List.filterMap_nil, List.append_nil, hbehind, List.findSome?_append,
      List.findSome?_cons, matchOf_goal hgoal, Option.or_assoc, Option.some_or]

theorem step_le_of_taken? (straight : Straight machine) {way next : Way}
    (h : machine.taken? c way = some next) : next.step ≤ machine.size := by
  rw [taken?] at h
  split at h
  · next set step hstep =>
    split_ifs at h
    cases h
    exact straight.take_le way.step set step hstep
  · cases h

/-- The ways to be followed at a place: those that are there, and one that begins. -/
def pendingAt (position : Nat) (ways : List Way) (best : Option (Nat × Nat)) : List Way :=
  if best.isNone then ways ++ [⟨0, position⟩] else ways

/-- What comes of them. -/
def lookAt (machine : Machine) (position : Nat) (ways : List Way) (best : Option (Nat × Nat))
    (seen : Array Nat) (s : List Char) : List Way × Array Nat :=
  machine.follow ⟨position = 0, s.isEmpty⟩ (position + 1)
    ((pendingAt position ways best).length + 2 * (machine.size + 1))
    (pendingAt position ways best) [] seen

theorem run_nil : machine.run position ways best seen [] =
    bestAfter machine position best (machine.lookAt position ways best seen []).1 := by
  rfl

theorem run_cons : machine.run position ways best seen (c :: s) =
    let (halted, seen) := machine.lookAt position ways best seen (c :: s)
    let best := bestAfter machine position best halted
    let ways := halted.reverse.filterMap (machine.taken? c)
    if ways.isEmpty && best.isSome then best
    else machine.run (position + 1) ways best seen s := by
  rfl

theorem lookAt_followed (straight : Straight machine)
    (hways : ∀ way ∈ ways, way.step ≤ machine.size)
    (hsize : seen.size = machine.size + 1)
    (hseen : ∀ q stamp : Nat, seen[q]? = some stamp → stamp ≤ position) :
    Followed straight position s (pendingAt position ways best) seen
      (machine.lookAt position ways best seen s) := by
  have hpending : ∀ way ∈ pendingAt position ways best, way.step ≤ machine.size := by
    rw [pendingAt]
    split_ifs
    · exact List.forall_mem_append.2 ⟨hways, List.forall_mem_singleton.2 (Nat.zero_le _)⟩
    · exact hways
  have hcount : unlooked (position + 1) seen ≤ seen.size := Array.countP_le_size
  have hfuel : (pendingAt position ways best).length + 2 * unlooked (position + 1) seen ≤
      (pendingAt position ways best).length + 2 * (machine.size + 1) := by
    omega
  exact followed ⟨hfuel, List.forall_mem_nil _, hpending, hsize, fun q hq =>
    absurd (hseen q _ hq) (Nat.not_succ_le_self position)⟩

/-- What is found from the ways that are there and the one that begins. -/
theorem findSome?_pendingAt : (pendingAt position ways best).findSome?
      (straight.matchOf position s) =
    (ways.findSome? (straight.matchOf position s)).or
      (if best.isNone then straight.matchOf position s ⟨0, position⟩ else none) := by
  rw [pendingAt]
  split_ifs
  · rw [List.findSome?_append, List.findSome?_singleton]
  · rw [Option.or_none]

/-- What is found already and behind a character is what was to be found before it. -/
theorem found_cons {result : List Way × Array Nat}
    (hlook : Followed straight position (c :: s) (pendingAt position ways best) seen result) :
    ((result.1.reverse.filterMap (machine.taken? c)).findSome?
        (straight.matchOf (position + 1) s)).or
          ((bestAfter machine position best result.1).or (straight.firstMatch (position + 1) s)) =
      (ways.findSome? (straight.matchOf position (c :: s))).or
        (best.or (straight.firstMatch position (c :: s))) := by
  rw [← Option.or_assoc, bestAfter_eq_cons hlook.halted, hlook.found, findSome?_pendingAt,
    Option.or_assoc, Option.or_assoc]
  cases best <;> simp [Straight.firstMatch]

/-- What a search comes to from some ways and what it has found already. -/
theorem run_eq (straight : Straight machine) (hways : ∀ way ∈ ways, way.step ≤ machine.size)
    (hsize : seen.size = machine.size + 1)
    (hseen : ∀ q stamp : Nat, seen[q]? = some stamp → stamp ≤ position) :
    machine.run position ways best seen s =
      (ways.findSome? (straight.matchOf position s)).or
        (best.or (straight.firstMatch position s)) := by
  induction s generalizing position ways best seen with
  | nil =>
    have hlook : Followed straight position [] (pendingAt position ways best) seen _ :=
      lookAt_followed straight hways hsize hseen
    rw [run_nil, bestAfter_eq_nil hlook.halted, hlook.found, findSome?_pendingAt, Option.or_assoc]
    cases best <;> simp [Straight.firstMatch]
  | cons c s ih =>
    have hlook : Followed straight position (c :: s) (pendingAt position ways best) seen _ :=
      lookAt_followed straight hways hsize hseen
    rw [run_cons, ← found_cons hlook]
    generalize machine.lookAt position ways best seen (c :: s) = result at hlook
    obtain ⟨halted, looked⟩ := result
    dsimp only
    split_ifs with hdone
    -- No way is left and none begins, so what is found already is the first of all.
    · rw [Bool.and_eq_true, List.isEmpty_iff] at hdone
      obtain ⟨found, hsome⟩ := Option.isSome_iff_exists.1 hdone.2
      rw [hdone.1, hsome]
      rfl
    · refine ih (fun way hway => ?_) hlook.size fun q stamp hq => ?_
      · obtain ⟨earlier, -, htaken⟩ := List.mem_filterMap.1 hway
        exact step_le_of_taken? straight htaken
      · rcases hlook.stamps q stamp hq with rfl | hq
        · exact Nat.le_refl _
        · exact Nat.le_succ_of_le (hseen q stamp hq)

/-- **A search finds what a reader finds** who goes one way at a time, the preferred one first, and
begins at one place after the other. -/
theorem find?_eq_firstMatch (straight : Straight machine) (s : List Char) :
    machine.find? s =
      (straight.firstMatch 0 s).map fun (first, last) => (s.take last).drop first := by
  have hrun : machine.run 0 [] none (Array.replicate (machine.size + 1) 0) s =
      straight.firstMatch 0 s := by
    have hseen : ∀ q stamp : Nat, (Array.replicate (machine.size + 1) 0)[q]? = some stamp →
        stamp ≤ 0 := by
      intro q stamp hq
      rw [Array.getElem?_replicate] at hq
      split_ifs at hq
      cases hq
      exact Nat.le_refl _
    exact run_eq straight (List.forall_mem_nil _) Array.size_replicate hseen
  rw [find?, hrun]

/-! ## Where a match begins -/

/-- How long the match is that begins between two parts of a text, if one does. -/
def Straight.matchBetween (straight : Straight machine) (before rest : List Char) : Option Nat :=
  straight.backtrack before.isEmpty 0 rest

/-- A search begins at each place of what comes behind `front`. -/
theorem Straight.matchOf_begin (straight : Straight machine) (front s : List Char) :
    straight.matchOf front.length s ⟨0, front.length⟩ =
      (straight.matchBetween front s).map fun n => (front.length, front.length + n) := by
  cases front <;> rfl

theorem Straight.firstMatch_eq_none_iff (front : List Char) :
    straight.firstMatch front.length s = none ↔
      ∀ earlier more, s = earlier ++ more →
        straight.matchBetween (front ++ earlier) more = none := by
  induction s generalizing front with
  | nil =>
    rw [firstMatch, matchOf_begin, Option.map_eq_none_iff]
    constructor
    · intro h earlier more hsplit
      obtain ⟨rfl, rfl⟩ := List.append_eq_nil_iff.1 hsplit.symm
      rwa [List.append_nil]
    · intro h
      simpa using h [] [] rfl
  | cons c s ih =>
    have hbehind : front.length + 1 = (front ++ [c]).length := by simp
    rw [firstMatch, Option.or_eq_none_iff, matchOf_begin, Option.map_eq_none_iff, hbehind, ih]
    constructor
    · rintro ⟨hhere, hlater⟩ earlier more hsplit
      cases earlier with
      | nil =>
        obtain rfl : c :: s = more := hsplit
        rwa [List.append_nil]
      | cons d earlier =>
        obtain ⟨rfl, rfl⟩ := List.cons.inj hsplit
        simpa using hlater earlier more rfl
    · refine fun h => ⟨by simpa using h [] (c :: s) rfl, fun earlier more hsplit => ?_⟩
      simpa using h (c :: earlier) more (by rw [hsplit]; rfl)

theorem Straight.firstMatch_eq_some_iff (front : List Char) {first last : Nat} :
    straight.firstMatch front.length s = some (first, last) ↔
      ∃ before rest n, s = before ++ rest ∧
        straight.matchBetween (front ++ before) rest = some n ∧
        (front ++ before).length = first ∧ first + n = last ∧
        ∀ earlier more, s = earlier ++ more → earlier.length < before.length →
          straight.matchBetween (front ++ earlier) more = none := by
  induction s generalizing front with
  | nil =>
    rw [firstMatch, matchOf_begin, Option.map_eq_some_iff]
    constructor
    · rintro ⟨n, hn, hends⟩
      obtain ⟨rfl, rfl⟩ := Prod.mk.inj hends
      exact ⟨[], [], n, rfl, by simpa using hn, by simp, rfl,
        fun _ _ _ hlt => absurd hlt (Nat.not_lt_zero _)⟩
    · rintro ⟨before, rest, n, hsplit, hn, rfl, rfl, -⟩
      obtain ⟨rfl, rfl⟩ := List.append_eq_nil_iff.1 hsplit.symm
      rw [List.append_nil] at hn ⊢
      exact ⟨n, hn, rfl⟩
  | cons c s ih =>
    have hbehind : front.length + 1 = (front ++ [c]).length := by simp
    rw [firstMatch, Option.or_eq_some_iff, matchOf_begin, Option.map_eq_none_iff,
      Option.map_eq_some_iff, hbehind, ih]
    constructor
    · rintro (⟨n, hn, hends⟩ | ⟨hnone, before, rest, n, rfl, hn, rfl, rfl, hfirst⟩)
      · obtain ⟨rfl, rfl⟩ := Prod.mk.inj hends
        exact ⟨[], c :: s, n, rfl, by simpa using hn, by simp, rfl,
          fun _ _ _ hlt => absurd hlt (Nat.not_lt_zero _)⟩
      · refine ⟨c :: before, rest, n, rfl, by simpa using hn, by simp, by simp, ?_⟩
        intro earlier more hsplit hlt
        cases earlier with
        | nil =>
          obtain rfl : c :: (before ++ rest) = more := hsplit
          rwa [List.append_nil]
        | cons d earlier =>
          obtain ⟨rfl, hbehind⟩ := List.cons.inj hsplit
          simpa using hfirst earlier more hbehind (Nat.lt_of_succ_lt_succ hlt)
    · rintro ⟨before, rest, n, hsplit, hn, rfl, rfl, hfirst⟩
      cases before with
      | nil =>
        obtain rfl : c :: s = rest := hsplit
        rw [List.append_nil] at hn ⊢
        exact .inl ⟨n, hn, rfl⟩
      | cons d before =>
        obtain ⟨rfl, rfl⟩ := List.cons.inj hsplit
        refine .inr ⟨by simpa using hfirst [] _ rfl (Nat.zero_lt_succ _), before, rest, n, rfl,
          by simpa using hn, by simp, by simp, fun earlier more hsplit hlt => ?_⟩
        simpa using hfirst (c :: earlier) more (by rw [hsplit]; rfl) (Nat.succ_lt_succ hlt)

/-- **A search finds nothing** where no match begins anywhere. -/
theorem find?_eq_none_iff (straight : Straight machine) {s : List Char} :
    machine.find? s = none ↔
      ∀ before rest, s = before ++ rest → straight.matchBetween before rest = none := by
  rw [find?_eq_firstMatch straight, Option.map_eq_none_iff]
  exact Straight.firstMatch_eq_none_iff []

/-- The stretch of a text between two places. -/
theorem drop_take_append (before rest : List Char) (n : Nat) :
    ((before ++ rest).take (before.length + n)).drop before.length = rest.take n := by
  rw [List.drop_take, List.drop_left, Nat.add_sub_cancel_left]

/-- **A search finds** the match that begins first. -/
theorem find?_eq_some_iff (straight : Straight machine) {s t : List Char} :
    machine.find? s = some t ↔
      ∃ before rest n, s = before ++ rest ∧ straight.matchBetween before rest = some n ∧
        t = rest.take n ∧ ∀ earlier more, s = earlier ++ more →
          earlier.length < before.length → straight.matchBetween earlier more = none := by
  rw [find?_eq_firstMatch straight, Option.map_eq_some_iff]
  constructor
  · rintro ⟨⟨first, last⟩, hmatch, rfl⟩
    obtain ⟨before, rest, n, rfl, hn, rfl, rfl, hfirst⟩ :=
      (Straight.firstMatch_eq_some_iff []).1 hmatch
    exact ⟨before, rest, n, rfl, hn, drop_take_append before rest n, hfirst⟩
  · rintro ⟨before, rest, n, rfl, hn, rfl, hfirst⟩
    exact ⟨(before.length, before.length + n), (Straight.firstMatch_eq_some_iff []).2
      ⟨before, rest, n, rfl, hn, rfl, rfl, hfirst⟩, drop_take_append before rest n⟩

end Run

end Machine

end SecurityKey.Pattern
