import Mathlib.Data.List.TakeWhile
import Mathlib.Tactic.Common
import SecurityKey.Pattern.Search
import SecurityKey.Proofs.Text.Blank
/-!
# Going back

A reader who follows a machine one way at a time goes the preferred way first, and where that fails
goes back to the last fork (`backtrack`). It comes to an end on a machine that is `Straight`: no
step leads back to itself without taking a character.

A reader needs to look neither at the steps of a word nor at the rounds of a repetition one by one:
`backtrack_word` reads a word at once, and `backtrack_run` all characters that a set has.
-/

namespace SecurityKey.Pattern

/-- The steps that a step leads to without taking a character, the preferred one first. -/
def Step.onward (place : Place) : Step → List Nat
  | .take .. => []
  | .atStart next => if place.isStart then [next] else []
  | .atFinish next => if place.isFinish then [next] else []
  | .goTo next => [next]
  | .fork preferred other => [preferred, other]

/-- The steps that a step leads to, at one place or another. -/
def Step.targets : Step → List Nat
  | .take _ next | .atStart next | .atFinish next | .goTo next => [next]
  | .fork preferred other => [preferred, other]

theorem Step.mem_targets {step : Step} {place : Place} {next : Nat} (h : next ∈ step.onward place) :
    next ∈ step.targets := by
  cases step with
  | take set other => cases h
  | goTo other | fork preferred other => exact h
  | atStart other | atFinish other =>
    rw [onward] at h
    split_ifs at h
    · exact h
    · cases h

/-- Whether a step takes a character. -/
def Step.takes : Step → Bool
  | .take .. => true
  | _ => false

/-- A way as it goes on at another step. -/
def Way.onTo (way : Way) (next : Nat) : Way :=
  { way with step := next }

namespace Machine

/-- Without taking a character no step leads back to itself, as each leads to one of lower rank. All
steps lead to steps of the machine or to the goal. -/
structure Straight (machine : Machine) where
  rank : Nat → Nat
  rank_lt : ∀ (q : Nat) (step : Step) (place : Place) (next : Nat),
    machine[q]? = some step → next ∈ step.onward place → rank next < rank q
  onward_le : ∀ (q : Nat) (step : Step) (place : Place) (next : Nat),
    machine[q]? = some step → next ∈ step.onward place → next ≤ machine.size
  take_le : ∀ (q : Nat) (set : CharSet) (next : Nat),
    machine[q]? = some (.take set next) → next ≤ machine.size

variable {machine : Machine}

/-- A step that takes no character leads to one that does, or to the goal. -/
def Flat (machine : Machine) : Prop :=
  ∀ step ∈ machine.toList, ∀ next ∈ step.targets,
    next ≤ machine.size ∧ (step.takes ∨ ∀ step ∈ machine[next]?, step.takes)

instance (machine : Machine) : Decidable machine.Flat :=
  inferInstanceAs (Decidable (∀ step ∈ machine.toList, _))

/-- A flat machine is straight, as no two steps follow each other without taking a character. -/
def Flat.straight (h : machine.Flat) : Straight machine where
  rank q := if ∀ step ∈ machine[q]?, step.takes then 0 else 1
  rank_lt q step place next hstep hnext := by
    have htakes : step.takes = false := by
      cases step with
      | take set other => cases hnext
      | _ => rfl
    have hmem : step ∈ machine.toList := Array.mem_toList_iff.2 (Array.mem_of_getElem? hstep)
    obtain ⟨-, htaken | hbehind⟩ := h step hmem next (Step.mem_targets hnext)
    · exact absurd htaken (by simp [htakes])
    · rw [if_pos hbehind, if_neg fun hall => by simpa [htakes] using hall step hstep]
      exact Nat.one_pos
  onward_le q step place next hstep hnext :=
    (h step (Array.mem_toList_iff.2 (Array.mem_of_getElem? hstep)) next
      (Step.mem_targets hnext)).1
  take_le q set next hstep :=
    (h _ (Array.mem_toList_iff.2 (Array.mem_of_getElem? hstep)) next
      (List.mem_singleton_self next)).1

/-! ## Going back -/

namespace Straight

/-- How much a reader takes of a text from a step to the goal. It goes the preferred way first, and
goes back where a way fails; `start` says whether it stands at the beginning of the whole text. -/
def backtrack (straight : Straight machine) (start : Bool) (q : Nat) (s : List Char) :
    Option Nat :=
  match hstep : machine[q]? with
  | none => some 0
  | some (.take set next) =>
    match s with
    | [] => none
    | c :: s => if set.has c then (backtrack straight false next s).map (· + 1) else none
  | some step =>
    (step.onward ⟨start, s.isEmpty⟩).attach.findSome? fun ⟨next, hnext⟩ =>
      have := straight.rank_lt q step _ next hstep hnext
      backtrack straight start next s
termination_by (s.length, straight.rank q)
decreasing_by
  · exact Prod.Lex.left _ _ (Nat.lt_succ_self _)
  · exact Prod.Lex.right _ this

variable (straight : Straight machine) {start : Bool} {q next : Nat} {set : CharSet} {c : Char}
  {s : List Char} {step : Step}

theorem backtrack_goal (h : machine[q]? = none) : straight.backtrack start q s = some 0 := by
  rw [backtrack]
  split
  · rfl
  · next heq => cases h.symm.trans heq
  · next heq => cases h.symm.trans heq

theorem backtrack_take_nil (h : machine[q]? = some (.take set next)) :
    straight.backtrack start q [] = none := by
  rw [backtrack]
  split
  · next heq => cases h.symm.trans heq
  · rfl
  · next hother heq => exact absurd (Option.some.inj (heq.symm.trans h)) (hother set next)

theorem backtrack_take_cons (h : machine[q]? = some (.take set next)) :
    straight.backtrack start q (c :: s) =
      if set.has c then (straight.backtrack false next s).map (· + 1) else none := by
  rw [backtrack]
  split
  · next heq => cases h.symm.trans heq
  · next heq =>
    cases h.symm.trans heq
    rfl
  · next hother heq => exact absurd (Option.some.inj (heq.symm.trans h)) (hother set next)

theorem backtrack_onward (h : machine[q]? = some step) (hstep : step.takes = false) :
    straight.backtrack start q s =
      (step.onward ⟨start, s.isEmpty⟩).findSome? fun next => straight.backtrack start next s := by
  rw [backtrack]
  split
  · next heq => cases h.symm.trans heq
  · next heq =>
    cases h.symm.trans heq
    cases hstep
  · next _ heq =>
    cases h.symm.trans heq
    conv_rhs => rw [← List.attach_map_subtype_val (step.onward _), List.findSome?_map]
    rfl

theorem backtrack_fork {other : Nat} (h : machine[q]? = some (.fork next other)) :
    straight.backtrack start q s =
      (straight.backtrack start next s).or (straight.backtrack start other s) := by
  rw [straight.backtrack_onward h rfl, Step.onward, List.findSome?_cons, List.findSome?_singleton]
  cases straight.backtrack start next s <;> rfl

end Straight

/-! ## Words and runs -/

section Words

variable (straight : Straight machine) {start : Bool} {q : Nat} {set : CharSet}
  {word s : List Char} {n : Nat}

/-- The steps from `q` on take the characters of a word, one after the other. -/
def TakesWord (machine : Machine) : Nat → List Char → Prop
  | _, [] => True
  | q, c :: word => machine[q]? = some (.take (.single c) (q + 1)) ∧ TakesWord machine (q + 1) word

instance TakesWord.decidable (machine : Machine) :
    (q : Nat) → (word : List Char) → Decidable (machine.TakesWord q word)
  | _, [] => .isTrue trivial
  | q, _ :: word =>
    have := TakesWord.decidable machine (q + 1) word
    inferInstanceAs (Decidable (_ ∧ _))

theorem Straight.backtrack_word (h : machine.TakesWord q word) :
    straight.backtrack start q s = some n ↔ ∃ rest m, s = word ++ rest ∧
      straight.backtrack (start && word.isEmpty) (q + word.length) rest = some m ∧
      n = word.length + m := by
  induction word generalizing start q s n with
  | nil => simp
  | cons c word ih =>
    obtain ⟨hstep, hword⟩ := h
    cases s with
    | nil => simp [straight.backtrack_take_nil hstep]
    | cons d s =>
      rw [straight.backtrack_take_cons hstep, CharSet.has_single]
      by_cases hd : d = c
      · subst hd
        rw [decide_eq_true rfl, if_pos rfl, Option.map_eq_some_iff]
        simp only [ih hword, Bool.false_and, List.isEmpty_cons, Bool.and_false, List.length_cons]
        constructor
        · rintro ⟨_, ⟨rest, m, rfl, hm, rfl⟩, rfl⟩
          exact ⟨rest, m, rfl, by rwa [Nat.add_comm word.length, ← Nat.add_assoc], by omega⟩
        · rintro ⟨rest, m, hsplit, hm, rfl⟩
          obtain ⟨-, rfl⟩ := List.cons.inj hsplit
          rw [Nat.add_comm word.length, ← Nat.add_assoc] at hm
          exact ⟨word.length + m, ⟨rest, m, rfl, hm, rfl⟩, by omega⟩
      · rw [decide_eq_false hd, if_neg Bool.false_ne_true]
        constructor
        · intro hnone
          cases hnone
        · rintro ⟨rest, m, hsplit, -⟩
          exact absurd (List.cons.inj hsplit).1 hd

/-- The steps `q` and behind it take one character of a set after the other, as many as there are,
and come to the goal. -/
def TakesRun (machine : Machine) (q : Nat) (set : CharSet) : Prop :=
  machine[q]? = some (.take set (q + 1)) ∧ machine[q + 1]? = some (.fork q machine.size)

instance (machine : Machine) (q : Nat) (set : CharSet) : Decidable (machine.TakesRun q set) :=
  inferInstanceAs (Decidable (_ ∧ _))

theorem Straight.backtrack_run (h : machine.TakesRun q set) :
    straight.backtrack start q s =
      if s.takeWhile set.has = [] then none else some (s.takeWhile set.has).length := by
  obtain ⟨hstep, hfork⟩ := h
  have hgoal : machine[machine.size]? = none := by simp
  induction s generalizing start with
  | nil => exact straight.backtrack_take_nil hstep
  | cons c s ih =>
    rw [straight.backtrack_take_cons hstep, straight.backtrack_fork hfork, ih,
      straight.backtrack_goal hgoal]
    cases hc : set.has c
    · simp [hc]
    · by_cases hs : s.takeWhile set.has = [] <;> simp [hc, hs]

theorem Straight.backtrack_run_eq_some_iff (h : machine.TakesRun q set) :
    straight.backtrack start q s = some n ↔ ∃ run rest, s = run ++ rest ∧ run ≠ [] ∧
      (∀ c ∈ run, set.has c) ∧ (∀ c ∈ rest.head?, set.has c = false) ∧ n = run.length := by
  rw [straight.backtrack_run h]
  constructor
  · intro hn
    split_ifs at hn with hnil
    obtain rfl := Option.some.inj hn
    refine ⟨_, s.dropWhile set.has, List.takeWhile_append_dropWhile.symm, hnil,
      fun c => List.mem_takeWhile_imp, fun c hc => ?_, rfl⟩
    have hstop := List.head?_dropWhile_not set.has s
    rwa [hc] at hstop
  · rintro ⟨run, rest, rfl, hnil, hrun, hrest, rfl⟩
    rw [Text.takeWhile_run hrun hrest, if_neg hnil]

end Words

end Machine

end SecurityKey.Pattern
