import Mathlib.Tactic.Common
import SecurityKey.Dialog
/-!
# The steps of a PIN dialog

A dialog is run by taking one step after the other, at most `maxSteps` of them. The bound is never
felt: every step leads nearer to the end (`rank_step`), so a dialog that may take more steps does
the same (`run_eq_advance`).

**What a dialog keeps.** A dialog waits, sends lines and notices a touch, and does nothing else
until it closes the conversation. What these three keep, every dialog keeps (`Kept.advance`).
-/

namespace SecurityKey.Dialog

variable {dialog : Dialog} {talk after : Conversation} {stage next : Stage}

/-- A dialog takes a step and goes on from where it led, or is closed where it failed. -/
theorem advance_succ (dialog : Dialog) (fuel : Nat) (stage : Stage) (talk : Conversation) :
    dialog.advance (fuel + 1) stage talk =
      match dialog.step stage talk with
      | (.ok next, talk) => dialog.advance fuel next talk
      | (.error failure, talk) => (.error failure, talk.close) := by
  cases stage with
  | finished outcome => cases fuel <;> rfl
  | _ => rfl

/-- The most steps that a stage is away from the end. -/
def Stage.rank : Stage → Nat
  | .start => 6
  | .opening => 5
  | .touched => 4
  | .newPin => 3
  | .confirm => 2
  | .completion => 1
  | .finished _ => 0

theorem rank_cutShort (wait : Wait) : (cutShort wait).rank = 0 := by
  cases wait <;> rfl

theorem next_of_sendThen {line : String} (h : sendThen talk line stage = (.ok next, after)) :
    next = stage := by
  rw [sendThen] at h
  split at h
  · exact (Except.ok.inj (Prod.mk.inj h).1).symm
  · cases h

theorem next_of_sendCurrentPin (h : dialog.sendCurrentPin talk = (.ok next, after)) :
    next = .newPin := by
  rw [sendCurrentPin] at h
  split at h
  · exact next_of_sendThen h
  · exact (Except.ok.inj (Prod.mk.inj h).1).symm

/-- A wait for a prompt leads to where its answer leads, or to the end. -/
theorem of_answer {P : Stage → Prop} {prompt : String} {within : Nat}
    {reply : Conversation → Except Failure Stage × Conversation}
    (hreply : ∀ {talk next after}, reply talk = (.ok next, after) → P next)
    (hcut : ∀ wait, P (cutShort wait)) (h : answer talk prompt within reply = (.ok next, after)) :
    P next := by
  rw [answer] at h
  split at h
  · exact hreply h
  · cases h
    exact hcut _
  · cases h

theorem rank_answer {prompt : String} {within : Nat} {bound : Nat}
    {reply : Conversation → Except Failure Stage × Conversation}
    (hreply : ∀ {talk next after}, reply talk = (.ok next, after) → next.rank < bound)
    (hbound : 0 < bound) (h : answer talk prompt within reply = (.ok next, after)) :
    next.rank < bound := by
  refine of_answer hreply (fun wait => ?_) h
  rwa [rank_cutShort]

/-- **Every step leads nearer to the end.** -/
theorem rank_step (hrank : 0 < stage.rank) (h : dialog.step stage talk = (.ok next, after)) :
    next.rank < stage.rank := by
  cases stage with
  | start =>
    cases h
    split_ifs <;> decide
  | opening =>
    rw [step] at h
    split at h
    · split_ifs at h
      · cases h
        decide
      · cases h
        decide
      · rw [next_of_sendCurrentPin h]
        decide
    · cases h
      rwa [rank_cutShort]
    · cases h
  | touched =>
    refine rank_answer (fun h => ?_) hrank h
    rw [next_of_sendCurrentPin h]
    decide
  | newPin =>
    refine rank_answer (fun h => ?_) hrank h
    rw [next_of_sendThen h]
    decide
  | confirm =>
    refine rank_answer (fun h => ?_) hrank h
    rw [next_of_sendThen h]
    decide
  | completion =>
    rw [step] at h
    split at h
    · cases h
      exact hrank
    · cases h
  | finished outcome => cases hrank

/-- More steps than the stage is away from the end are not taken. -/
theorem advance_eq_of_rank_le {fuel more : Nat} (hfuel : stage.rank ≤ fuel)
    (hmore : stage.rank ≤ more) :
    dialog.advance fuel stage talk = dialog.advance more stage talk := by
  induction fuel generalizing more stage talk with
  | zero =>
    cases stage with
    | finished outcome => cases more <;> rfl
    | _ => cases hfuel
  | succ fuel ih =>
    by_cases hrank : 0 < stage.rank
    · obtain ⟨more, rfl⟩ := Nat.exists_eq_add_one_of_ne_zero (by omega : more ≠ 0)
      rw [advance_succ, advance_succ]
      rcases hstep : dialog.step stage talk with ⟨result, after⟩
      cases result with
      | error failure => rfl
      | ok next =>
        have := rank_step hrank hstep
        exact ih (by omega) (by omega)
    · cases stage with
      | finished outcome => cases more <;> rfl
      | _ => exact absurd (by decide) hrank

/-- The bound on the steps of a dialog is never felt. -/
theorem run_eq_advance (dialog : Dialog) (script : Script) {fuel : Nat} (h : maxSteps ≤ fuel) :
    dialog.run script = dialog.advance fuel .start (.begin script) :=
  advance_eq_of_rank_le (Nat.le_refl _) h

/-- The waits of the last stage: for the mark of a refusal, and then for the end of the output,
unless it came first. -/
theorem snd_complete (dialog : Dialog) (talk : Conversation) :
    (dialog.complete talk).2 =
      match talk.expect [DeviceError.policyMark] dialog.timeouts.policyProbe with
      | (.ok (.matched ..), probed) => (probed.expectEnd dialog.timeouts.policyProbe).2
      | (.ok (.timedOut _), probed) => (probed.expectEnd dialog.timeouts.prompt).2
      | (_, probed) => probed := by
  rw [complete]
  rcases talk.expect [DeviceError.policyMark] dialog.timeouts.policyProbe with ⟨result, probed⟩
  cases result with
  | error failure => rfl
  | ok wait =>
    cases wait with
    | ended before => rfl
    | matched index before =>
      dsimp only
      split <;> (next heq => rw [heq])
    | timedOut before =>
      dsimp only
      split <;> (next heq => rw [heq])

/-- The last stage waits for the mark of a refusal, and then at most once more, for the end of the
output. -/
theorem after_complete (dialog : Dialog) (talk : Conversation) :
    let probed := (talk.expect [DeviceError.policyMark] dialog.timeouts.policyProbe).2
    (dialog.complete talk).2 = probed ∨
      ∃ within ∈ [dialog.timeouts.policyProbe, dialog.timeouts.prompt],
        (dialog.complete talk).2 = (probed.expectEnd within).2 := by
  rw [snd_complete]
  split
  · next heq => exact .inr ⟨dialog.timeouts.policyProbe, by simp, by rw [heq]⟩
  · next heq => exact .inr ⟨dialog.timeouts.prompt, by simp, by rw [heq]⟩
  · next heq => exact .inl (by rw [heq])

/-! ## What a dialog keeps -/

/-- How long a dialog may wait. -/
def waits (dialog : Dialog) : List Nat :=
  [dialog.timeouts.prompt, dialog.timeouts.touch, dialog.timeouts.policyProbe]

/-- Waiting, sending and noticing a touch keep a property of the conversation. -/
structure Kept (dialog : Dialog) (P : Conversation → Prop) : Prop where
  expect : ∀ talk marks, ∀ within ∈ dialog.waits, P talk → P (talk.expect marks within).2
  send : ∀ talk line, P talk → P (talk.send line).2
  notify : ∀ talk, P talk → P talk.notify

namespace Kept

variable {P : Conversation → Prop}

theorem after_expect (h : Kept dialog P) {marks : List String} {within : Nat}
    {result : Except Failure Wait} (hp : P talk) (hwithin : within ∈ dialog.waits)
    (heq : talk.expect marks within = (result, after)) : P after := by
  have := h.expect talk marks within hwithin hp
  rwa [heq] at this

theorem sendThen (h : Kept dialog P) {line : String} (hp : P talk) :
    P (sendThen talk line next).2 := by
  have hsend := h.send talk line hp
  rw [Dialog.sendThen]
  split
  · next heq => rwa [heq] at hsend
  · next heq => rwa [heq] at hsend

theorem sendCurrentPin (h : Kept dialog P) (hp : P talk) : P (dialog.sendCurrentPin talk).2 := by
  rw [Dialog.sendCurrentPin]
  split
  · exact h.sendThen hp
  · exact hp

theorem answer (h : Kept dialog P) {prompt : String} {within : Nat}
    {reply : Conversation → Except Failure Stage × Conversation}
    (hp : P talk) (hwithin : within ∈ dialog.waits)
    (hreply : ∀ talk, P talk → P (reply talk).2) : P (answer talk prompt within reply).2 := by
  rw [Dialog.answer]
  split
  · next heq => exact hreply _ (h.after_expect hp hwithin heq)
  · next heq => exact h.after_expect hp hwithin heq
  · next heq => exact h.after_expect hp hwithin heq

theorem complete (h : Kept dialog P) (hp : P talk) : P (dialog.complete talk).2 := by
  have hprobed := h.expect talk [DeviceError.policyMark] dialog.timeouts.policyProbe
    (by simp [waits]) hp
  rcases dialog.after_complete talk with heq | ⟨within, hwithin, heq⟩
  · rw [heq]
    exact hprobed
  · have hmem : within ∈ dialog.waits := by
      simp only [waits, List.mem_cons, List.not_mem_nil, or_false] at hwithin ⊢
      tauto
    rw [heq]
    exact h.expect _ [] within hmem hprobed

theorem step (h : Kept dialog P) (stage : Stage) (hp : P talk) :
    P (dialog.step stage talk).2 := by
  have hprompt : dialog.timeouts.prompt ∈ dialog.waits := by simp [waits]
  have htouch : dialog.timeouts.touch ∈ dialog.waits := by simp [waits]
  cases stage with
  | start => exact hp
  | opening =>
    rw [Dialog.step]
    split
    · next heq =>
      have hp := h.after_expect hp hprompt heq
      split_ifs
      · exact h.notify _ hp
      · exact hp
      · exact h.sendCurrentPin hp
    · next heq => exact h.after_expect hp hprompt heq
    · next heq => exact h.after_expect hp hprompt heq
  | touched => exact h.answer hp htouch fun _ hp => h.sendCurrentPin hp
  | newPin => exact h.answer hp hprompt fun _ hp => h.sendThen hp
  | confirm => exact h.answer hp hprompt fun _ hp => h.sendThen hp
  | completion =>
    have hcomplete := h.complete hp
    rw [Dialog.step]
    split
    · next heq => rwa [heq] at hcomplete
    · next heq => rwa [heq] at hcomplete
  | finished outcome => exact hp

/-- **A whole dialog keeps what its parts keep**, and then it closes the conversation. -/
theorem advance (h : Kept dialog P) (fuel : Nat) (stage : Stage) (hp : P talk) :
    ∃ last, (dialog.advance fuel stage talk).2 = last.close ∧ P last := by
  induction fuel generalizing stage talk with
  | zero => cases stage <;> exact ⟨talk, rfl, hp⟩
  | succ fuel ih =>
    have hstep := h.step stage hp
    rw [advance_succ]
    split
    · next heq =>
      rw [heq] at hstep
      exact ih _ hstep
    · next heq =>
      rw [heq] at hstep
      exact ⟨_, rfl, hstep⟩

end Kept

end SecurityKey.Dialog
