import Mathlib.Tactic.Common
import SecurityKey.Proofs.Dialog.Clock
import SecurityKey.Proofs.Dialog.Discipline
/-!
# What a dialog answers the prompts with

The log of a conversation is only ever added to, so what stands in it after one step of a dialog
stands at the same place when the dialog has ended (`Trail.step_log_grows`). A step that finds a
prompt for the new PIN hands that PIN over, and nothing else happens in between but the notice of a
touch that is due (`log_step_of_found`).

Main statement: `enters_run`.
-/

namespace SecurityKey.Dialog

open Log

variable {dialog : Dialog} {talk after : Conversation} {stage : Stage}
  {trail : List (Stage × Conversation)} {ending : Except Failure PinOutcome × Conversation}

/-! ## Logs grow -/

theorem kept_growing (dialog : Dialog) (log : List Event) :
    Kept dialog fun talk => log <+: talk.log where
  expect talk marks within _ h := by
    obtain ⟨more, hw⟩ := talk.expect_listened marks within
    rw [hw.log]
    exact h.trans (List.prefix_append _ _)
  send talk line h := by
    rcases talk.send_cases line with ⟨_, hlog⟩ | ⟨_, hlog⟩
    · rw [hlog, List.append_assoc]
      exact h.trans (List.prefix_append _ _)
    · rw [hlog, List.append_assoc]
      exact h.trans (List.prefix_append _ _)
  notify _ h := h

theorem log_grows_step (dialog : Dialog) (stage : Stage) (talk : Conversation) :
    talk.log <+: (dialog.step stage talk).2.log :=
  (kept_growing dialog talk.log).step stage (List.prefix_refl _)

theorem log_grows_close (talk : Conversation) : talk.log <+: talk.close.log := by
  rw [Conversation.log_close, List.append_assoc]
  exact List.prefix_append _ _

theorem Trail.log_grows (h : Trail dialog stage talk trail ending) :
    talk.log <+: ending.2.log := by
  induction h with
  | finished outcome talk => exact log_grows_close talk
  | @failed stage talk after failure _ hstep =>
    have hgrown := log_grows_step dialog stage talk
    rw [hstep] at hgrown
    exact hgrown.trans (log_grows_close after)
  | @onward stage next talk after trail ending _ hstep _ ih =>
    have hgrown := log_grows_step dialog stage talk
    rw [hstep] at hgrown
    exact hgrown.trans ih

/-- What a step adds to the log stays at its place. -/
theorem Trail.step_log_grows (h : Trail dialog stage talk trail ending) {visited : Stage}
    {there : Conversation} (hmem : (visited, there) ∈ trail) :
    (dialog.step visited there).2.log <+: ending.2.log := by
  induction h with
  | finished outcome talk => cases hmem
  | @failed stage talk after failure _ hstep =>
    obtain ⟨rfl, rfl⟩ := Prod.mk.inj (List.mem_singleton.1 hmem)
    rw [hstep]
    exact log_grows_close after
  | onward _ hstep hrest ih =>
    rcases List.mem_cons.1 hmem with heq | hmem
    · obtain ⟨rfl, rfl⟩ := Prod.mk.inj heq
      rw [hstep]
      exact hrest.log_grows
    · exact ih hmem

/-! ## Prompts for the new PIN -/

/-- The prompts for the new PIN. -/
def newPinPrompts : List String := [newPinPrompt, confirmPrompt]

variable {prompt : String} {within index : Nat} {before : String}

/-- A step that finds a prompt for the new PIN sends that PIN. -/
theorem step_of_found (hprompt : prompt ∈ newPinPrompts)
    (hawaits : dialog.awaits? stage = some ([prompt], within))
    (hfound : talk.expect [prompt] within = (.ok (.matched index before), after)) :
    ∃ next, dialog.step stage talk = sendThen after dialog.newPin.pin.text next := by
  cases stage with
  | newPin =>
    cases hawaits
    exact ⟨.confirm, by rw [step, answer, hfound]⟩
  | confirm =>
    cases hawaits
    exact ⟨.completion, by rw [step, answer, hfound]⟩
  | touched =>
    cases hawaits
    exact absurd hprompt (by decide)
  | opening => cases hawaits
  | start => cases hawaits
  | completion => cases hawaits
  | finished outcome => cases hawaits

theorem log_sendThen (talk : Conversation) (line : String) (next : Stage) :
    (sendThen talk line next).2.log = (talk.send line).2.log := by
  rw [sendThen]
  split <;> next heq => rw [heq]

theorem log_step_of_found (hprompt : prompt ∈ newPinPrompts)
    (hawaits : dialog.awaits? stage = some ([prompt], within))
    (hfound : talk.expect [prompt] within = (.ok (.matched index before), after)) :
    ∃ event, event.line? = some dialog.newPin.pin.text ∧
      (dialog.step stage talk).2.log =
        after.log ++ List.replicate after.notices .touchRequired ++ [event] := by
  obtain ⟨next, hstep⟩ := step_of_found hprompt hawaits hfound
  rw [hstep, log_sendThen]
  rcases after.send_cases dialog.newPin.pin.text with ⟨_, hlog⟩ | ⟨_, hlog⟩
  · exact ⟨_, rfl, hlog⟩
  · exact ⟨_, rfl, hlog⟩

/-! ## Whole dialogs -/

/-- How a dialog enters a new PIN, by the stages that it goes through and its log. -/
structure Enters (dialog : Dialog) (newPin : String) (trail : List (Stage × Conversation))
    (log : List Event) : Prop where
  /-- After the current PIN, if there is one, nothing is handed over but the new one, and that not
  more than twice. -/
  lines : handed log <+: dialog.current.toList.map Pin.text ++ [newPin, newPin]
  /-- Each line is handed over after its own prompt and all prompts before it. -/
  prompted : ∀ earlier event later line, log = earlier ++ event :: later →
    event.line? = some line → dialog.Prompted ((handed earlier).length + 1) (output earlier)
  /-- Wherever a prompt for the new PIN is found, the new PIN is handed over next. -/
  answered : ∀ stage talk prompt within index before after, (stage, talk) ∈ trail →
    prompt ∈ newPinPrompts → dialog.awaits? stage = some ([prompt], within) →
      talk.expect [prompt] within = (.ok (.matched index before), after) →
        ∃ event, event.line? = some newPin ∧
          after.log ++ List.replicate after.notices .touchRequired ++ [event] <+: log

/-- **A dialog enters its new PIN** at each of the two prompts for it that it comes to, and nowhere
else, whatever the tool does. -/
theorem enters_run (dialog : Dialog) (script : Script) :
    ∃ trail, Trail dialog .start (.begin script) trail (dialog.run script) ∧
      Enters dialog dialog.newPin.pin.text trail (dialog.run script).2.log := by
  obtain ⟨trail, htrail, -⟩ := dialog.run_trail script
  have hrun := dialog.disciplined_run script
  refine ⟨trail, htrail, hrun.lines, hrun.prompted, ?_⟩
  intro stage talk prompt within index before after hmem hprompt hawaits hfound
  obtain ⟨event, hevent, hlog⟩ := log_step_of_found hprompt hawaits hfound
  exact ⟨event, hevent, hlog ▸ htrail.step_log_grows hmem⟩

end SecurityKey.Dialog
