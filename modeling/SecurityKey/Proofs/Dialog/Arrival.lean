import Mathlib.Tactic.Common
import Mathlib.Tactic.MkIffOfInductiveProp
import SecurityKey.Dialog
import SecurityKey.Proofs.Conversation.Arrival
import SecurityKey.Proofs.Dialog.Reading
import SecurityKey.Proofs.Dialog.Steps
/-!
# PIN dialogs whose output arrives in time

Which wait of a dialog is running when the tool has emitted so much text is a matter of this text
(`awaited`). So a script says how long the tool pauses while each wait is running, and whether all
of the output and its end arrive before the deadline of whichever wait that is (`InTime`). Then the
dialog sees the end of the output, and its outcome is the reading of the text.

**Stages.** `Ahead` says that what is left of a script at a stage is in time for the wait that is
running there and for those behind it. A wait that finds its prompt leaves this to the next stage
(`Ready.expect`), so one step keeps whether it holds (`step_goes`).

Main statements: `ended_run_iff`, in time is exactly what lets a dialog see the end of the output,
and `run_eq_reading`.
-/

namespace SecurityKey.Dialog

open Text Log Conversation

/-! ## The wait that is running -/

/-- What a dialog waits for. -/
inductive Awaited
  /-- The request for a touch, or the prompt for the current PIN. -/
  | opener
  /-- The prompt for the current PIN, behind the request for a touch. -/
  | currentPin
  | newPin
  | samePin
  /-- The mark of a refusal, or the end, once all lines are sent. -/
  | verdict
  /-- What comes behind the mark of a refusal. -/
  | remainder
deriving DecidableEq

/-- What is awaited when so much text has come behind the last prompt. -/
def awaitedEnd (text : List Char) : Awaited :=
  if occurs DeviceError.policyMark.toList text then .remainder else .verdict

/-- What is awaited when so much text has come behind the prompt for the new PIN. -/
def awaitedConfirm (text : List Char) : Awaited :=
  match splitOnce? confirmPrompt.toList text with
  | some (_, text) => awaitedEnd text
  | none => .samePin

/-- What is awaited when so much text has come behind the prompt for the current PIN, or at all
where there is no current PIN. -/
def awaitedNewPin (text : List Char) : Awaited :=
  match splitOnce? newPinPrompt.toList text with
  | some (_, text) => awaitedConfirm text
  | none => .newPin

/-- What is awaited when so much text has come behind the request for a touch. -/
def awaitedTouched (text : List Char) : Awaited :=
  match splitOnce? currentPinPrompt.toList text with
  | some (_, text) => awaitedNewPin text
  | none => .currentPin

/-- What is awaited when so much text has come and there is a current PIN. -/
def awaitedOpening (text : List Char) : Awaited :=
  match earliest? (openers.map String.toList) text with
  | some found =>
    if found.index < touchMarks.length then awaitedTouched found.after
    else awaitedNewPin found.after
  | none => .opener

/-- What a dialog waits for when the tool has emitted so much text. -/
def awaited (dialog : Dialog) (text : List Char) : Awaited :=
  if dialog.current.isSome then awaitedOpening text else awaitedNewPin text

/-- How many lines a dialog has sent by the time it waits for something. -/
def linesFor (dialog : Dialog) : Awaited → Nat
  | .opener | .currentPin => 0
  | .newPin => dialog.current.toList.length
  | .samePin => dialog.current.toList.length + 1
  | .verdict | .remainder => dialog.current.toList.length + 2

/-! ## Scripts in time -/

/-- The prompts that a dialog waits for. -/
def Awaited.prompts : List Awaited := [.opener, .currentPin, .newPin, .samePin]

/-- How long a dialog waits for a prompt. -/
def promptTime (timeouts : Timeouts) : Awaited → Nat
  | .currentPin => timeouts.touch
  | _ => timeouts.prompt

/-- Pauses that the waits of a dialog can bear, by how long the tool pauses in all while each of
them is running. -/
@[mk_iff]
structure Bearable (timeouts : Timeouts) (pauses : Awaited → Nat) : Prop where
  prompt : ∀ what ∈ Awaited.prompts, pauses what ≤ promptTime timeouts what
  /-- Where the mark of a refusal comes while it is waited for, the end is waited for once more. -/
  remainder : pauses .verdict ≤ timeouts.policyProbe → pauses .remainder ≤ timeouts.policyProbe
  /-- Where it does not, the end is waited for as long as a prompt. -/
  verdict : timeouts.policyProbe < pauses .verdict →
    pauses .verdict + pauses .remainder ≤ timeouts.policyProbe + timeouts.prompt

/-- How long the tool pauses in all while it is `what` that is awaited, by the text so far. It has
emitted `text` before these cues. -/
def pausesFor (awaited : List Char → Awaited) (text : List Char) (cues : List (Cue String))
    (what : Awaited) : Nat :=
  pausesWhile (fun text => awaited text = what) text cues

/-- Cues that are played before the deadline of the wait that is running: the tool reads no more
lines than it was sent, and its pauses are no longer than the waits that they are in. What is
awaited goes by the text so far; the tool has emitted `text` and read `count` lines before. -/
@[mk_iff]
structure OnTime (dialog : Dialog) (awaited : List Char → Awaited) (text : List Char) (count : Nat)
    (cues : List (Cue String)) : Prop where
  served : served (fun text => dialog.linesFor (awaited text)) text count cues
  bearable : Bearable dialog.timeouts (pausesFor awaited text cues)

/-- All of the output and its end arrive before the deadline of the wait that is running. -/
@[mk_iff]
structure InTime (dialog : Dialog) (script : Script) : Prop where
  /-- Every line can be sent. -/
  sends : script.sendFailsAt = none
  onTime : OnTime dialog dialog.awaited [] 0 script.cues

instance (timeouts : Timeouts) (pauses : Awaited → Nat) : Decidable (Bearable timeouts pauses) :=
  decidable_of_iff' _ (bearable_iff timeouts pauses)

instance (dialog : Dialog) (awaited : List Char → Awaited) (text : List Char) (count : Nat)
    (cues : List (Cue String)) : Decidable (OnTime dialog awaited text count cues) :=
  decidable_of_iff' _ (onTime_iff dialog awaited text count cues)

instance (dialog : Dialog) (script : Script) : Decidable (dialog.InTime script) :=
  decidable_of_iff' _ (inTime_iff dialog script)

/-! ## What is still to come -/

variable {dialog : Dialog} {talk after : Conversation} {stage next : Stage} {marks : List String}
  {running : Awaited} {onward : Nat → Stage} {result : Except Failure Wait} {count : Nat}
  {awaited other : List Char → Awaited} {text left : List Char} {cues : List (Cue String)}

/-- Only what is awaited from here on makes a difference. -/
theorem onTime_congr (h : ∀ rest, awaited (text ++ rest) = other (left ++ rest)) :
    OnTime dialog awaited text count cues ↔ OnTime dialog other left count cues := by
  have hserved : Conversation.served (fun text => dialog.linesFor (awaited text)) text count cues =
      Conversation.served (fun text => dialog.linesFor (other text)) left count cues :=
    served_congr fun rest => by rw [h rest]
  have hpauses : pausesFor awaited text cues = pausesFor other left cues :=
    funext fun what => pausesWhile_congr fun rest => by rw [h rest]
  rw [onTime_iff, onTime_iff, hserved, hpauses]

/-- What is awaited when so much text has come since a stage began. -/
def awaitedAt (dialog : Dialog) (stage : Stage) (text : List Char) : Awaited :=
  match stage with
  | .start => dialog.awaited text
  | .opening => awaitedOpening text
  | .touched => awaitedTouched text
  | .newPin => awaitedNewPin text
  | .confirm => awaitedConfirm text
  | .completion | .finished _ => awaitedEnd text

/-- What is left of a script at a stage is in time for the waits from this stage on. -/
def Ahead (dialog : Dialog) (stage : Stage) (talk : Conversation) : Prop :=
  OnTime dialog (dialog.awaitedAt stage) talk.buffer.toList talk.heard.length talk.cues

/-- What holds between two waits: so many lines were sent, none can fail to be, and the end of the
output was not seen. -/
structure Ready (talk : Conversation) (count : Nat) : Prop where
  sent : talk.sent = count
  sends : talk.sendFailsAt = none
  unended : .ended ∉ talk.log

/-! ## What is awaited from a stage on -/

/-- How far what is awaited is from the end of a dialog, as the stages are. -/
def Awaited.rank : Awaited → Nat
  | .opener => 5
  | .currentPin => 4
  | .newPin => 3
  | .samePin => 2
  | .verdict | .remainder => 1

theorem rank_awaitedEnd (text : List Char) : (awaitedEnd text).rank = 1 := by
  rw [awaitedEnd]
  split_ifs <;> rfl

theorem rank_awaitedConfirm (text : List Char) : (awaitedConfirm text).rank ≤ 2 := by
  rw [awaitedConfirm]
  split
  · rw [rank_awaitedEnd]
    decide
  · decide

theorem rank_awaitedNewPin (text : List Char) : (awaitedNewPin text).rank ≤ 3 := by
  rw [awaitedNewPin]
  split
  · exact (rank_awaitedConfirm _).trans (by decide)
  · decide

theorem rank_awaitedTouched (text : List Char) : (awaitedTouched text).rank ≤ 4 := by
  rw [awaitedTouched]
  split
  · exact (rank_awaitedNewPin _).trans (by decide)
  · decide

/-- At a stage a wait for a prompt is running, and the mark that is found leads on, to waits for
something else. -/
structure Waits (dialog : Dialog) (stage : Stage) (marks : List String) (running : Awaited)
    (onward : Nat → Stage) : Prop where
  prompt : running ∈ Awaited.prompts
  apart : Apart (marks.map String.toList)
  unmarked : Steady marks (dialog.awaitedAt stage) running
  marked : ∀ text found, earliest? (marks.map String.toList) text = some found →
    dialog.awaitedAt stage text = dialog.awaitedAt (onward found.index) found.after
  behind : ∀ index text, (dialog.awaitedAt (onward index) text).rank < running.rank

theorem waits_prompt {prompt : String} (hprompt : running ∈ Awaited.prompts)
    (hbehind : ∀ text, (dialog.awaitedAt next text).rank < running.rank)
    (h : ∀ text, dialog.awaitedAt stage text =
      match splitOnce? prompt.toList text with
      | some (_, text) => dialog.awaitedAt next text
      | none => running) : Waits dialog stage [prompt] running fun _ => next where
  prompt := hprompt
  apart := apart_singleton prompt.toList
  unmarked := by
    intro text hnone
    rw [h, splitOnce?_eq_none hnone]
  marked := by
    intro text found hfound
    rw [h, splitOnce?_of_earliest? hfound]
  behind := fun _ => hbehind

theorem waits_opening : Waits dialog .opening openers .opener
    fun index => if index < touchMarks.length then .touched else .newPin where
  prompt := by decide
  apart := apart_openers
  unmarked := by
    intro text hnone
    rw [awaitedAt, awaitedOpening, hnone]
  marked := by
    intro text found hfound
    rw [awaitedAt, awaitedOpening, hfound]
    dsimp only
    split_ifs <;> rfl
  behind := by
    intro index text
    split_ifs
    · exact Nat.lt_succ_of_le (rank_awaitedTouched text)
    · exact Nat.lt_succ_of_le ((rank_awaitedNewPin text).trans (by decide))

theorem waits_touched : Waits dialog .touched [currentPinPrompt] .currentPin fun _ => .newPin :=
  waits_prompt (by decide) (fun text => Nat.lt_succ_of_le (rank_awaitedNewPin text)) fun _ => rfl

theorem waits_newPin : Waits dialog .newPin [newPinPrompt] .newPin fun _ => .confirm :=
  waits_prompt (by decide) (fun text => Nat.lt_succ_of_le (rank_awaitedConfirm text)) fun _ => rfl

theorem waits_confirm : Waits dialog .confirm [confirmPrompt] .samePin fun _ => .completion :=
  waits_prompt (by decide) (fun text => Nat.lt_succ_of_le (rank_awaitedEnd text).le) fun _ => rfl

/-! ## A wait for a prompt -/

/-- The pauses of one wait for a prompt are borne, and the others are left. -/
theorem bearable_iff_of_passed {timeouts : Timeouts} {pauses left : Awaited → Nat} {passed : Nat}
    (hprompt : running ∈ Awaited.prompts) (hpassed : passed ≤ promptTime timeouts running)
    (hover : left running = 0)
    (hpauses : ∀ awaited,
      pauses awaited = (if running = awaited then passed else 0) + left awaited) :
    Bearable timeouts pauses ↔ Bearable timeouts left := by
  have hother : ∀ {awaited}, awaited ∉ Awaited.prompts → pauses awaited = left awaited := by
    intro awaited hnot
    have hne : running ≠ awaited := fun heq => hnot (heq ▸ hprompt)
    rw [hpauses, if_neg hne, Nat.zero_add]
  rw [bearable_iff, bearable_iff, hother (by decide : Awaited.verdict ∉ _),
    hother (by decide : Awaited.remainder ∉ _)]
  refine and_congr_left fun _ => forall₂_congr fun awaited _ => ?_
  rw [hpauses]
  split_ifs with heq
  · subst heq
    omega
  · rw [Nat.zero_add]

/-- How a wait for a prompt ends at a stage, by whether all is in time from this stage on. Where the
prompt comes, this is left to the next stage. -/
inductive PromptEnd (dialog : Dialog) (stage : Stage) (talk : Conversation) (onward : Nat → Stage)
    (after : Conversation) (count : Nat) : Except Failure Wait → Prop
  | matched {index : Nat} {before : String} :
      (Ahead dialog stage talk ↔ Ahead dialog (onward index) after) → Ready after count →
      PromptEnd dialog stage talk onward after count (.ok (.matched index before))
  | ended {before : String} : .ended ∈ after.log → Ahead dialog stage talk →
      PromptEnd dialog stage talk onward after count (.ok (.ended before))
  | timedOut {before : String} : .ended ∉ after.log → ¬ Ahead dialog stage talk →
      PromptEnd dialog stage talk onward after count (.ok (.timedOut before))
  | failed {failure : Failure} : .ended ∉ after.log → ¬ Ahead dialog stage talk →
      PromptEnd dialog stage talk onward after count (.error failure)

/-- What has to be in time behind a wait that has borne its pauses. -/
theorem Waits.ahead_iff {rest : List (Cue String)} {passed : Nat}
    (h : Waits dialog stage marks running onward) (hsent : talk.sent = dialog.linesFor running)
    (hborne : Borne marks talk talk.cues text after rest passed)
    (hpassed : passed ≤ promptTime dialog.timeouts running)
    (hover : pausesFor (dialog.awaitedAt stage) text rest running = 0) :
    Ahead dialog stage talk ↔
      OnTime dialog (dialog.awaitedAt stage) text after.heard.length rest := by
  have hlines := h.unmarked.map dialog.linesFor
  rw [← hsent] at hlines
  rw [Ahead, onTime_iff, onTime_iff, hborne.served _ hlines]
  refine and_congr_right fun _ => bearable_iff_of_passed h.prompt hpassed hover fun what => ?_
  have hpauses := hborne.pauses _ _ (h.unmarked.map fun running => decide (running = what))
  rw [pausesFor, hpauses, pausesFor]
  simp only [decide_eq_true_eq]

/-- **A wait for a prompt** that its prompt comes in time for leaves the rest to the waits behind
it. -/
theorem Ready.expect (h : Ready talk (dialog.linesFor running))
    (hwaits : Waits dialog stage marks running onward)
    (hexpect : talk.expect marks (promptTime dialog.timeouts running) = (result, after)) :
    PromptEnd dialog stage talk onward after (dialog.linesFor running) result := by
  have hlines := hwaits.unmarked.map dialog.linesFor
  have hrunning := hwaits.unmarked.map fun awaited => decide (awaited = running)
  rw [← h.sent] at hlines
  rw [decide_eq_true rfl] at hrunning
  have hended := (expect_waited hwaits.apart hexpect h.unended).ended_iff
  cases expect_arrival hexpect with
  | @matched before text passed found hfound hbuffer hpassed hborne =>
    -- Behind the mark the waits are those of the next stage.
    have hbehind : ∀ rest, dialog.awaitedAt stage (text ++ rest) =
        dialog.awaitedAt (onward found.index) (after.buffer.toList ++ rest) := by
      intro rest
      rw [hwaits.marked _ _ (earliest?_append hwaits.apart hfound), hbuffer]
    have hover : pausesFor (dialog.awaitedAt stage) text after.cues running = 0 := by
      refine pausesWhile_eq_zero fun rest => decide_eq_false fun heq => ?_
      have hless := hwaits.behind found.index (after.buffer.toList ++ rest)
      rw [← hbehind, heq] at hless
      exact lt_irrefl _ hless
    have hunended : .ended ∉ after.log := by simp [hended]
    refine .matched ?_ ⟨hborne.sent.trans h.sent, hborne.sendFailsAt.trans h.sends, hunended⟩
    exact (hwaits.ahead_iff h.sent hborne hpassed hover).trans (onTime_congr hbehind)
  | ended hpassed hborne =>
    refine .ended (hended.2 ⟨_, rfl⟩) ((hwaits.ahead_iff h.sent hborne hpassed rfl).2 ⟨rfl, ?_⟩)
    exact ⟨fun _ _ => Nat.zero_le _, fun _ => Nat.zero_le _, fun h => nomatch h⟩
  | late hleft hborne =>
    refine .timedOut (by simp [hended]) fun hahead => ?_
    have hmore := hleft _ hrunning
    have hpauses := hahead.bearable.prompt running hwaits.prompt
    rw [pausesFor, hborne.pauses _ true hrunning, if_pos rfl] at hpauses
    omega
  | stuck passed hunserved hborne =>
    refine .timedOut (by simp [hended]) fun hahead => ?_
    have hserved := hahead.served
    rw [hborne.served _ hlines, hunserved _ hlines] at hserved
    cases hserved
  | failed hunserved =>
    refine .failed (by simp [hended]) fun hahead => ?_
    have hserved := hahead.served
    rw [hunserved _ hlines] at hserved
    cases hserved

/-! ## Steps -/

/-- Where a step leads from a stage, by whether all is in time from this stage on: to a stage of
which the same holds, or to the end of the dialog, which then has seen the end of the output, and
otherwise has not. -/
inductive Goes (dialog : Dialog) (inTime : Prop) : Except Failure Stage × Conversation → Prop
  | onward {next : Stage} {talk : Conversation} : 0 < next.rank →
      (inTime ↔ Ahead dialog next talk) →
      Ready talk (dialog.linesFor (dialog.awaitedAt next [])) → Goes dialog inTime (.ok next, talk)
  | finished {outcome : PinOutcome} {talk : Conversation} : (inTime ↔ .ended ∈ talk.log) →
      Goes dialog inTime (.ok (.finished outcome), talk)
  | broken {failure : Failure} {talk : Conversation} : (inTime ↔ .ended ∈ talk.log) →
      Goes dialog inTime (.error failure, talk)

theorem goes_sendThen {line : String} (h : Ready talk count) (hnext : 0 < next.rank)
    (hcount : count + 1 = dialog.linesFor (dialog.awaitedAt next [])) :
    Goes dialog (Ahead dialog next talk) (sendThen talk line next) := by
  have hunended : .ended ∉ (talk.send line).2.log := mt ended_send.1 h.unended
  have hsends : ¬ talk.sendFailsAt = some (talk.attempts + 1) := by simp [h.sends]
  rw [send_eq, if_neg hsends] at hunended
  rw [sendThen, send_eq, if_neg hsends]
  refine .onward hnext Iff.rfl ⟨?_, h.sends, hunended⟩
  rw [← hcount, ← h.sent]
  simp [Conversation.sent, record, deliver]
  omega

theorem goes_sendCurrentPin (h : Ready talk 0) :
    Goes dialog (Ahead dialog .newPin talk) (dialog.sendCurrentPin talk) := by
  have hlines : dialog.linesFor (dialog.awaitedAt .newPin []) = dialog.current.toList.length := rfl
  rw [sendCurrentPin]
  split
  · next pin hcurrent =>
    refine goes_sendThen h (by decide) ?_
    rw [hlines, hcurrent]
    rfl
  · next hcurrent =>
    refine .onward (by decide) Iff.rfl ?_
    rw [hlines, hcurrent]
    exact h

theorem goes_answer {prompt : String} {reply : Conversation → Except Failure Stage × Conversation}
    (h : Ready talk (dialog.linesFor running))
    (hwaits : Waits dialog stage [prompt] running fun _ => next)
    (hreply : ∀ talk, Ready talk (dialog.linesFor running) →
      Goes dialog (Ahead dialog next talk) (reply talk)) :
    Goes dialog (Ahead dialog stage talk)
      (answer talk prompt (promptTime dialog.timeouts running) reply) := by
  rw [answer]
  rcases hexpect : talk.expect [prompt] (promptTime dialog.timeouts running) with ⟨result, after⟩
  cases h.expect hwaits hexpect with
  | matched hahead hready =>
    rw [hahead]
    exact hreply after hready
  | ended hended hahead => exact .finished (iff_of_true hahead hended)
  | timedOut hunended hlate => exact .finished (iff_of_false hlate hunended)
  | failed hunended hlate => exact .broken (iff_of_false hlate hunended)

theorem goes_opening (h : Ready talk 0) :
    Goes dialog (Ahead dialog .opening talk) (dialog.step .opening talk) := by
  rw [step]
  rcases hexpect : talk.expect openers dialog.timeouts.prompt with ⟨result, after⟩
  cases h.expect waits_opening hexpect with
  | matched hahead hready =>
    rw [hahead]
    dsimp only
    split_ifs
    · exact .onward (by decide) Iff.rfl ⟨hready.sent, hready.sends, hready.unended⟩
    · exact .onward (by decide) Iff.rfl hready
    · exact goes_sendCurrentPin hready
  | ended hended hahead => exact .finished (iff_of_true hahead hended)
  | timedOut hunended hlate => exact .finished (iff_of_false hlate hunended)
  | failed hunended hlate => exact .broken (iff_of_false hlate hunended)

theorem goes_start (h : Ready talk (dialog.linesFor (dialog.awaitedAt .start []))) :
    Goes dialog (Ahead dialog .start talk) (dialog.step .start talk) := by
  have hbegun : dialog.awaitedAt .start =
      dialog.awaitedAt (if dialog.current.isSome then .opening else .newPin) := by
    funext text
    rw [awaitedAt, awaited]
    split_ifs <;> rfl
  rw [hbegun] at h
  refine .onward (by split_ifs <;> decide) ?_ h
  rw [Ahead, hbegun]
  rfl

/-! ## The last stage -/

theorem awaitedEnd_eq_verdict {text : List Char}
    (h : earliest? [DeviceError.policyMark.toList] text = none) : awaitedEnd text = .verdict := by
  rw [awaitedEnd, occurs, splitOnce?_eq_none h]
  rfl

theorem awaitedEnd_ne_verdict {text : List Char} {found : Found}
    (h : earliest? [DeviceError.policyMark.toList] text = some found) (rest : List Char) :
    awaitedEnd (text ++ rest) ≠ .verdict := by
  have hmore := splitOnce?_of_earliest? (earliest?_append (t := rest) (apart_singleton _) h)
  simp [awaitedEnd, occurs, hmore]

theorem pausesFor_awaitedEnd_prompt (text : List Char) (cues : List (Cue String)) :
    ∀ what ∈ Awaited.prompts, pausesFor awaitedEnd text cues what = 0 := by
  intro what hprompt
  refine pausesWhile_eq_zero fun rest => decide_eq_false fun heq => ?_
  have hother : ∀ what ∈ Awaited.prompts, what.rank ≠ 1 := by decide
  exact hother what hprompt (heq ▸ rank_awaitedEnd (text ++ rest))

theorem pausesFor_awaitedEnd_add (text : List Char) (cues : List (Cue String)) :
    pausesFor awaitedEnd text cues .verdict + pausesFor awaitedEnd text cues .remainder =
      pauses cues := by
  refine pausesWhile_add fun text => ?_
  rw [awaitedEnd]
  split_ifs <;> rfl

/-- What has to be in time behind the last prompt, where the tool was sent all its lines. -/
theorem ahead_completion_iff (hsent : talk.sent = dialog.current.toList.length + 2) :
    Ahead dialog .completion talk ↔
      Conversation.served (fun _ => talk.sent) talk.buffer.toList talk.heard.length talk.cues ∧
        (pausesFor awaitedEnd talk.buffer.toList talk.cues .verdict ≤ dialog.timeouts.policyProbe →
          pausesFor awaitedEnd talk.buffer.toList talk.cues .remainder ≤
            dialog.timeouts.policyProbe) ∧
        (dialog.timeouts.policyProbe < pausesFor awaitedEnd talk.buffer.toList talk.cues .verdict →
          pauses talk.cues ≤ dialog.timeouts.policyProbe + dialog.timeouts.prompt) := by
  have hlines : (fun text => dialog.linesFor (dialog.awaitedAt .completion text)) =
      fun _ => talk.sent := by
    funext text
    rw [awaitedAt, awaitedEnd, hsent]
    split_ifs <;> rfl
  have hawaited : dialog.awaitedAt .completion = awaitedEnd := rfl
  rw [Ahead, onTime_iff, hlines, hawaited, bearable_iff, pausesFor_awaitedEnd_add]
  refine and_congr_right fun _ => and_iff_right fun what hprompt => ?_
  rw [pausesFor_awaitedEnd_prompt _ _ what hprompt]
  exact Nat.zero_le _

/-- **The last stage comes to the end** exactly if all is in time: the mark of a refusal is found,
and the end comes in one more wait of this kind, or the end comes in both waits together. -/
theorem ahead_completion (h : Ready talk (dialog.current.toList.length + 2)) :
    Ahead dialog .completion talk ↔ .ended ∈ (dialog.complete talk).2.log := by
  have hlines : Steady [DeviceError.policyMark] (fun _ => talk.sent) talk.sent := fun _ _ => rfl
  have hrunning : Steady [DeviceError.policyMark]
      (fun text => decide (awaitedEnd text = .verdict)) true :=
    fun unmarked hnone => decide_eq_true (awaitedEnd_eq_verdict hnone)
  have hadd := pausesFor_awaitedEnd_add talk.buffer.toList talk.cues
  rw [ahead_completion_iff h.sent, snd_complete]
  rcases hprobe : talk.expect [DeviceError.policyMark] dialog.timeouts.policyProbe
    with ⟨result, after⟩
  have hprobed := (expect_one_waited hprobe h.unended).ended_iff
  cases expect_arrival hprobe with
  | @matched before text passed found hfound _ hpassed hborne =>
    have hunended : .ended ∉ after.log := by simp [hprobed]
    -- The pauses up to the mark are those of the verdict, and the others those of the remainder.
    have hnone : pausesWhile (fun text => awaitedEnd text = .verdict) text after.cues = 0 :=
      pausesWhile_eq_zero fun rest => decide_eq_false (awaitedEnd_ne_verdict hfound rest)
    have hverdict : pausesFor awaitedEnd talk.buffer.toList talk.cues .verdict = passed + _ :=
      hborne.pauses _ true hrunning
    dsimp only
    rcases hend : after.expectEnd dialog.timeouts.policyProbe with ⟨result, last⟩
    rw [(expectEnd_waited hend hunended).ended_iff, hborne.expectEnd_iff hend]
    refine and_congr_right fun _ => ?_
    omega
  | ended hpassed hborne =>
    have hall : pauses talk.cues = _ + 0 := hborne.pauses_eq
    refine iff_of_true ⟨hborne.served _ hlines, ?_⟩ (hprobed.2 ⟨_, rfl⟩)
    omega
  | late hleft hborne =>
    have hunended : .ended ∉ after.log := by simp [hprobed]
    -- The verdict was awaited for longer than the first wait, so the second one adds to it.
    have hmore := hleft _ hrunning
    have hverdict : pausesFor awaitedEnd talk.buffer.toList talk.cues .verdict =
        dialog.timeouts.policyProbe + _ := hborne.pauses _ true hrunning
    dsimp only
    rcases hend : after.expectEnd dialog.timeouts.prompt with ⟨result, last⟩
    rw [(expectEnd_waited hend hunended).ended_iff, hborne.expectEnd_iff hend]
    refine and_congr_right fun _ => ?_
    omega
  | stuck passed hunserved hborne =>
    have hunended : .ended ∉ after.log := by simp [hprobed]
    dsimp only
    rcases hend : after.expectEnd dialog.timeouts.prompt with ⟨result, last⟩
    rw [(expectEnd_waited hend hunended).ended_iff, hborne.expectEnd_iff hend,
      hborne.served _ hlines, hunserved _ hlines]
    simp
  | failed hunserved =>
    rw [hunserved _ hlines]
    simp [hprobed]

theorem goes_completion (h : Ready talk (dialog.current.toList.length + 2)) :
    Goes dialog (Ahead dialog .completion talk) (dialog.step .completion talk) := by
  have hended := ahead_completion h
  rw [step]
  rcases hcomplete : dialog.complete talk with ⟨result, last⟩
  rw [hcomplete] at hended
  cases result with
  | ok outcome => exact .finished hended
  | error failure => exact .broken hended

/-- **One step keeps a script in time**, or late. -/
theorem step_goes (hrank : 0 < stage.rank)
    (h : Ready talk (dialog.linesFor (dialog.awaitedAt stage []))) :
    Goes dialog (Ahead dialog stage talk) (dialog.step stage talk) := by
  cases stage with
  | start => exact goes_start h
  | opening => exact goes_opening h
  | touched => exact goes_answer h waits_touched fun talk h => goes_sendCurrentPin h
  | newPin => exact goes_answer h waits_newPin fun talk h => goes_sendThen h (by decide) rfl
  | confirm => exact goes_answer h waits_confirm fun talk h => goes_sendThen h (by decide) rfl
  | completion => exact goes_completion h
  | finished outcome => cases hrank

/-! ## Whole dialogs -/

/-- A dialog sees the end of the output exactly if all is in time from its stage on. -/
theorem ended_advance_iff {fuel : Nat} (hfuel : stage.rank ≤ fuel) (hrank : 0 < stage.rank)
    (h : Ready talk (dialog.linesFor (dialog.awaitedAt stage []))) :
    .ended ∈ (dialog.advance fuel stage talk).2.log ↔ Ahead dialog stage talk := by
  -- The rank falls with every step, so the steps do not run out before the dialog is finished.
  induction fuel generalizing stage talk with
  | zero => omega
  | succ fuel ih =>
    have hgoes : Goes dialog _ _ := step_goes hrank h
    rw [advance_succ]
    rcases hstep : dialog.step stage talk with ⟨result, after⟩
    rw [hstep] at hgoes
    cases hgoes with
    | onward hnext hahead hready =>
      have hless := rank_step hrank hstep
      rw [hahead]
      exact ih (by omega) hnext hready
    | finished hended =>
      dsimp only
      rw [advance_finished, ended_close, hended]
    | broken hended => rw [ended_close, hended]

/-- **A dialog sees the end of the output exactly if the output arrives in time**, with a tool that
every line can be sent to. -/
theorem ended_run_iff {script : Script} (sends : script.sendFailsAt = none) :
    .ended ∈ (dialog.run script).2.log ↔ dialog.InTime script := by
  have hready : Ready (.begin script) (dialog.linesFor (dialog.awaitedAt .start [])) := by
    refine ⟨?_, sends, List.not_mem_nil⟩
    have hopening : awaitedOpening [] = .opener := by decide
    have hnewPin : awaitedNewPin [] = .newPin := by decide
    rw [awaitedAt, awaited, hopening, hnewPin]
    cases hcurrent : dialog.current with
    | none => simp [linesFor, hcurrent, Conversation.sent, begin]
    | some pin => simp [linesFor, Conversation.sent, begin]
  rw [run, ended_advance_iff (Nat.le_refl maxSteps) (by decide) hready]
  exact ⟨fun h => ⟨sends, h⟩, InTime.onTime⟩

/-- The outcome of a dialog whose output arrives in time. -/
theorem InTime.run_eq {script : Script} (h : dialog.InTime script) :
    (dialog.run script).1 = .ok (dialog.reading (Conversation.textOf script.cues)) := by
  rcases dialog.run_reading script with ⟨_, hreading⟩ | ⟨hunended, _⟩
  · exact hreading
  · exact absurd ((ended_run_iff h.sends).2 h) hunended

/-- Output arrives in time if all its pauses together are no longer than any wait. -/
theorem inTime_of_pauses {script : Script} (flowing : Flowing script.cues)
    (hpauses : ∀ within ∈ dialog.waits, pauses script.cues ≤ within)
    (sends : script.sendFailsAt = none) : dialog.InTime script where
  sends := sends
  onTime := by
    refine ⟨flowing.served, ?_⟩
    simp only [waits, List.forall_mem_cons] at hpauses
    obtain ⟨hprompt, htouch, hprobe, -⟩ := hpauses
    have hle : ∀ what, pausesFor dialog.awaited [] script.cues what ≤ pauses script.cues :=
      fun _ => pausesWhile_le_pauses
    refine ⟨fun what _ => ?_, fun _ => (hle _).trans hprobe, fun hlate => ?_⟩
    · cases what with
      | currentPin => exact (hle _).trans htouch
      | _ => exact (hle _).trans hprompt
    · have hverdict := (hle .verdict).trans hprobe
      omega

/-- A text that comes at once is read as a whole, into whatever pieces it is cut. -/
theorem run_pieces (dialog : Dialog) (pieces : List String) :
    (dialog.run ⟨pieces.map .emit, none⟩).1 =
      .ok (dialog.reading (pieces.flatMap String.toList)) := by
  have hintime : dialog.InTime ⟨pieces.map .emit, none⟩ :=
    inTime_of_pauses (flowing_emit pieces)
      (fun within _ => by rw [pauses_emit]; exact Nat.zero_le within) rfl
  rw [hintime.run_eq, textOf_emit]

/-- **A dialog as a function of the text.** Where all of the output and its end arrive before the
deadline of the wait that is running, the outcome is the reading of the text, in whatever pieces and
with whatever pauses it comes. Whatever else the tool does, the dialog comes to this outcome if it
sees the end of the output, and if it does not, then a wait came to its deadline or the connection
broke. -/
theorem run_eq_reading (dialog : Dialog) (script : Script) :
    (dialog.InTime script →
      (dialog.run script).1 = .ok (dialog.reading (Conversation.textOf script.cues))) ∧
    ((.ended ∈ (dialog.run script).2.log ∧
        (dialog.run script).1 = .ok (dialog.reading (Conversation.textOf script.cues))) ∨
      (.ended ∉ (dialog.run script).2.log ∧ ¬ Undisturbed (dialog.run script).2.log)) :=
  ⟨InTime.run_eq, dialog.run_reading script⟩

/-- A change with a touch, whose prompts come in pieces and with pauses, and which is refused when
the mark of a refusal is no longer waited for. -/
def refusedInPieces : Script :=
  ⟨[.emit "Waiting for u", .emit "ser\nEnter cur", .delay 20000, .emit "", .emit "rent PIN: ",
    .awaitLine, .emit "Enter new PIN: Enter the same", .emit " PIN again: ", .awaitLine,
    .delay 5000, .emit "FIDO_ERR_PIN_AUTH_", .emit "BLOCKED"], none⟩

theorem run_eq_reading_refusedInPieces :
    (change ⟨"1234"⟩ ⟨⟨"567890"⟩⟩ .standard true).InTime refusedInPieces ∧
      ((change ⟨"1234"⟩ ⟨⟨"567890"⟩⟩ .standard true).run refusedInPieces).1 =
        .ok (.otherError ⟨.pinAuthBlocked, ": FIDO_ERR_PIN_AUTH_BLOCKED"⟩) := by
  have hintime : (change ⟨"1234"⟩ ⟨⟨"567890"⟩⟩ .standard true).InTime refusedInPieces := by
    decide
  refine ⟨hintime, ?_⟩
  rw [(run_eq_reading _ _).1 hintime]
  decide

end SecurityKey.Dialog
