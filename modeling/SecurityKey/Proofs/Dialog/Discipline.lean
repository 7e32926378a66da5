import Mathlib.Tactic.Common
import SecurityKey.Dialog
import SecurityKey.Proofs.Conversation
import SecurityKey.Proofs.Diagnosis
import SecurityKey.Proofs.Dialog.Arrival
import SecurityKey.Proofs.Dialog.Reading
import SecurityKey.Proofs.Dialog.Steps
/-!
# What a PIN dialog may do

A dialog sends PINs to a tool that can do anything: it can print what it likes in pieces of any
size, stop answering, end, or break the connection at every point. `run_disciplined` says what
holds all the same: a line is sent only after its own prompt, in the order of the prompts, the
notice of a touch comes at most once and before any line, the conversation is closed once and last,
and success is reported only where every line was sent and the output has ended.

**Laws.** Most of this is a law about single events, which says what must have happened before
(`Lawful`). A log that obeys it throughout has the lines in order (`handed_prefix_lines`) and
at most one notice (`count_touch_le_one`).

**Stages.** `Inv` is what holds at a stage: how many lines were sent and how many prompts were seen,
with all that was read either consumed or in the buffer. One step keeps it (`step_inv`), and a
dialog that stops, wherever it does, leaves a lawful log behind (`advance_safe`).
-/

namespace SecurityKey

open Text Log

/-! ## Laws about events -/

/-- Every event of the log obeys a law about what happened before it. -/
inductive Throughout (law : List Event → Event → Prop) : List Event → Prop
  | nil : Throughout law []
  | concat {log : List Event} {event : Event} :
      Throughout law log → law log event → Throughout law (log ++ [event])

namespace Throughout

variable {law : List Event → Event → Prop} {log more : List Event}

theorem append (h : Throughout law log) (hmore : ∀ event ∈ more, ∀ before, law before event) :
    Throughout law (log ++ more) := by
  induction more generalizing log with
  | nil => simpa using h
  | cons event more ih =>
    rw [List.append_cons]
    have hevent : law log event := hmore event List.mem_cons_self log
    exact ih (h.concat hevent) fun e he => hmore e (List.mem_cons_of_mem _ he)

/-- The law at any place of the log. -/
theorem at_split (h : Throughout law log) {before after : List Event} {event : Event}
    (hlog : log = before ++ event :: after) : law before event := by
  induction h generalizing after with
  | nil => simp at hlog
  | concat _ hlaw ih =>
    rcases List.eq_nil_or_concat after with rfl | ⟨init, last, rfl⟩
    · obtain ⟨rfl, heq⟩ := List.append_inj' hlog rfl
      cases heq
      exact hlaw
    · rw [List.concat_eq_append, ← List.cons_append, ← List.append_assoc] at hlog
      exact ih (List.append_inj' hlog rfl).1

end Throughout

namespace Dialog

/-- The lines of a dialog: the current PIN, if there is one, and the new one twice. -/
def lines (dialog : Dialog) : List String :=
  dialog.current.toList.map Pin.text ++ [dialog.newPin.pin.text, dialog.newPin.pin.text]

/-- The prompts of a dialog, one for each line. -/
def prompts (dialog : Dialog) : List String :=
  dialog.current.toList.map (fun _ => currentPinPrompt) ++ [newPinPrompt, confirmPrompt]

/-- Whether the first `n` prompts stand in a text, one behind the other. -/
def Prompted (dialog : Dialog) (n : Nat) (text : List Char) : Prop :=
  InOrder ((dialog.prompts.take n).map String.toList) text

/-- What must have happened before an event: a line has its place among the lines, and its prompt
was read after all prompts before it; the notice of a touch belongs to a change, comes once and
before any line. -/
def Lawful (dialog : Dialog) (before : List Event) : Event → Prop
  | .sent line | .unsent line =>
    dialog.lines[(handed before).length]? = some line ∧
      dialog.Prompted ((handed before).length + 1) (output before)
  | .touchRequired =>
    dialog.current.isSome ∧ handed before = [] ∧ .touchRequired ∉ before
  | _ => True

variable {dialog : Dialog} {log : List Event}

theorem lawful_of_ofWait {before : List Event} {event : Event} (h : event.ofWait) :
    dialog.Lawful before event := by
  cases event <;> trivial

/-- The lines that were handed over are the first of the dialog. -/
theorem handed_prefix_lines (h : Throughout dialog.Lawful log) : handed log <+: dialog.lines := by
  induction h with
  | nil => exact List.nil_prefix
  | @concat log event _ hlaw ih =>
    have hnext : ∀ line, dialog.lines[(handed log).length]? = some line →
        handed log ++ [line] <+: dialog.lines := by
      intro line hline
      obtain ⟨rest, hrest⟩ := ih
      rw [← hrest, List.getElem?_append_right (Nat.le_refl _), Nat.sub_self] at hline
      obtain ⟨tail, rfl⟩ : ∃ tail, rest = line :: tail := by
        cases rest with
        | nil => cases hline
        | cons head tail => exact ⟨tail, by rw [Option.some.inj hline]⟩
      exact ⟨tail, by rw [← hrest]; simp⟩
    rw [handed_append]
    cases event with
    | sent line => exact hnext line hlaw.1
    | unsent line => exact hnext line hlaw.1
    | _ => rwa [show handed [_] = [] from rfl, List.append_nil]

/-- The touch of the key is noticed at most once. -/
theorem count_touch_le_one (h : Throughout dialog.Lawful log) :
    log.count .touchRequired ≤ 1 := by
  induction h with
  | nil => exact Nat.zero_le 1
  | @concat log event _ hlaw ih =>
    rw [List.count_append]
    by_cases he : event = .touchRequired
    · subst he
      have hnone : log.count .touchRequired = 0 := List.count_eq_zero_of_not_mem hlaw.2.2
      have hone : [Event.touchRequired].count .touchRequired = 1 := List.count_singleton_self
      omega
    · rw [List.count_singleton, if_neg (by simpa using he)]
      exact ih

/-! ## What holds while a dialog goes on -/

/-- What holds of a conversation that was not closed: the log is lawful, and a notice that is due
may still be delivered. -/
structure Safe (dialog : Dialog) (talk : Conversation) : Prop where
  lawful : Throughout dialog.Lawful talk.log
  unclosed : .closed ∉ talk.log
  due : talk.notices = 0 ∨ talk.notices = 1 ∧ dialog.current.isSome ∧
    handed talk.log = [] ∧ .touchRequired ∉ talk.log

/-- The dialog has sent its first `sent` lines and consumed its first `seen` prompts. What was read
and not consumed is in the buffer. -/
structure Going (dialog : Dialog) (sent seen : Nat) (talk : Conversation) : Prop
    extends Safe dialog talk where
  handed : handed talk.log = dialog.lines.take sent
  delivered : delivered talk.log = dialog.lines.take sent
  prompted : ∃ consumed, output talk.log = consumed ++ talk.buffer.toList ∧
    dialog.Prompted seen consumed

variable {talk after : Conversation} {sent seen : Nat} {marks : List String}
  {cues : List (Cue String)} {result : Except Failure Wait} {more : List Event}

/-- The notices that are due are lawful. -/
theorem Safe.notices (h : Safe dialog talk) :
    Throughout dialog.Lawful (talk.log ++ List.replicate talk.notices .touchRequired) := by
  rcases h.due with hzero | ⟨hone, hsome, hnone, hnot⟩
  · rw [hzero]
    simpa using h.lawful
  · rw [hone]
    exact h.lawful.concat ⟨hsome, hnone, hnot⟩

theorem Safe.closed_not_mem (h : Safe dialog talk) :
    .closed ∉ talk.log ++ List.replicate talk.notices .touchRequired := by
  intro hmem
  rcases List.mem_append.1 hmem with hmem | hmem
  · exact h.unclosed hmem
  · cases List.eq_of_mem_replicate hmem

/-- A wait does nothing that a law forbids. -/
theorem Safe.wait (h : Safe dialog talk)
    (hw : Conversation.Listened marks talk cues result after more) : Safe dialog after where
  lawful := by
    rw [hw.log]
    exact h.lawful.append fun event he _ => lawful_of_ofWait (hw.ofWait event he)
  unclosed := by
    intro hmem
    rw [hw.log] at hmem
    rcases List.mem_append.1 hmem with hmem | hmem
    · exact h.unclosed hmem
    · cases hw.ofWait _ hmem
  due := by
    rw [hw.notices, hw.log, handed_append, handed_of_ofWait hw.ofWait, List.append_nil]
    rcases h.due with hzero | ⟨hone, hsome, hnone, hnot⟩
    · exact .inl hzero
    · refine .inr ⟨hone, hsome, hnone, fun hmem => ?_⟩
      rcases List.mem_append.1 hmem with hmem | hmem
      · exact hnot hmem
      · cases hw.ofWait _ hmem

/-- A wait hands over no line. -/
theorem Going.handed_wait (h : Going dialog sent seen talk)
    (hw : Conversation.Listened marks talk cues result after more) :
    Log.handed after.log = dialog.lines.take sent := by
  rw [hw.log, handed_append, handed_of_ofWait hw.ofWait, List.append_nil, h.handed]

theorem Going.delivered_wait (h : Going dialog sent seen talk)
    (hw : Conversation.Listened marks talk cues result after more) :
    Log.delivered after.log = dialog.lines.take sent := by
  rw [hw.log, delivered_append, delivered_of_ofWait hw.ofWait, List.append_nil, h.delivered]

/-- What was read up to the end of a mark is consumed, and the mark is the last of it. -/
theorem Going.consumed (h : Going dialog sent seen talk) {index : Nat} {before : String}
    (hw : Conversation.Listened marks talk cues (.ok (.matched index before)) after more) :
    ∃ mark consumed gap, marks[index]? = some mark ∧ dialog.Prompted seen consumed ∧
      output after.log = consumed ++ gap ++ mark.toList ++ after.buffer.toList := by
  obtain ⟨consumed, hout, hprompted⟩ := h.prompted
  cases hw.ending with
  | matched found hfound _ hbuffer =>
    obtain ⟨⟨chars, hchars, htext⟩, _⟩ := earliest?_eq_some_iff.1 hfound
    rw [List.getElem?_map] at hchars
    obtain ⟨mark, hmark, rfl⟩ := Option.map_eq_some_iff.1 hchars
    refine ⟨mark, consumed, found.before, hmark, hprompted, ?_⟩
    rw [hw.log, output_append, hout, List.append_assoc, htext, hbuffer]
    simp

/-- A mark that is no prompt changes nothing. -/
theorem Going.skip (h : Going dialog sent seen talk) {index : Nat} {before : String}
    (hw : Conversation.Listened marks talk cues (.ok (.matched index before)) after more) :
    Going dialog sent seen after where
  toSafe := h.toSafe.wait hw
  handed := h.handed_wait hw
  delivered := h.delivered_wait hw
  prompted := by
    obtain ⟨mark, consumed, gap, _, hprompted, hout⟩ := h.consumed hw
    refine ⟨consumed ++ gap ++ mark.toList, hout, ?_⟩
    rw [List.append_assoc]
    exact hprompted.append_right

/-- A mark that is the next prompt is one more that was seen. -/
theorem Going.see (h : Going dialog sent seen talk) {index : Nat} {before prompt : String}
    (hw : Conversation.Listened marks talk cues (.ok (.matched index before)) after more)
    (hmark : marks[index]? = some prompt) (hprompt : dialog.prompts[seen]? = some prompt) :
    Going dialog sent (seen + 1) after where
  toSafe := h.toSafe.wait hw
  handed := h.handed_wait hw
  delivered := h.delivered_wait hw
  prompted := by
    obtain ⟨mark, consumed, gap, hm, hprompted, hout⟩ := h.consumed hw
    obtain rfl : prompt = mark := Option.some.inj (hmark.symm.trans hm)
    refine ⟨consumed ++ gap ++ prompt.toList, hout, ?_⟩
    rw [Prompted, List.take_add_one, hprompt, List.map_append]
    exact hprompted.concat gap

/-- A wait that comes to its deadline leaves everything in the buffer. -/
theorem Going.timedOut (h : Going dialog sent seen talk) {before : String}
    (hw : Conversation.Listened marks talk cues (.ok (.timedOut before)) after more) :
    Going dialog sent seen after where
  toSafe := h.toSafe.wait hw
  handed := h.handed_wait hw
  delivered := h.delivered_wait hw
  prompted := by
    obtain ⟨consumed, hout, hprompted⟩ := h.prompted
    cases hw.ending with
    | timedOut _ htext _ hbuffer =>
      refine ⟨consumed, ?_, hprompted⟩
      rw [hw.log, output_append, hout, List.append_assoc, hbuffer, htext]

/-- A wait that comes to the end of the output has seen the end. -/
theorem Going.ended (h : Going dialog sent seen talk) {before : String}
    (hw : Conversation.Listened marks talk cues (.ok (.ended before)) after more) :
    Log.delivered after.log = dialog.lines.take sent ∧ .ended ∈ after.log := by
  refine ⟨h.delivered_wait hw, ?_⟩
  cases hw.ending with
  | ended _ _ hmem _ _ => exact hw.log ▸ List.mem_append_right _ hmem

/-! ## What a line needs -/

/-- The next line of a dialog may be handed over as soon as its prompt was seen. -/
theorem Going.lawful_line (h : Going dialog sent (sent + 1) talk) {line : String}
    (hline : dialog.lines[sent]? = some line) :
    dialog.Lawful (talk.log ++ List.replicate talk.notices .touchRequired) (.sent line) := by
  have hlen : (dialog.lines.take sent).length = sent :=
    List.length_take_of_le (Nat.le_of_lt (List.getElem?_eq_some_iff.1 hline).1)
  obtain ⟨consumed, hout, hprompted⟩ := h.prompted
  rw [Lawful, handed_append, handed_notices, List.append_nil, h.handed, hlen,
    output_append, output_notices, List.append_nil, hout]
  exact ⟨hline, hprompted.append_right⟩

/-- Sending the next line either sends it, or fails and leaves a lawful log. -/
theorem Going.send (h : Going dialog sent (sent + 1) talk) {line : String}
    (hline : dialog.lines[sent]? = some line) :
    (talk.send line).1 = .ok () ∧ Going dialog (sent + 1) (sent + 1) (talk.send line).2 ∨
      (∃ failure, (talk.send line).1 = .error failure) ∧ Safe dialog (talk.send line).2 := by
  have htake : dialog.lines.take (sent + 1) = dialog.lines.take sent ++ [line] := by
    rw [List.take_add_one, hline]; rfl
  have hopen : ∀ event, event ≠ .closed →
      .closed ∉ talk.log ++ List.replicate talk.notices .touchRequired ++ [event] := by
    intro event hne hmem
    rcases List.mem_append.1 hmem with hmem | hmem
    · exact h.toSafe.closed_not_mem hmem
    · exact hne (List.mem_singleton.1 hmem).symm
  rcases talk.send_cases line with ⟨hres, hlog⟩ | ⟨hres, hlog⟩
  · refine .inl ⟨hres, ⟨?_, ?_, .inl (talk.notices_send line)⟩, ?_, ?_, ?_⟩
    · rw [hlog]
      exact h.toSafe.notices.concat (h.lawful_line hline)
    · rw [hlog]
      exact hopen _ (by simp)
    · rw [hlog, htake, ← h.handed]
      simp [Log.handed, Event.line?]
    · rw [hlog, htake, ← h.delivered]
      simp [Log.delivered, Event.sentLine?]
    · obtain ⟨consumed, hout, hprompted⟩ := h.prompted
      refine ⟨consumed, ?_, hprompted⟩
      rw [hlog, output_append, output_append, output_notices, hout, talk.buffer_send]
      simp [output, Event.text]
  · refine .inr ⟨⟨_, hres⟩, ?_, ?_, .inl (talk.notices_send line)⟩
    · rw [hlog]
      exact h.toSafe.notices.concat (h.lawful_line hline)
    · rw [hlog]
      exact hopen _ (by simp)

/-! ## What holds at a stage -/

/-- How many lines come before the new PIN. -/
def ahead (dialog : Dialog) : Nat :=
  dialog.current.toList.length

/-- No touch was noticed, and no notice is due. -/
def Untouched (talk : Conversation) : Prop :=
  talk.notices = 0 ∧ .touchRequired ∉ talk.log

/-- What holds at each stage of a dialog. At every wait for a prompt as many lines were sent as
prompts were seen. -/
def Inv (dialog : Dialog) (talk : Conversation) : Stage → Prop
  | .start => Going dialog 0 0 talk ∧ Untouched talk
  | .opening => dialog.current.isSome ∧ Going dialog 0 0 talk ∧ Untouched talk
  | .touched => dialog.current.isSome ∧ Going dialog 0 0 talk
  | .newPin => Going dialog dialog.ahead dialog.ahead talk
  | .confirm => Going dialog (dialog.ahead + 1) (dialog.ahead + 1) talk
  | .completion => Going dialog (dialog.ahead + 2) (dialog.ahead + 2) talk
  | .finished outcome => Safe dialog talk ∧
    (outcome = .success → Log.delivered talk.log = dialog.lines ∧ .ended ∈ talk.log)

/-- A step leads to a stage at which its invariant holds, or fails with a lawful log. -/
def Leads (dialog : Dialog) (result : Except Failure Stage × Conversation) : Prop :=
  match result with
  | (.ok stage, talk) => Inv dialog talk stage
  | (.error _, talk) => Safe dialog talk

theorem Inv.safe {stage : Stage} (h : Inv dialog talk stage) : Safe dialog talk := by
  cases stage with
  | start => exact h.1.toSafe
  | opening => exact h.2.1.toSafe
  | touched => exact h.2.toSafe
  | newPin => exact Going.toSafe h
  | confirm => exact Going.toSafe h
  | completion => exact Going.toSafe h
  | finished outcome => exact h.1

/-! ### The places of the lines and the prompts -/

theorem lines_ahead (dialog : Dialog) :
    dialog.lines[dialog.ahead]? = some dialog.newPin.pin.text := by
  cases h : dialog.current <;> simp [lines, ahead, h]

theorem lines_ahead_succ (dialog : Dialog) :
    dialog.lines[dialog.ahead + 1]? = some dialog.newPin.pin.text := by
  cases h : dialog.current <;> simp [lines, ahead, h]

theorem take_lines (dialog : Dialog) : dialog.lines.take (dialog.ahead + 2) = dialog.lines := by
  cases h : dialog.current <;> simp [lines, ahead, h]

theorem prompts_ahead (dialog : Dialog) : dialog.prompts[dialog.ahead]? = some newPinPrompt := by
  cases h : dialog.current <;> simp [prompts, ahead, h]

theorem prompts_ahead_succ (dialog : Dialog) :
    dialog.prompts[dialog.ahead + 1]? = some confirmPrompt := by
  cases h : dialog.current <;> simp [prompts, ahead, h]

/-! ### The outcomes that are no success -/

theorem ofError_ne_success (error : DeviceError) : PinOutcome.ofError error ≠ .success := by
  rw [PinOutcome.ofError]
  split <;> simp

theorem ofUnfinished_ne_success (output : String) : ofUnfinished output ≠ .success := by
  rw [ofUnfinished]
  split
  · exact ofError_ne_success _
  · simp

theorem ofEarlyExit_ne_success (output : String) : PinOutcome.ofEarlyExit output ≠ .success :=
  ofError_ne_success _

/-- A dialog whose last output has the mark of a refusal in it has not succeeded. -/
theorem ofCompletion_policyMark (before rest : String) :
    PinOutcome.ofCompletion (before ++ DeviceError.policyMark ++ rest) ≠ .success := by
  have hin : DeviceError.policyMark.toList <:+:
      (before ++ DeviceError.policyMark ++ rest).toList :=
    ⟨before.toList, rest.toList, by simp⟩
  obtain ⟨minLength, herror⟩ := DeviceError.classify?_of_policyMark hin
  rw [PinOutcome.ofCompletion, herror]
  exact ofError_ne_success _

/-! ## One step -/

theorem leads_sendThen (h : Going dialog sent (sent + 1) talk) {line : String} {next : Stage}
    (hline : dialog.lines[sent]? = some line)
    (hnext : ∀ talk, Going dialog (sent + 1) (sent + 1) talk → Inv dialog talk next) :
    Leads dialog (sendThen talk line next) := by
  rw [sendThen]
  rcases hsend : talk.send line with ⟨result, after⟩
  have hgo := h.send hline
  rw [hsend] at hgo
  rcases hgo with ⟨rfl, hgo⟩ | ⟨⟨failure, rfl⟩, hsafe⟩
  · exact hnext after hgo
  · exact hsafe

theorem leads_sendCurrentPin (hsome : dialog.current.isSome) (h : Going dialog 0 1 talk) :
    Leads dialog (dialog.sendCurrentPin talk) := by
  obtain ⟨pin, hpin⟩ := Option.isSome_iff_exists.1 hsome
  have hahead : dialog.ahead = 1 := by rw [ahead, hpin]; rfl
  have hline : dialog.lines[0]? = some pin.text := by rw [lines, hpin]; rfl
  rw [sendCurrentPin, hpin]
  refine leads_sendThen h hline fun talk hgo => ?_
  rw [Inv, hahead]
  exact hgo

/-- A wait that found no prompt ends the dialog, and not in success. -/
theorem leads_cutShort (h : Safe dialog talk) (wait : Wait) :
    Leads dialog (.ok (cutShort wait), talk) := by
  cases wait with
  | matched index before => exact ⟨h, fun hs => nomatch hs⟩
  | ended before => exact ⟨h, fun hs => absurd hs (ofEarlyExit_ne_success before)⟩
  | timedOut before => exact ⟨h, fun hs => nomatch hs⟩

/-- A prompt is waited for and answered. -/
theorem leads_answer (h : Going dialog sent seen talk) {prompt : String} {within : Nat}
    {reply : Conversation → Except Failure Stage × Conversation}
    (hprompt : dialog.prompts[seen]? = some prompt)
    (hreply : ∀ talk, Going dialog sent (seen + 1) talk → Leads dialog (reply talk)) :
    Leads dialog (answer talk prompt within reply) := by
  obtain ⟨more, hw⟩ := talk.expect_listened [prompt] within
  rw [answer]
  rcases hexpect : talk.expect [prompt] within with ⟨result, after⟩
  rw [hexpect] at hw
  have hsafe : Safe dialog after := h.toSafe.wait hw
  cases result with
  | error failure => exact hsafe
  | ok wait =>
    cases wait with
    | matched index before =>
      refine hreply after (h.see hw ?_ hprompt)
      -- There is only one mark to be found.
      obtain ⟨mark, _, _, hmark, _⟩ := h.consumed hw
      have hindex := (List.getElem?_eq_some_iff.1 hmark).1
      rw [List.length_singleton, Nat.lt_one_iff] at hindex
      rw [hindex]
      rfl
    | ended before => exact leads_cutShort hsafe _
    | timedOut before => exact leads_cutShort hsafe _

/-- The opening of a change: a touch is noticed, or the current PIN is sent. -/
theorem leads_opening (hsome : dialog.current.isSome) (h : Going dialog 0 0 talk)
    (untouched : Untouched talk) : Leads dialog (dialog.step .opening talk) := by
  obtain ⟨more, hw⟩ := talk.expect_listened openers dialog.timeouts.prompt
  rw [step]
  rcases hexpect : talk.expect openers dialog.timeouts.prompt with ⟨result, after⟩
  rw [hexpect] at hw
  have hsafe : Safe dialog after := h.toSafe.wait hw
  cases result with
  | error failure => exact hsafe
  | ok wait =>
    cases wait with
    | matched index before =>
      dsimp only
      split_ifs with htouch hobserved
      · -- The first notice, and nothing was handed over yet.
        have hskip := h.skip hw
        refine ⟨hsome, { hskip with due := .inr ⟨?_, hsome, hskip.handed, ?_⟩ }⟩
        · show after.notices + 1 = 1
          rw [hw.notices, untouched.1]
        · show .touchRequired ∉ after.log
          intro hmem
          rw [hw.log] at hmem
          rcases List.mem_append.1 hmem with hmem | hmem
          · exact untouched.2 hmem
          · cases hw.ofWait _ hmem
      · exact ⟨hsome, h.skip hw⟩
      · obtain ⟨mark, _, _, hmark, _⟩ := h.consumed hw
        have hindex : index = touchMarks.length := by
          have := (List.getElem?_eq_some_iff.1 hmark).1
          rw [openers, List.length_append, List.length_singleton] at this
          omega
        have hprompt : openers[index]? = some currentPinPrompt := by rw [hindex]; rfl
        refine leads_sendCurrentPin hsome (h.see hw hprompt ?_)
        obtain ⟨pin, hpin⟩ := Option.isSome_iff_exists.1 hsome
        rw [prompts, hpin]; rfl
    | ended before => exact leads_cutShort hsafe _
    | timedOut before => exact leads_cutShort hsafe _

/-- A dialog that has sent its first `sent` lines ends lawfully, and in success only if the output
has ended. -/
def Completes (dialog : Dialog) (sent : Nat)
    (result : Except Failure PinOutcome × Conversation) : Prop :=
  Safe dialog result.2 ∧
    (result.1 = .ok .success →
      Log.delivered result.2.log = dialog.lines.take sent ∧ .ended ∈ result.2.log)

theorem completes_of_ne {outcome : PinOutcome} (h : Safe dialog talk)
    (hne : outcome ≠ .success) : Completes dialog sent (.ok outcome, talk) :=
  ⟨h, fun hs => absurd (Except.ok.inj hs) hne⟩

theorem completes_error {failure : Failure} (h : Safe dialog talk) :
    Completes dialog sent (.error failure, talk) :=
  ⟨h, fun hs => nomatch hs⟩

/-- After the mark of a refusal, whatever else is printed is added to it. -/
theorem completes_refused (h : Safe dialog talk) (before : String) (within : Nat) :
    Completes dialog sent
      (match talk.expectEnd within with
        | (.ok rest, talk) =>
          (.ok (.ofCompletion (before ++ DeviceError.policyMark ++ textOf rest)), talk)
        | (.error failure, talk) => (.error failure, talk)) := by
  obtain ⟨more, hw⟩ := talk.expect_listened [] within
  rw [← Conversation.expectEnd] at hw
  rcases hend : talk.expectEnd within with ⟨result, last⟩
  rw [hend] at hw
  cases result with
  | error failure => exact completes_error (h.wait hw)
  | ok wait => exact completes_of_ne (h.wait hw) (ofCompletion_policyMark before (textOf wait))

/-- Without one, the end of the output is waited for once more. -/
theorem completes_unrefused (h : Going dialog sent seen talk) (within : Nat) :
    Completes dialog sent
      (match talk.expectEnd within with
        | (.ok (.ended before), talk) => (.ok (.ofCompletion before), talk)
        | (.ok wait, talk) => (.ok (ofUnfinished (textOf wait)), talk)
        | (.error failure, talk) => (.error failure, talk)) := by
  obtain ⟨more, hw⟩ := talk.expect_listened [] within
  rw [← Conversation.expectEnd] at hw
  rcases hend : talk.expectEnd within with ⟨result, last⟩
  rw [hend] at hw
  have hsafe : Safe dialog last := h.toSafe.wait hw
  cases result with
  | error failure => exact completes_error hsafe
  | ok wait =>
    cases wait with
    | ended before => exact ⟨hsafe, fun _ => h.ended hw⟩
    | matched index before => exact completes_of_ne hsafe (ofUnfinished_ne_success before)
    | timedOut before => exact completes_of_ne hsafe (ofUnfinished_ne_success before)

/-- Only the end of the output, without an error before it, makes a dialog succeed. -/
theorem completes_complete (h : Going dialog sent seen talk) :
    Completes dialog sent (dialog.complete talk) := by
  obtain ⟨more, hw⟩ := talk.expect_listened [DeviceError.policyMark] dialog.timeouts.policyProbe
  rw [complete]
  rcases hprobe : talk.expect [DeviceError.policyMark] dialog.timeouts.policyProbe
    with ⟨result, after⟩
  rw [hprobe] at hw
  have hsafe : Safe dialog after := h.toSafe.wait hw
  cases result with
  | error failure => exact completes_error hsafe
  | ok wait =>
    cases wait with
    | ended before => exact ⟨hsafe, fun _ => h.ended hw⟩
    | matched index before => exact completes_refused hsafe before _
    | timedOut before => exact completes_unrefused (h.timedOut hw) _

/-- **One step keeps the invariant.** -/
theorem step_inv {stage : Stage} (h : Inv dialog talk stage) :
    Leads dialog (dialog.step stage talk) := by
  cases stage with
  | start =>
    rw [step]
    split_ifs with hsome
    · exact ⟨hsome, h⟩
    · have hahead : dialog.ahead = 0 := by
        rw [ahead, Option.not_isSome_iff_eq_none.1 hsome]; rfl
      show Going dialog dialog.ahead dialog.ahead talk
      rw [hahead]
      exact h.1
  | opening => exact leads_opening h.1 h.2.1 h.2.2
  | touched =>
    rw [step]
    refine leads_answer h.2 ?_ fun talk hgo => leads_sendCurrentPin h.1 hgo
    obtain ⟨pin, hpin⟩ := Option.isSome_iff_exists.1 h.1
    rw [prompts, hpin]; rfl
  | newPin =>
    rw [step]
    refine leads_answer h dialog.prompts_ahead fun talk hgo => ?_
    exact leads_sendThen hgo dialog.lines_ahead fun _ h => h
  | confirm =>
    rw [step]
    refine leads_answer h dialog.prompts_ahead_succ fun talk hgo => ?_
    exact leads_sendThen hgo dialog.lines_ahead_succ fun _ h => h
  | completion =>
    obtain ⟨hsafe, hsuccess⟩ := completes_complete h
    rw [take_lines] at hsuccess
    rw [step]
    rcases hcomplete : dialog.complete talk with ⟨result, after⟩
    rw [hcomplete] at hsafe hsuccess
    cases result with
    | error failure => exact hsafe
    | ok outcome => exact ⟨hsafe, fun hs => hsuccess (by rw [hs])⟩
  | finished outcome => exact h

/-! ## Whole dialogs -/

/-- **A dialog from any stage** ends by closing a conversation that was lawful up to there, and it
succeeds only where all lines were sent and the output has ended. -/
theorem advance_safe (fuel : Nat) {stage : Stage} (h : Inv dialog talk stage) :
    ∃ last, (dialog.advance fuel stage talk).2 = last.close ∧ Safe dialog last ∧
      ((dialog.advance fuel stage talk).1 = .ok .success →
        Log.delivered last.log = dialog.lines ∧ .ended ∈ last.log) := by
  -- The invariant carries over from stage to stage, wherever the steps stop.
  induction fuel generalizing stage talk with
  | zero =>
    cases stage with
    | finished outcome =>
      exact ⟨talk, rfl, h.1, fun hs => h.2 (Except.ok.inj hs)⟩
    | _ => exact ⟨talk, rfl, h.safe, fun hs => nomatch hs⟩
  | succ fuel ih =>
    have hleads := step_inv h
    rw [advance_succ]
    rcases hstep : dialog.step stage talk with ⟨result, after⟩
    rw [hstep] at hleads
    cases result with
    | ok next => exact ih hleads
    | error failure => exact ⟨after, rfl, hleads, fun hs => nomatch hs⟩

/-- What a dialog keeps to, by its result and its log. -/
structure Disciplined (dialog : Dialog) (result : Except Failure PinOutcome) (log : List Event) :
    Prop where
  /-- The lines that were handed over are the first of the dialog's. -/
  lines : Log.handed log <+: dialog.lines
  /-- Each was handed over after its own prompt and all prompts before it had been read. -/
  prompted : ∀ before event after line, log = before ++ event :: after →
    event.line? = some line → dialog.Prompted ((Log.handed before).length + 1) (output before)
  touch_once : log.count .touchRequired ≤ 1
  touch_change : dialog.current = none → .touchRequired ∉ log
  touch_first : ∀ before after, log = before ++ .touchRequired :: after → Log.handed before = []
  /-- The conversation is closed once, and nothing happens in it afterwards. -/
  closed_last : ∃ before, log = before ++ [.closed] ∧ .closed ∉ before
  success : result = .ok .success → Log.delivered log = dialog.lines ∧ .ended ∈ log

/-- A new conversation stands at the start. -/
theorem inv_begin (dialog : Dialog) (script : Script) : Inv dialog (.begin script) .start :=
  ⟨⟨⟨.nil, List.not_mem_nil, .inl rfl⟩, rfl, rfl, [], rfl, trivial⟩, rfl, List.not_mem_nil⟩

/-- Every dialog goes through with a tool that asks for everything in order and then ends. -/
theorem run_prompts (dialog : Dialog) :
    (dialog.run ⟨dialog.prompts.map .emit, none⟩).1 = .ok .success := by
  have hset : readNewPin ([newPinPrompt, confirmPrompt].flatMap String.toList) = .success := by
    decide
  have hchange : readOpening
      ([currentPinPrompt, newPinPrompt, confirmPrompt].flatMap String.toList) = .success := by
    decide
  rw [run_pieces, reading, prompts]
  cases dialog.current with
  | none => exact congrArg Except.ok hset
  | some pin =>
    rw [if_pos Option.isSome_some]
    exact congrArg Except.ok hchange

/-- The log of a dialog is lawful up to its end, and there the conversation is closed. -/
theorem disciplined_run (dialog : Dialog) (script : Script) :
    Disciplined dialog (dialog.run script).1 (dialog.run script).2.log := by
  obtain ⟨last, hclose, hsafe, hsuccess⟩ := advance_safe maxSteps (inv_begin dialog script)
  set notices : List Event := List.replicate last.notices .touchRequired with hnotices
  have hlog : (dialog.run script).2.log = last.log ++ notices ++ [.closed] := by
    rw [run, hclose, Conversation.log_close]
  have hlawful : Throughout dialog.Lawful (dialog.run script).2.log := by
    rw [hlog]
    exact hsafe.notices.concat trivial
  refine ⟨handed_prefix_lines hlawful, ?_, count_touch_le_one hlawful, ?_, ?_, ?_, ?_⟩
  · intro before event after line hsplit hline
    have hlaw := hlawful.at_split hsplit
    cases event with
    | sent other => exact hlaw.2
    | unsent other => exact hlaw.2
    | _ => cases hline
  · intro hnone hmem
    obtain ⟨before, after, hsplit⟩ := List.append_of_mem hmem
    have hlaw := hlawful.at_split hsplit
    rw [Lawful, hnone] at hlaw
    cases hlaw.1
  · intro before after hsplit
    exact (hlawful.at_split hsplit).2.1
  · exact ⟨_, hlog, hsafe.closed_not_mem⟩
  · intro hs
    obtain ⟨hdelivered, hended⟩ := hsuccess hs
    rw [hlog, delivered_append, delivered_append, hnotices, delivered_notices, hdelivered]
    refine ⟨?_, by simp [hended]⟩
    rw [List.append_nil]
    exact List.append_nil _

/-- **The discipline of PIN dialogs.** Whatever the tool prints, wherever it stops, and wherever
the connection breaks: the lines go out in order, each after its prompt; the notice of a touch
comes once, in a change, and before any line; the conversation is closed once and last; and
success means that all was sent and the output has ended. A tool that asks for everything in order
and then ends is answered to the end. -/
theorem run_disciplined (dialog : Dialog) :
    (∀ script, Disciplined dialog (dialog.run script).1 (dialog.run script).2.log) ∧
      (dialog.run ⟨dialog.prompts.map .emit, none⟩).1 = .ok .success :=
  ⟨dialog.disciplined_run, dialog.run_prompts⟩

end Dialog

end SecurityKey
