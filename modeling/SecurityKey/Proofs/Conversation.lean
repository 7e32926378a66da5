import Mathlib.Tactic.Common
import SecurityKey.Conversation
import SecurityKey.Proofs.Text.Search
/-!
# What happens in a conversation

A conversation's log is the list of its events without their times. It says which lines were
handed over to be sent (`handed`), which of them were sent (`delivered`), and what was read
(`output`).

**Waiting.** `Listening` is the course of a wait, cue by cue, and every wait takes one
(`listening`). `Listened` is all that a wait does, whatever the tool does in it. The log grows by
what was read and by nothing else, and no text is lost: the text that was buffered and the text
that was read are together what the wait found, consumed or left in the buffer
(`expect_listened`).

**Pieces.** A wait that neither comes to its deadline nor loses the connection does as if the whole
text were there already (`Listened.waited`).

**Sending and closing.** Both first deliver the notices that are due. They are described by what
they add to the log (`send_cases`, `log_close`).
-/

namespace SecurityKey

open Text

/-! ## Logs -/

namespace Event

/-- The line of an event that hands one over, whether or not it could be sent. -/
def line? : Event → Option String
  | .sent line | .unsent line => some line
  | _ => none

/-- The line of an event that sends one. -/
def sentLine? : Event → Option String
  | .sent line => some line
  | _ => none

/-- The text that an event reads. -/
def text : Event → List Char
  | .read chunk => chunk.toList
  | _ => []

/-- Whether an event stands in the way of a conversation: a wait that came to its deadline, or a
connection that broke. -/
def disturbing : Event → Bool
  | .silent | .readFailed _ | .unsent _ => true
  | _ => false

/-- Whether an event belongs to a wait for output. -/
def ofWait : Event → Bool
  | .read _ | .ended | .readFailed _ | .silent | .waited _ => true
  | .sent _ | .unsent _ | .closed | .touchRequired => false

end Event

namespace Log

/-- The lines that were handed over to be sent. -/
def handed (log : List Event) : List String :=
  log.filterMap Event.line?

/-- The lines that were sent. -/
def delivered (log : List Event) : List String :=
  log.filterMap Event.sentLine?

/-- The text that was read. -/
def output (log : List Event) : List Char :=
  log.flatMap Event.text

/-- Nothing stood in the way: no wait came to its deadline, and the connection held. -/
def Undisturbed (log : List Event) : Prop :=
  ∀ event ∈ log, ¬ event.disturbing

variable {log more : List Event}

theorem undisturbed_append : Undisturbed (log ++ more) ↔ Undisturbed log ∧ Undisturbed more := by
  simp only [Undisturbed, List.forall_mem_append]

@[simp] theorem handed_append : handed (log ++ more) = handed log ++ handed more :=
  List.filterMap_append

@[simp] theorem delivered_append : delivered (log ++ more) = delivered log ++ delivered more :=
  List.filterMap_append

@[simp] theorem output_append : output (log ++ more) = output log ++ output more :=
  List.flatMap_append

theorem handed_of_ofWait (h : ∀ event ∈ more, event.ofWait) : handed more = [] := by
  refine List.filterMap_eq_nil_iff.2 fun event he => ?_
  have := h event he
  cases event <;> first | rfl | cases this

/-- What was sent was handed over before. -/
theorem delivered_sublist (log : List Event) : (delivered log).Sublist (handed log) := by
  induction log with
  | nil => exact List.Sublist.slnil
  | cons event log ih =>
    cases event with
    | sent line => exact ih.cons_cons line
    | unsent line => exact ih.cons line
    | _ => exact ih

theorem delivered_of_ofWait (h : ∀ event ∈ more, event.ofWait) : delivered more = [] :=
  List.sublist_nil.1 (handed_of_ofWait h ▸ delivered_sublist more)

/-- Notices of a touch hand over no line. -/
@[simp] theorem handed_notices (n : Nat) : handed (List.replicate n .touchRequired) = [] :=
  List.filterMap_replicate_of_none rfl

@[simp] theorem delivered_notices (n : Nat) : delivered (List.replicate n .touchRequired) = [] :=
  List.sublist_nil.1 (handed_notices n ▸ delivered_sublist _)

@[simp] theorem output_notices (n : Nat) : output (List.replicate n .touchRequired) = [] := by
  rw [output, List.flatMap_replicate]
  exact List.flatten_replicate_nil

end Log

namespace Conversation

/-- What has happened, without the times. -/
def log (talk : Conversation) : List Event :=
  talk.events.map Prod.snd

@[simp] theorem log_record (talk : Conversation) (event : Event) :
    (talk.record event).log = talk.log ++ [event] := by
  simp [log, record]

/-! ## The course of a wait -/

/-- The course of a wait: cues are played one after the other until a mark is in the buffer, the
output ends, the deadline comes or the connection breaks. -/
inductive Listening (marks : List String) (deadline : Nat) : Nat → Conversation →
    List (Cue String) → Except Failure Wait × Conversation → Prop
  | found {since : Nat} {talk : Conversation} {cues : List (Cue String)} {found : Found} :
      find? marks talk.buffer = some found →
      Listening marks deadline since talk cues (talk.consume cues found)
  | ended {since : Nat} {talk : Conversation} : find? marks talk.buffer = none →
      Listening marks deadline since talk []
        (.ok (.ended talk.buffer), { talk with cues := [], buffer := "" }.record .ended)
  | emit {since : Nat} {talk : Conversation} {cues : List (Cue String)}
      {ending : Except Failure Wait × Conversation} (chunk : String) :
      find? marks talk.buffer = none →
      Listening marks deadline talk.clock
        ({ talk with buffer := talk.buffer ++ chunk }.record (.read chunk)) cues ending →
      Listening marks deadline since talk (.emit chunk :: cues) ending
  | delay {since : Nat} {talk : Conversation} {cues : List (Cue String)}
      {ending : Except Failure Wait × Conversation} (ms : Nat) :
      find? marks talk.buffer = none → talk.clock + ms ≤ deadline →
      Listening marks deadline since (talk.pass
        (if talk.clock + ms = deadline then since else talk.clock) (talk.clock + ms)) cues ending →
      Listening marks deadline since talk (.delay ms :: cues) ending
  /-- A silence that is longer than the wait. -/
  | late {since : Nat} {talk : Conversation} {cues : List (Cue String)} (ms : Nat) :
      find? marks talk.buffer = none → deadline < talk.clock + ms →
      Listening marks deadline since talk (.delay ms :: cues)
        (talk.giveUp (.delay (talk.clock + ms - deadline) :: cues) since deadline)
  | heard {since : Nat} {talk : Conversation} {cues : List (Cue String)}
      {ending : Except Failure Wait × Conversation} {line : String} {outbox : List String} :
      find? marks talk.buffer = none → talk.outbox = line :: outbox →
      Listening marks deadline since { talk with outbox, heard := talk.heard ++ [line] } cues
        ending →
      Listening marks deadline since talk (.awaitLine :: cues) ending
  /-- The tool waits for a line that was not sent. -/
  | unheard {since : Nat} {talk : Conversation} {cues : List (Cue String)} :
      find? marks talk.buffer = none → talk.outbox = [] →
      Listening marks deadline since talk (.awaitLine :: cues)
        (talk.giveUp (.awaitLine :: cues) since deadline)
  | hang {since : Nat} {talk : Conversation} {cues : List (Cue String)} :
      find? marks talk.buffer = none →
      Listening marks deadline since talk (.hang :: cues)
        (talk.giveUp (.hang :: cues) since deadline)
  | failed {since : Nat} {talk : Conversation} {cues : List (Cue String)} (reason : String) :
      find? marks talk.buffer = none →
      Listening marks deadline since talk (.readError reason :: cues)
        (.error (.inputOutput reason), { talk with cues }.record (.readFailed reason))

variable {marks : List String} {talk after : Conversation} {cues : List (Cue String)}
  {deadline since : Nat} {ending : Except Failure Wait × Conversation}

/-- A wait takes its course. -/
theorem listening (marks : List String) (deadline since : Nat) (talk : Conversation)
    (cues : List (Cue String)) :
    Listening marks deadline since talk cues (listen marks deadline since talk cues) := by
  induction cues generalizing since talk with
  | nil =>
    rw [listen]
    cases hfind : find? marks talk.buffer with
    | some found => exact .found hfind
    | none => exact .ended hfind
  | cons cue cues ih =>
    rw [listen.eq_def]
    dsimp only
    cases hfind : find? marks talk.buffer with
    | some found => exact .found hfind
    | none =>
      cases cue with
      | emit chunk => exact .emit chunk hfind (ih _ _)
      | delay ms =>
        dsimp only
        by_cases hdue : talk.clock + ms ≤ deadline
        · rw [if_pos hdue]
          exact .delay ms hfind hdue (ih _ _)
        · rw [if_neg hdue]
          exact .late ms hfind (Nat.lt_of_not_le hdue)
      | awaitLine =>
        cases hbox : talk.outbox with
        | nil => exact .unheard hfind hbox
        | cons line outbox => exact .heard hfind hbox (ih _ _)
      | hang => exact .hang hfind
      | readError reason => exact .failed reason hfind

/-! ## Waiting -/

/-- The text that cues emit. -/
def textOf (cues : List (Cue String)) : List Char :=
  cues.flatMap fun
    | .emit chunk => chunk.toList
    | _ => []

/-- How a wait for marks can end that has seen a text, with `more` in its log. -/
inductive WaitEnd (marks : List String) (text : List Char) (more : List Event)
    (after : Conversation) : Except Failure Wait → Prop
  | matched {before : String} (found : Found) :
      earliest? (marks.map String.toList) text = some found → before.toList = found.before →
      after.buffer.toList = found.after →
      WaitEnd marks text more after (.ok (.matched found.index before))
  | ended {before : String} :
      earliest? (marks.map String.toList) text = none → before.toList = text →
      .ended ∈ more → after.buffer = "" → after.cues = [] →
      WaitEnd marks text more after (.ok (.ended before))
  | timedOut {before : String} :
      earliest? (marks.map String.toList) text = none → before.toList = text →
      .silent ∈ more → after.buffer = before →
      WaitEnd marks text more after (.ok (.timedOut before))
  | failed (reason : String) : .readFailed reason ∈ more →
      WaitEnd marks text more after (.error (.inputOutput reason))

/-- What a wait for marks does while it plays cues: it ends as `result`, leaves `after` behind and
adds `more` to the log. -/
structure Listened (marks : List String) (talk : Conversation) (cues : List (Cue String))
    (result : Except Failure Wait) (after : Conversation) (more : List Event) : Prop where
  log : after.log = talk.log ++ more
  ofWait : ∀ event ∈ more, event.ofWait
  notices : after.notices = talk.notices
  attempts : after.attempts = talk.attempts
  sendFailsAt : after.sendFailsAt = talk.sendFailsAt
  text : textOf cues = Log.output more ++ textOf after.cues
  ended : .ended ∈ more → ∃ before, result = .ok (.ended before)
  ending : WaitEnd marks (talk.buffer.toList ++ Log.output more) more after result

variable {result : Except Failure Wait} {more : List Event}

theorem WaitEnd.mono {text : List Char} (first : List Event)
    (h : WaitEnd marks text more after result) :
    WaitEnd marks text (first ++ more) after result := by
  cases h with
  | matched found hf hb ha => exact .matched found hf hb ha
  | ended hn hb hm ha hc => exact .ended hn hb (List.mem_append_right first hm) ha hc
  | timedOut hn hb hm ha => exact .timedOut hn hb (List.mem_append_right first hm) ha
  | failed reason hm => exact .failed reason (List.mem_append_right first hm)

/-- A wait that plays one cue and then goes on. -/
theorem Listened.cons {begun : Conversation} {cue : Cue String} {first : List Event}
    (h : Listened marks begun cues result after more)
    (log : begun.log = talk.log ++ first) (ofWait : ∀ event ∈ first, event.ofWait)
    (unended : .ended ∉ first) (notices : begun.notices = talk.notices)
    (attempts : begun.attempts = talk.attempts) (sendFailsAt : begun.sendFailsAt = talk.sendFailsAt)
    (text : textOf [cue] = Log.output first)
    (buffer : begun.buffer.toList = talk.buffer.toList ++ Log.output first) :
    Listened marks talk (cue :: cues) result after (first ++ more) where
  log := by rw [h.log, log, List.append_assoc]
  ofWait := fun event he => (List.mem_append.1 he).elim (ofWait event) (h.ofWait event)
  notices := h.notices.trans notices
  attempts := h.attempts.trans attempts
  sendFailsAt := h.sendFailsAt.trans sendFailsAt
  text := by
    have hcons : textOf (cue :: cues) = textOf [cue] ++ textOf cues := by simp [textOf]
    rw [hcons, text, h.text, Log.output_append, List.append_assoc]
  ended := fun he => h.ended ((List.mem_append.1 he).resolve_left unended)
  ending := by
    have := h.ending
    rw [buffer, List.append_assoc, ← Log.output_append] at this
    exact this.mono first

/-- The time that passes in a wait is noted, or no time passes. -/
theorem log_pass (talk : Conversation) (since time : Nat) :
    ∃ first, (talk.pass since time).log = talk.log ++ first ∧
      (∀ event ∈ first, event.ofWait) ∧ .ended ∉ first ∧ Log.output first = [] := by
  unfold pass
  split_ifs
  · exact ⟨[.waited since], by rw [log_record]; rfl, by simp [Event.ofWait], by simp, rfl⟩
  · exact ⟨[], by simp, by simp, by simp, rfl⟩

@[simp] theorem notices_pass (since time : Nat) :
    (talk.pass since time).notices = talk.notices := by
  unfold pass; split_ifs <;> rfl

@[simp] theorem attempts_pass (since time : Nat) :
    (talk.pass since time).attempts = talk.attempts := by
  unfold pass; split_ifs <;> rfl

@[simp] theorem sendFailsAt_pass (since time : Nat) :
    (talk.pass since time).sendFailsAt = talk.sendFailsAt := by
  unfold pass; split_ifs <;> rfl

@[simp] theorem outbox_pass (since time : Nat) : (talk.pass since time).outbox = talk.outbox := by
  unfold pass; split_ifs <;> rfl

@[simp] theorem buffer_pass (since time : Nat) : (talk.pass since time).buffer = talk.buffer := by
  unfold pass; split_ifs <;> rfl

theorem listened_consume (cues : List (Cue String)) {found : Found}
    (h : find? marks talk.buffer = some found) :
    Listened marks talk cues (talk.consume cues found).1 (talk.consume cues found).2 [] where
  log := by simp [consume, log]
  ofWait := by simp
  notices := rfl
  attempts := rfl
  sendFailsAt := rfl
  text := rfl
  ended := by simp
  ending := by
    have hf : earliest? (marks.map String.toList) (talk.buffer.toList ++ []) = some found := by
      rw [List.append_nil]; exact h
    exact .matched found hf String.toList_ofList String.toList_ofList

theorem listened_giveUp (since deadline : Nat) {rest : List (Cue String)}
    (hcues : textOf cues = textOf rest) (h : find? marks talk.buffer = none) :
    ∃ more, Listened marks talk cues (talk.giveUp rest since deadline).1
      (talk.giveUp rest since deadline).2 more := by
  obtain ⟨first, hlog, hwait, hunended, hout⟩ := talk.log_pass since deadline
  have houtput : Log.output (first ++ [.silent]) = [] := by
    rw [Log.output_append, hout]; rfl
  refine ⟨first ++ [.silent], ?_, ?_, ?_, ?_, ?_, ?_, ?_, ?_⟩
  · show ((talk.pass since deadline).record .silent).log = _
    rw [log_record, hlog, List.append_assoc]
  · intro event he
    rcases List.mem_append.1 he with he | he
    · exact hwait event he
    · rw [List.mem_singleton.1 he]; rfl
  · exact talk.notices_pass since deadline
  · exact talk.attempts_pass since deadline
  · exact talk.sendFailsAt_pass since deadline
  · rw [houtput, hcues]; rfl
  · intro he
    exact absurd he (by simpa using hunended)
  · have hn : earliest? (marks.map String.toList) talk.buffer.toList = none := h
    rw [houtput, List.append_nil]
    exact .timedOut hn rfl (by simp) (talk.buffer_pass since deadline)

/-- **What a wait does**, whatever cues it plays. -/
theorem Listening.listened (h : Listening marks deadline since talk cues ending) :
    ∃ more, Listened marks talk cues ending.1 ending.2 more := by
  -- Along the course: what was played before is in the log and the buffer of the conversation.
  induction h with
  | found hfind => exact ⟨[], listened_consume _ hfind⟩
  | @ended since talk hfind =>
    refine ⟨[.ended], by rw [log_record]; rfl, by simp [Event.ofWait], rfl, rfl, rfl, rfl,
      fun _ => ⟨_, rfl⟩, ?_⟩
    have hn : earliest? (marks.map String.toList) (talk.buffer.toList ++ []) = none := by
      rw [List.append_nil]; exact hfind
    exact .ended hn (by simp [Log.output, Event.text]) (by simp) rfl rfl
  | @emit since talk cues ending chunk _ _ ih =>
    obtain ⟨more, hmore⟩ := ih
    refine ⟨[.read chunk] ++ more, hmore.cons (log_record _ _) (by simp [Event.ofWait]) (by simp)
      rfl rfl rfl ?_ ?_⟩
    · simp [textOf, Log.output, Event.text]
    · simp [record, Log.output, Event.text]
  | @delay since talk cues ending ms _ _ _ ih =>
    obtain ⟨more, hmore⟩ := ih
    obtain ⟨first, hlog, hwait, hended, hout⟩ := talk.log_pass
      (if talk.clock + ms = deadline then since else talk.clock) (talk.clock + ms)
    refine ⟨first ++ more, hmore.cons hlog hwait hended (by simp) (by simp) (by simp) ?_ ?_⟩
    · rw [hout]; rfl
    · rw [hout]; simp
  | late ms hfind _ => exact listened_giveUp _ deadline rfl hfind
  | @heard since talk cues ending line outbox _ _ _ ih =>
    obtain ⟨more, hmore⟩ := ih
    refine ⟨[] ++ more, hmore.cons ?_ (by simp) (by simp) rfl rfl rfl rfl ?_⟩
    · simp [log]
    · simp [Log.output]
  | unheard hfind _ => exact listened_giveUp _ deadline rfl hfind
  | hang hfind => exact listened_giveUp _ deadline rfl hfind
  | failed reason _ =>
    refine ⟨[.readFailed reason], ?_, by simp [Event.ofWait], rfl, rfl, rfl, rfl, by simp, ?_⟩
    · rw [log_record]; rfl
    · exact .failed reason (by simp)

/-- What a wait does, from the cues that are still to be played. -/
theorem expect_listened (talk : Conversation) (marks : List String) (within : Nat) :
    ∃ more, Listened marks talk talk.cues (talk.expect marks within).1
      (talk.expect marks within).2 more :=
  (listening ..).listened

/-! ## Waiting for a text -/

/-- All of the text that is not yet consumed: what is in the buffer, and what is still to come. -/
def rest (talk : Conversation) : List Char :=
  talk.buffer.toList ++ textOf talk.cues

/-- How a wait for marks can end, by all of the text that is not yet consumed. A mark that is found
is the first in this text, and an output that ends was this text. A wait that comes to its deadline
consumes nothing. -/
inductive Waited (marks : List String) (talk after : Conversation) : Except Failure Wait → Prop
  | matched {before : String} (found : Found) :
      earliest? (marks.map String.toList) talk.rest = some found → before.toList = found.before →
      after.rest = found.after → .ended ∉ after.log →
      Waited marks talk after (.ok (.matched found.index before))
  | ended {before : String} :
      earliest? (marks.map String.toList) talk.rest = none → before.toList = talk.rest →
      .ended ∈ after.log → Waited marks talk after (.ok (.ended before))
  | timedOut {before : String} :
      after.rest = talk.rest → .ended ∉ after.log → ¬ Log.Undisturbed after.log →
      Waited marks talk after (.ok (.timedOut before))
  | failed (failure : Failure) :
      .ended ∉ after.log → ¬ Log.Undisturbed after.log → Waited marks talk after (.error failure)

/-- A mark that was found in what had come is the first in all of the text. -/
theorem Listened.matched {index : Nat} {before : String} (apart : Apart (marks.map String.toList))
    (hw : Listened marks talk talk.cues (.ok (.matched index before)) after more) :
    earliest? (marks.map String.toList) talk.rest = some ⟨index, before.toList, after.rest⟩ := by
  cases hw.ending with
  | matched found hfound hbefore hafter =>
    have hall := earliest?_append (t := textOf after.cues) apart hfound
    rw [List.append_assoc, ← hw.text, ← hafter, ← hbefore] at hall
    exact hall

/-- An output that ended without a mark was all of the text. -/
theorem Listened.unmatched {before : String}
    (hw : Listened marks talk talk.cues (.ok (.ended before)) after more) :
    earliest? (marks.map String.toList) talk.rest = none ∧ before.toList = talk.rest ∧
      after.rest = [] := by
  cases hw.ending with
  | ended hnone hbefore _ hbuffer hcues =>
    have hall : talk.rest = talk.buffer.toList ++ Log.output more := by
      rw [rest, hw.text, hcues]
      exact congrArg _ (List.append_nil _)
    rw [← hall] at hnone hbefore
    refine ⟨hnone, hbefore, ?_⟩
    rw [rest, hbuffer, hcues]
    rfl

/-- **A wait does as if the whole text were there already**, unless it comes to its deadline or the
connection breaks. How the text comes in pieces makes no difference. -/
theorem Listened.waited (apart : Apart (marks.map String.toList))
    (hw : Listened marks talk talk.cues result after more) (h : .ended ∉ talk.log) :
    Waited marks talk after result := by
  have hmem : ∀ event ∈ more, event ∈ after.log := fun event he =>
    hw.log ▸ List.mem_append_right talk.log he
  have hunended : (∀ before, result ≠ .ok (.ended before)) → .ended ∉ after.log := by
    intro hne he
    rw [hw.log] at he
    obtain ⟨before, hbefore⟩ := hw.ended ((List.mem_append.1 he).resolve_left h)
    exact hne before hbefore
  cases hw.ending with
  | @matched before found =>
    exact .matched ⟨found.index, before.toList, after.rest⟩ (hw.matched apart) rfl rfl
      (hunended (by simp))
  | ended _ _ hended _ _ =>
    obtain ⟨hnone, hbefore, _⟩ := hw.unmatched
    exact .ended hnone hbefore (hmem _ hended)
  | timedOut hnone hbefore hsilent hbuffer =>
    refine .timedOut ?_ (hunended (by simp)) fun hu => hu _ (hmem _ hsilent) rfl
    rw [rest, rest, hw.text, hbuffer, hbefore, List.append_assoc]
  | failed reason hfailed =>
    exact .failed _ (hunended (by simp)) fun hu => hu _ (hmem _ hfailed) rfl

theorem expect_waited (apart : Apart (marks.map String.toList)) {within : Nat}
    (hexpect : talk.expect marks within = (result, after)) (h : .ended ∉ talk.log) :
    Waited marks talk after result := by
  obtain ⟨more, hw⟩ := talk.expect_listened marks within
  rw [hexpect] at hw
  exact hw.waited apart h

/-- A wait sees the end of the output exactly if it ends with it. -/
theorem Waited.ended_iff (h : Waited marks talk after result) :
    .ended ∈ after.log ↔ ∃ before, result = .ok (.ended before) := by
  cases h with
  | ended _ _ hended => exact iff_of_true hended ⟨_, rfl⟩
  | matched _ _ _ _ hunended => simp [hunended]
  | timedOut _ hunended _ => simp [hunended]
  | failed _ hunended _ => simp [hunended]

/-- A wait for one mark. -/
theorem expect_one_waited {mark : String} {within : Nat}
    (hexpect : talk.expect [mark] within = (result, after)) (h : .ended ∉ talk.log) :
    Waited [mark] talk after result :=
  expect_waited (apart_singleton mark.toList) hexpect h

/-- A wait for the end of the output finds no mark. -/
theorem expectEnd_waited {within : Nat}
    (hexpect : talk.expectEnd within = (result, after)) (h : .ended ∉ talk.log) :
    Waited [] talk after result :=
  expect_waited (fun _ hp => nomatch hp) hexpect h

theorem textOf_emit (pieces : List String) :
    textOf (pieces.map .emit) = pieces.flatMap String.toList := by
  rw [textOf, List.flatMap_map]

theorem clock_pass {since time : Nat} (h : talk.clock ≤ time) :
    (talk.pass since time).clock = time := by
  unfold pass
  split_ifs with hless
  · rfl
  · exact Nat.le_antisymm h (Nat.le_of_not_lt hless)

/-! ## Sending and closing -/

@[simp] theorem log_deliver (talk : Conversation) :
    talk.deliver.log = talk.log ++ List.replicate talk.notices .touchRequired := by
  simp [log, deliver]

theorem log_close (talk : Conversation) :
    talk.close.log = talk.log ++ List.replicate talk.notices .touchRequired ++ [.closed] := by
  simp [close]

/-- The end of a conversation is not the end of the output. -/
theorem ended_close : .ended ∈ talk.close.log ↔ .ended ∈ talk.log := by
  simp [log_close, List.mem_replicate]

theorem undisturbed_close : Log.Undisturbed talk.close.log ↔ Log.Undisturbed talk.log := by
  rw [log_close, Log.undisturbed_append, Log.undisturbed_append, and_assoc]
  refine and_iff_left ⟨fun event he => ?_, by simp [Log.Undisturbed, Event.disturbing]⟩
  rw [List.eq_of_mem_replicate he]
  decide

theorem send_eq (talk : Conversation) (line : String) : talk.send line =
    if talk.sendFailsAt = some (talk.attempts + 1) then
      (.error (.inputOutput "write failed"),
        { talk.deliver with attempts := talk.attempts + 1 }.record (.unsent line))
    else (.ok (), { talk.deliver with
      attempts := talk.attempts + 1, outbox := talk.outbox ++ [line] }.record (.sent line)) := rfl

/-- A line is sent, or it cannot be. Nothing else happens, but for the notices that are due. -/
theorem send_cases (talk : Conversation) (line : String) :
    ((talk.send line).1 = .ok () ∧ (talk.send line).2.log =
      talk.log ++ List.replicate talk.notices .touchRequired ++ [.sent line]) ∨
    ((talk.send line).1 = .error (.inputOutput "write failed") ∧ (talk.send line).2.log =
      talk.log ++ List.replicate talk.notices .touchRequired ++ [.unsent line]) := by
  rw [send_eq]
  split_ifs
  · refine .inr ⟨rfl, ?_⟩
    rw [log_record, ← log_deliver]; rfl
  · refine .inl ⟨rfl, ?_⟩
    rw [log_record, ← log_deliver]; rfl

@[simp] theorem notices_send (talk : Conversation) (line : String) :
    (talk.send line).2.notices = 0 := by
  rw [send_eq]; split_ifs <;> rfl

@[simp] theorem buffer_send (talk : Conversation) (line : String) :
    (talk.send line).2.buffer = talk.buffer := by
  rw [send_eq]; split_ifs <;> rfl

@[simp] theorem cues_send (talk : Conversation) (line : String) :
    (talk.send line).2.cues = talk.cues := by
  rw [send_eq]; split_ifs <;> rfl

@[simp] theorem rest_send (talk : Conversation) (line : String) :
    (talk.send line).2.rest = talk.rest := by
  rw [rest, buffer_send, cues_send, rest]

theorem ended_send {line : String} : .ended ∈ (talk.send line).2.log ↔ .ended ∈ talk.log := by
  rcases talk.send_cases line with ⟨_, hlog⟩ | ⟨_, hlog⟩ <;> simp [hlog, List.mem_replicate]

/-- A line that cannot be sent stands in the way. -/
theorem disturbed_of_send {line : String} {failure : Failure}
    (h : talk.send line = (.error failure, after)) : ¬ Log.Undisturbed after.log := by
  intro hu
  rcases talk.send_cases line with ⟨hres, _⟩ | ⟨_, hlog⟩
  · rw [h] at hres
    cases hres
  · rw [h] at hlog
    have hmem : .unsent line ∈ after.log := by rw [hlog]; simp
    exact hu _ hmem rfl

end Conversation

end SecurityKey
