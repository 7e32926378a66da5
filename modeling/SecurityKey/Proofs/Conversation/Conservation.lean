import SecurityKey.Dialog
import SecurityKey.Proofs.Conversation
/-!
# No text is lost, and none is seen twice

A wait treats the buffer in four ways: it cuts it behind a mark, empties it at the end of the
output, leaves it at its deadline, and leaves it when the connection breaks. Waits for all kinds of
marks follow one another with lines between them, so what one wait leaves is what the next one
begins with.

**One turn** (`turn`). What a wait consumes and what is left, in the buffer or still to be emitted,
is what was left before it (`expect_conserves`).

**All turns** (`takeTurns`). The text that was consumed and the text in the buffer are together the
text that was read, and this is what the tool has emitted (`Accounted`). One turn keeps it, so every
use of a conversation does.

Main statement: `takeTurns_conserved`. What a tool emits that writes bytes is the text of all its
bytes (`textOf_ofBytes`).
-/

namespace SecurityKey.Conversation

open Text

/-! ## Turns -/

/-- What can be done with a conversation. -/
inductive Turn
  | expect (marks : List String) (within : Nat)
  | expectEnd (within : Nat)
  | send (line : String)
  | close

/-- The text that a wait for marks consumes. A wait that comes to its deadline, and one that fails,
consumes none. -/
def consumed (marks : List String) : Except Failure Wait → List Char
  | .ok (.matched index before) => before.toList ++ (marks[index]?.elim [] String.toList)
  | .ok (.ended before) => before.toList
  | .ok (.timedOut _) | .error _ => []

/-- One turn: the text that it consumes, and what comes of the conversation. -/
def turn (talk : Conversation) : Turn → List Char × Conversation
  | .expect marks within =>
    let (result, after) := talk.expect marks within
    (consumed marks result, after)
  | .expectEnd within =>
    let (result, after) := talk.expectEnd within
    (consumed [] result, after)
  | .send line => ([], (talk.send line).2)
  | .close => ([], talk.close)

/-- Turns, one after the other: all text that they consume, and what comes of the conversation. -/
def takeTurns (talk : Conversation) : List Turn → List Char × Conversation
  | [] => ([], talk)
  | next :: turns =>
    let (text, after) := talk.turn next
    let (more, last) := after.takeTurns turns
    (text ++ more, last)

variable {marks : List String} {talk : Conversation} {cues : List (Cue String)}
  {deadline since : Nat} {ending : Except Failure Wait × Conversation} {script : Script}
  {text : List Char}

/-! ## One wait -/

theorem textOf_cons (cue : Cue String) (cues : List (Cue String)) :
    textOf (cue :: cues) = textOf [cue] ++ textOf cues := by
  simp [textOf]

@[simp] theorem rest_pass (since time : Nat) : (talk.pass since time).rest = talk.rest := by
  unfold pass
  split_ifs <;> rfl

theorem rest_giveUp (rest : List (Cue String)) (since deadline : Nat) :
    (talk.giveUp rest since deadline).2.rest = talk.buffer.toList ++ textOf rest := by
  rw [Conversation.rest, giveUp, ← talk.buffer_pass since deadline]
  rfl

/-- The text around a mark that was found. -/
theorem consumed_consume (cues : List (Cue String)) {found : Found}
    (h : find? marks talk.buffer = some found) :
    consumed marks (talk.consume cues found).1 ++ (talk.consume cues found).2.rest =
      talk.buffer.toList ++ textOf cues := by
  obtain ⟨⟨chars, hchars, htext⟩, _⟩ := earliest?_eq_some_iff.1 h
  rw [List.getElem?_map] at hchars
  obtain ⟨mark, hmark, rfl⟩ := Option.map_eq_some_iff.1 hchars
  simp [consume, consumed, hmark, htext, Conversation.rest]

/-- What a wait consumes and what it leaves are what there was. -/
theorem Listening.conserves (h : Listening marks deadline since talk cues ending) :
    consumed marks ending.1 ++ ending.2.rest = talk.buffer.toList ++ textOf cues := by
  -- Along the course: a piece that was read goes from the cues to the end of the buffer.
  induction h with
  | found hfind => exact consumed_consume _ hfind
  | ended =>
    rw [consumed, textOf, List.flatMap_nil]
    rfl
  | emit chunk _ _ ih =>
    rw [ih, textOf_cons (.emit chunk)]
    simp [record, textOf]
  | delay ms _ _ _ ih => rw [ih, buffer_pass, textOf_cons (.delay ms)]; rfl
  | heard _ _ _ ih => exact ih
  | late => exact rest_giveUp _ _ _
  | unheard => exact rest_giveUp _ _ _
  | hang => exact rest_giveUp _ _ _
  | failed => rfl

theorem expect_conserves (talk : Conversation) (marks : List String) (within : Nat) :
    consumed marks (talk.expect marks within).1 ++ (talk.expect marks within).2.rest = talk.rest :=
  (listening ..).conserves

/-- Once the output has ended, a wait finds a mark in what is left, or the end again. -/
theorem Listening.unsilenced (h : Listening marks deadline since talk [] ending) :
    ending.2.cues = [] ∧ ∀ before, ending.1 ≠ .ok (.timedOut before) := by
  cases h with
  | found => exact ⟨rfl, by simp [consume]⟩
  | ended => exact ⟨rfl, by simp⟩

theorem expect_unsilenced (hcues : talk.cues = []) (marks : List String) (within : Nat) :
    (talk.expect marks within).2.cues = [] ∧
      ∀ before, (talk.expect marks within).1 ≠ .ok (.timedOut before) := by
  have h := listening marks (talk.clock + within) talk.clock talk talk.cues
  rw [hcues] at h
  rw [expect, hcues]
  exact h.unsilenced

/-! ## All turns -/

/-- The text of a script is accounted for: it was consumed, or is in the buffer, or is still to be
emitted. Nothing comes behind the end of the output. -/
structure Accounted (script : Script) (text : List Char) (talk : Conversation) : Prop where
  rest : text ++ talk.rest = textOf script.cues
  emitted : Log.output talk.log ++ textOf talk.cues = textOf script.cues
  ended : .ended ∈ talk.log → talk.cues = []

theorem Accounted.begin (script : Script) : Accounted script [] (begin script) :=
  ⟨rfl, rfl, fun h => nomatch h⟩

/-- What was consumed and what is in the buffer are together what was read. -/
theorem Accounted.read (h : Accounted script text talk) :
    text ++ talk.buffer.toList = Log.output talk.log := by
  have hall : text ++ talk.buffer.toList ++ textOf talk.cues =
      Log.output talk.log ++ textOf talk.cues := by
    rw [h.emitted, ← h.rest, List.append_assoc]
    rfl
  exact List.append_cancel_right hall

theorem Accounted.expect (h : Accounted script text talk) (marks : List String) (within : Nat) :
    Accounted script (text ++ consumed marks (talk.expect marks within).1)
      (talk.expect marks within).2 := by
  obtain ⟨more, hlistened⟩ := talk.expect_listened marks within
  refine ⟨?_, ?_, fun hended => ?_⟩
  · rw [List.append_assoc, expect_conserves, h.rest]
  · rw [hlistened.log, Log.output_append, List.append_assoc, ← hlistened.text, h.emitted]
  · rw [hlistened.log] at hended
    rcases List.mem_append.1 hended with hbefore | hnow
    · exact (expect_unsilenced (h.ended hbefore) marks within).1
    · obtain ⟨before, hresult⟩ := hlistened.ended hnow
      have hend := hlistened.ending
      rw [hresult] at hend
      cases hend with
      | ended _ _ _ _ hcues => exact hcues

/-- A turn that only adds notices and an event of its own to the log. -/
theorem Accounted.of_silent {after : Conversation} {event : Event}
    (h : Accounted script text talk)
    (hlog : after.log = talk.log ++ List.replicate talk.notices .touchRequired ++ [event])
    (hevent : event.text = []) (hended : event ≠ .ended) (hrest : after.rest = talk.rest)
    (hcues : after.cues = talk.cues) : Accounted script text after := by
  have houtput : Log.output after.log = Log.output talk.log := by
    rw [hlog, Log.output_append, Log.output_append, Log.output_notices]
    simp [Log.output, hevent]
  refine ⟨by rw [hrest, h.rest], by rw [houtput, hcues, h.emitted], fun hmem => ?_⟩
  rw [hcues]
  refine h.ended ?_
  simpa [hlog, List.mem_replicate, hended.symm] using hmem

/-- One turn keeps the account. -/
theorem Accounted.turn (h : Accounted script text talk) (next : Turn) :
    Accounted script (text ++ (talk.turn next).1) (talk.turn next).2 := by
  cases next with
  | expect marks within => exact h.expect marks within
  | expectEnd within => exact h.expect [] within
  | send line =>
    rw [Conversation.turn, List.append_nil]
    rcases talk.send_cases line with ⟨_, hlog⟩ | ⟨_, hlog⟩
    · exact h.of_silent hlog rfl (by simp) (rest_send ..) (cues_send ..)
    · exact h.of_silent hlog rfl (by simp) (rest_send ..) (cues_send ..)
  | close =>
    rw [Conversation.turn, List.append_nil]
    exact h.of_silent talk.log_close rfl (by simp) rfl rfl

/-- All turns keep the account. -/
theorem Accounted.takeTurns (h : Accounted script text talk) (turns : List Turn) :
    Accounted script (text ++ (talk.takeTurns turns).1) (talk.takeTurns turns).2 := by
  induction turns generalizing text talk with
  | nil =>
    rw [Conversation.takeTurns, List.append_nil]
    exact h
  | cons next turns ih =>
    rw [Conversation.takeTurns, ← List.append_assoc]
    exact ih (h.turn next)

/-- What holds of a conversation in which turns have consumed a text. -/
structure Conserved (script : Script) (text : List Char) (talk : Conversation) : Prop where
  /-- What was consumed and what is in the buffer are together what was read. -/
  read : text ++ talk.buffer.toList = Log.output talk.log
  /-- What was read is what the tool has emitted. -/
  emitted : Log.output talk.log ++ textOf talk.cues = textOf script.cues
  /-- A mark that a wait finds is one of its own. -/
  matched : ∀ marks within index before,
    (talk.expect marks within).1 = .ok (.matched index before) → index < marks.length
  /-- A wait comes to its deadline only if the end of the output was not seen. Its text is the
  whole buffer, and whatever is done next, this text is consumed first or stays in front. -/
  timedOut : ∀ marks within before,
    (talk.expect marks within).1 = .ok (.timedOut before) →
      .ended ∉ (talk.expect marks within).2.log ∧
        (talk.expect marks within).2.buffer = before ∧
        ∀ next, before.toList <+: ((talk.expect marks within).2.turn next).1 ++
          ((talk.expect marks within).2.turn next).2.buffer.toList
  /-- A wait for the end of the output finds no mark. -/
  unmatched : ∀ within index before,
    (talk.expectEnd within).1 ≠ .ok (.matched index before)

theorem matched_of_expect {within index : Nat} {before : String}
    (h : (talk.expect marks within).1 = .ok (.matched index before)) : index < marks.length := by
  obtain ⟨more, hlistened⟩ := talk.expect_listened marks within
  have hend := hlistened.ending
  rw [h] at hend
  cases hend with
  | matched found hfound =>
    obtain ⟨⟨mark, hmark, _⟩, _⟩ := earliest?_eq_some_iff.1 hfound
    simpa using (List.getElem?_eq_some_iff.1 hmark).1

/-- The log only grows. -/
theorem log_turn (talk : Conversation) (next : Turn) :
    ∃ more, (talk.turn next).2.log = talk.log ++ more := by
  cases next with
  | expect marks within =>
    obtain ⟨more, hlistened⟩ := talk.expect_listened marks within
    exact ⟨more, hlistened.log⟩
  | expectEnd within =>
    obtain ⟨more, hlistened⟩ := talk.expect_listened [] within
    exact ⟨more, hlistened.log⟩
  | send line =>
    rcases talk.send_cases line with ⟨_, hlog⟩ | ⟨_, hlog⟩
    · exact ⟨_, hlog.trans (List.append_assoc ..)⟩
    · exact ⟨_, hlog.trans (List.append_assoc ..)⟩
  | close => exact ⟨_, talk.log_close.trans (List.append_assoc ..)⟩

/-- The buffer that a turn finds is consumed first, or stays in front. -/
theorem Accounted.keeps_buffer (h : Accounted script text talk) (next : Turn) :
    talk.buffer.toList <+: (talk.turn next).1 ++ (talk.turn next).2.buffer.toList := by
  obtain ⟨more, hlog⟩ := talk.log_turn next
  have hread := (h.turn next).read
  rw [hlog, Log.output_append, ← h.read, List.append_assoc, List.append_assoc] at hread
  exact ⟨_, (List.append_cancel_left hread).symm⟩

theorem Accounted.timedOut {within : Nat} {before : String} (h : Accounted script text talk)
    (htimedOut : (talk.expect marks within).1 = .ok (.timedOut before)) :
    .ended ∉ (talk.expect marks within).2.log ∧ (talk.expect marks within).2.buffer = before := by
  obtain ⟨more, hlistened⟩ := talk.expect_listened marks within
  have hend := hlistened.ending
  rw [htimedOut] at hend
  cases hend with
  | timedOut _ _ _ hbuffer =>
    refine ⟨fun hended => ?_, hbuffer⟩
    rw [hlistened.log] at hended
    rcases List.mem_append.1 hended with hbefore | hnow
    · exact (expect_unsilenced (h.ended hbefore) marks within).2 before htimedOut
    · obtain ⟨_, hresult⟩ := hlistened.ended hnow
      rw [htimedOut] at hresult
      cases hresult

/-- **No text is lost, and none is seen twice**, whatever is done with a conversation, and whatever
the tool does in it. -/
theorem takeTurns_conserved (script : Script) (turns : List Turn) :
    Conserved script ((begin script).takeTurns turns).1 ((begin script).takeTurns turns).2 := by
  have h := (Accounted.begin script).takeTurns turns
  rw [List.nil_append] at h
  refine ⟨h.read, h.emitted, fun _ _ _ _ hmatched => matched_of_expect hmatched, ?_, ?_⟩
  · intro marks within before htimedOut
    obtain ⟨hended, hbuffer⟩ := h.timedOut htimedOut
    refine ⟨hended, hbuffer, fun next => ?_⟩
    rw [← hbuffer]
    exact (h.expect marks within).keeps_buffer next
  · intro within index before hmatched
    exact Nat.not_lt_zero index (matched_of_expect hmatched)

/-- A prompt of which a part came before a deadline is consumed by the next wait, as a whole. -/
example :
    ((begin ⟨[.emit "\r\nEnter new", .delay 200, .emit " PIN: "], none⟩).takeTurns
      [.expect [Dialog.newPinPrompt] 100, .send "1234", .expect [Dialog.newPinPrompt] 100]).1 =
      "\r\nEnter new PIN".toList := by
  decide

/-! ## Bytes -/

/-- The bytes that cues emit. -/
def bytesOf (cues : List (Cue (List UInt8))) : List UInt8 :=
  cues.flatMap fun
    | .emit bytes => bytes
    | _ => []

theorem textOf_decode (pending : Utf8.Unfinished) (cues : List (Cue (List UInt8))) :
    textOf (Script.decode pending cues) =
      (Utf8.feed pending (bytesOf cues)).1 ++ (Utf8.feed pending (bytesOf cues)).2.finish := by
  induction cues generalizing pending with
  | nil =>
    show textOf (Script.decode pending []) = pending.finish
    rw [Script.decode]
    split_ifs with h
    · exact (List.isEmpty_iff.1 h).symm
    · simp [textOf]
  | cons cue cues ih =>
    cases cue with
    | emit bytes =>
      have hbytes : bytesOf (.emit bytes :: cues) = bytes ++ bytesOf cues := rfl
      rw [hbytes, Utf8.feed_append, List.append_assoc, ← ih, Script.decode]
      generalize Utf8.feed pending bytes = fed
      obtain ⟨text, next⟩ := fed
      -- Bytes that complete no character make no piece.
      cases text with
      | nil => rfl
      | cons c text =>
        show textOf (.emit (String.ofList (c :: text)) :: Script.decode next cues) = _
        rw [textOf_cons]
        simp [textOf]
    | delay ms => exact ih pending
    | awaitLine => exact ih pending
    | hang => exact ih pending
    | readError reason => exact ih pending

/-- What a tool emits that writes bytes is the text of all its bytes, however it cuts them. -/
theorem textOf_ofBytes (cues : List (Cue (List UInt8))) (sendFailsAt : Option Nat) :
    textOf (Script.ofBytes cues sendFailsAt).cues = (Utf8.decode (bytesOf cues)).toList := by
  rw [Utf8.decode, String.toList_ofList]
  exact textOf_decode .none cues

end SecurityKey.Conversation
