import SecurityKey.Proofs.Conversation.Arrival
import SecurityKey.Proofs.Dialog.Reading
/-!
# Waiting for a text that comes in pieces

A wait searches the text as it comes, so it may find a mark before another one is complete that
begins earlier. Where no mark holds another one this cannot happen: a wait finds what it would find
if the whole text were there from the beginning.

**The answer** (`FirstIn`). What a wait is to give in a text, said without any search: the first
place where a mark stands, and the first mark of the list among those that stand there; or all of
the text, where no mark occurs. A text has one answer (`FirstIn.unique`).

**In time** (`endsWithin`). The tool comes to the end of its output by the deadline. Then a wait
ends before its deadline, or at it, with a mark or with the end (`expect_endsWithin`).

Main statement: `expect_firstIn`. It needs that no mark holds another one, as the example behind it
shows.
-/

namespace SecurityKey.Conversation

open Text

/-! ## The answer to a wait -/

/-- The answer to a wait for marks in a text, and what of the text is left behind it. -/
inductive FirstIn (marks : List String) (text : List Char) : Wait → List Char → Prop
  | matched {index : Nat} {mark before : String} {rest : List Char} :
      marks[index]? = some mark → text = before.toList ++ mark.toList ++ rest →
      (∀ other ∈ marks, ∀ front back, text = front ++ other.toList ++ back →
        before.toList.length ≤ front.length) →
      (∀ other ∈ marks.take index, ¬ before.toList ++ other.toList <+: text) →
      FirstIn marks text (.matched index before) rest
  | ended {before : String} : before.toList = text →
      (∀ mark ∈ marks, ¬ mark.toList <:+: text) → FirstIn marks text (.ended before) []

variable {marks : List String} {text rest other : List Char}

theorem firstIn_matched_iff {index : Nat} {before : String} :
    FirstIn marks text (.matched index before) rest ↔
      earliest? (marks.map String.toList) text = some ⟨index, before.toList, rest⟩ := by
  rw [earliest?_eq_some_iff]
  simp only [List.getElem?_map, Option.map_eq_some_iff, List.forall_mem_map, ← List.map_take]
  constructor
  · intro h
    cases h with
    | matched hmark htext hleast hfirst => exact ⟨⟨_, ⟨_, hmark, rfl⟩, htext⟩, hleast, hfirst⟩
  · intro ⟨⟨_, ⟨_, hmark, hlist⟩, htext⟩, hleast, hfirst⟩
    subst hlist
    exact .matched hmark htext hleast hfirst

theorem firstIn_ended_iff {before : String} :
    FirstIn marks text (.ended before) rest ↔
      earliest? (marks.map String.toList) text = none ∧ before.toList = text ∧ rest = [] := by
  rw [earliest?_eq_none_iff, List.forall_mem_map]
  constructor
  · intro h
    cases h with
    | ended htext hnone => exact ⟨hnone, htext, rfl⟩
  · intro ⟨hnone, htext, hrest⟩
    subst hrest
    exact .ended htext hnone

/-- A text has one answer. -/
theorem FirstIn.unique {wait wait' : Wait} (h : FirstIn marks text wait rest)
    (h' : FirstIn marks text wait' other) : wait = wait' ∧ rest = other := by
  cases wait with
  | matched index before =>
    have hfound := firstIn_matched_iff.1 h
    cases h' with
    | @matched index' mark before' _ hmark htext hleast hfirst =>
      have hfound' := firstIn_matched_iff.1 (.matched hmark htext hleast hfirst)
      rw [hfound, Option.some_inj, Found.mk.injEq, String.toList_inj] at hfound'
      obtain ⟨hindex, hbefore, hrest⟩ := hfound'
      exact ⟨by rw [hindex, hbefore], hrest⟩
    | ended htext hnone =>
      rw [(firstIn_ended_iff.1 (.ended htext hnone)).1] at hfound
      cases hfound
  | ended before =>
    obtain ⟨hnone, hbefore, hrest⟩ := firstIn_ended_iff.1 h
    cases h' with
    | matched hmark htext hleast hfirst =>
      rw [firstIn_matched_iff.1 (.matched hmark htext hleast hfirst)] at hnone
      cases hnone
    | ended htext hnone' =>
      exact ⟨by rw [String.toList_inj.1 (hbefore.trans htext.symm)], hrest⟩
  | timedOut before => cases h

/-! ## Text that ends in time -/

/-- Whether a tool that can read so many lines comes to the end of its output in so many
milliseconds. -/
def endsWithin : (lines ms : Nat) → List (Cue String) → Bool
  | _, _, [] => true
  | lines, ms, .emit _ :: cues => endsWithin lines ms cues
  | lines, ms, .delay pause :: cues => pause ≤ ms && endsWithin lines (ms - pause) cues
  | lines + 1, ms, .awaitLine :: cues => endsWithin lines ms cues
  | _, _, _ => false

variable {talk : Conversation}

/-- Then the lines that it waits for were sent, and its pauses are no longer than this time. -/
theorem served_of_endsWithin {cues : List (Cue String)} {lines ms count : Nat}
    (h : endsWithin lines ms cues) :
    served (fun _ => count + lines) text count cues ∧ pauses cues ≤ ms := by
  induction cues generalizing lines ms count text with
  | nil => exact ⟨rfl, Nat.zero_le ms⟩
  | cons cue cues ih =>
    cases cue with
    | emit chunk => exact ih h
    | delay pause =>
      simp only [endsWithin, Bool.and_eq_true, decide_eq_true_eq] at h
      obtain ⟨hserved, hpauses⟩ := ih h.2
      refine ⟨hserved, ?_⟩
      rw [pauses]
      omega
    | awaitLine =>
      cases lines with
      | zero => cases h
      | succ lines =>
        have hrest : served (fun _ => count + 1 + lines) text (count + 1) cues ∧
            pauses cues ≤ ms := ih h
        have hsame : count + 1 + lines = count + (lines + 1) := by omega
        have hless : count < count + (lines + 1) := by omega
        rw [hsame] at hrest
        exact ⟨Bool.and_eq_true_iff.2 ⟨decide_eq_true hless, hrest.1⟩, hrest.2⟩
    | hang => cases lines <;> cases h
    | readError reason => cases lines <;> cases h

/-- A wait that the end of the output comes in time for finds a mark or the end. -/
theorem expect_endsWithin (marks : List String) {within : Nat}
    (h : endsWithin talk.outbox.length within talk.cues) :
    ∃ wait, (talk.expect marks within).1 = .ok wait ∧ ∀ before, wait ≠ .timedOut before := by
  obtain ⟨hserved, hpauses⟩ : served (fun _ => talk.heard.length + talk.outbox.length)
      talk.buffer.toList talk.heard.length talk.cues ∧ pauses talk.cues ≤ within :=
    served_of_endsWithin h
  have hlines : Steady marks (fun _ => talk.heard.length + talk.outbox.length) talk.sent :=
    fun _ _ => rfl
  rcases hexpect : talk.expect marks within with ⟨result, after⟩
  cases expect_arrival hexpect with
  | matched found => exact ⟨_, rfl, by simp⟩
  | ended => exact ⟨_, rfl, by simp⟩
  | late hleft hborne =>
    have hmore := hleft (fun _ => true) fun _ _ => rfl
    have hpassed := hborne.pauses_eq
    rw [pausesWhile_true] at hmore
    omega
  | stuck passed hunserved hborne =>
    rw [hborne.served _ hlines, hunserved _ hlines] at hserved
    cases hserved
  | failed hunserved =>
    rw [hunserved _ hlines] at hserved
    cases hserved

/-! ## Pieces make no difference -/

/-- What a wait gives that the end of the output comes in time for. -/
theorem firstIn_expect (apart : Apart (marks.map String.toList)) {within : Nat}
    (h : endsWithin talk.outbox.length within talk.cues) :
    ∃ wait, (talk.expect marks within).1 = .ok wait ∧
      FirstIn marks talk.rest wait (talk.expect marks within).2.rest := by
  obtain ⟨wait, hwait, hintime⟩ := expect_endsWithin marks h
  obtain ⟨more, hlistened⟩ := talk.expect_listened marks within
  rw [hwait] at hlistened
  refine ⟨wait, hwait, ?_⟩
  cases wait with
  | matched index before => exact firstIn_matched_iff.2 (hlistened.matched apart)
  | ended before => exact firstIn_ended_iff.2 hlistened.unmatched
  | timedOut before => exact absurd rfl (hintime before)

/-- **A wait does not depend on the pieces in which a text comes.** If no mark holds another one,
and the output ends by the deadline, then a wait gives the answer in all of the text that is not yet
consumed, and leaves what stands behind it. Any other wait for the same marks in the same text
does the same, whatever of the text is there already, in whatever pieces and with whatever pauses
the rest comes, and however long it may last. -/
theorem expect_firstIn (apart : Apart (marks.map String.toList)) {within : Nat}
    (h : endsWithin talk.outbox.length within talk.cues) :
    (∃ wait, (talk.expect marks within).1 = .ok wait ∧
      FirstIn marks talk.rest wait (talk.expect marks within).2.rest) ∧
    ∀ (other : Conversation) (bound : Nat), other.rest = talk.rest →
      endsWithin other.outbox.length bound other.cues →
      (other.expect marks bound).1 = (talk.expect marks within).1 ∧
        (other.expect marks bound).2.rest = (talk.expect marks within).2.rest := by
  obtain ⟨wait, hwait, hfirst⟩ := firstIn_expect apart h
  refine ⟨⟨wait, hwait, hfirst⟩, ?_⟩
  intro other bound hrest hother
  obtain ⟨wait', hwait', hfirst'⟩ := firstIn_expect apart hother
  rw [hrest] at hfirst'
  obtain ⟨heq, hleft⟩ := hfirst'.unique hfirst
  exact ⟨by rw [hwait, hwait', heq], hleft⟩

/-- A request for a touch of which a part was read, and the prompt behind it, whose end comes at the
deadline. -/
def touchInPieces : Conversation :=
  { begin ⟨[.emit " for us", .delay 15000, .awaitLine, .emit "er presence\nEnter cur",
      .delay 5000, .emit "rent PIN: "], none⟩ with
    buffer := "Waiting"
    outbox := ["1234"] }

theorem expect_firstIn_touchInPieces :
    Apart (Dialog.openers.map String.toList) ∧
      endsWithin touchInPieces.outbox.length 20000 touchInPieces.cues ∧
      (touchInPieces.expect Dialog.openers 20000).1 = .ok (.matched 2 "") ∧
      (touchInPieces.expect Dialog.openers 20000).2.rest =
        " presence\nEnter current PIN: ".toList := by
  have hends : endsWithin touchInPieces.outbox.length 20000 touchInPieces.cues := by decide
  have hwhole := (expect_firstIn Dialog.apart_openers hends).2
    (begin ⟨[.emit "Waiting for user presence\nEnter current PIN: "], none⟩) 0 (by decide)
    (by decide)
  refine ⟨Dialog.apart_openers, hends, ?_, ?_⟩
  · rw [← hwhole.1]
    decide
  · rw [← hwhole.2]
    decide

/-- A mark within another one may be found too early. -/
example :
    ((begin ⟨[.emit "ab", .emit "c"], none⟩).expect ["abc", "b"] 0).1 = .ok (.matched 1 "a") ∧
      ((begin ⟨[.emit "abc"], none⟩).expect ["abc", "b"] 0).1 = .ok (.matched 0 "") := by
  decide

end SecurityKey.Conversation
