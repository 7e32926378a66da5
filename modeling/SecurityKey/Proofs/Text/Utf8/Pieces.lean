import Mathlib.Data.List.Induction
import SecurityKey.Proofs.Text.Utf8.Sequences
/-!
# Decoding in pieces

Bytes come in chunks that are cut anywhere, also within a character. What a chunk leaves unfinished
waits for the next one, and what is not UTF-8 is replaced. Both are said here without the decoder.

**Broken bytes** (`Broken`). Where no character stands, the longest part that a well-formed sequence
begins with is replaced as one, or a single byte that none begins with.

**All at once** (`Lossy`). A whole byte string is characters and broken parts, and at its end there
may be a sequence that was cut short, which is replaced as well. The text of a byte string is this
text and no other (`lossy_iff`).

**Chunk by chunk** (`Takes`). Of the bytes that are there, all up to an unfinished sequence is
taken, part by part. The decoder does this with what was left of the chunks before and the next one
(`takes_iff`), so it always comes to an end, and its result is the only one.

Main statement: `feedAll_streamed`.
-/

namespace SecurityKey.Text.Utf8

open String (utf8EncodeChar)

variable {b : UInt8} {bytes part rest left : List UInt8} {c : Char} {text more : List Char}
  {u : Unfinished}

/-! ## What is taken, and what is replaced -/

/-- The bytes of a text. -/
def encode (text : List Char) : List UInt8 :=
  text.flatMap utf8EncodeChar

/-- The part that is replaced in front of some bytes: an unfinished sequence that the next byte does
not go on with, or a byte that no sequence begins with. -/
inductive Broken : List UInt8 → List UInt8 → Prop
  | interrupted {part : List UInt8} {b : UInt8} {rest : List UInt8} :
      Partial part → ¬ Begins (part ++ [b]) → Broken part (b :: rest)
  | stray {b : UInt8} {rest : List UInt8} : ¬ Begins [b] → Broken [b] rest

/-- The text of a whole byte string. -/
inductive Lossy : List UInt8 → List Char → Prop
  | nil : Lossy [] []
  | char (c : Char) {rest : List UInt8} {text : List Char} :
      Lossy rest text → Lossy (utf8EncodeChar c ++ rest) (c :: text)
  | broken {part rest : List UInt8} {text : List Char} :
      Broken part rest → Lossy rest text → Lossy (part ++ rest) (replacement :: text)
  | cutShort {part : List UInt8} : Partial part → Lossy part [replacement]

/-- The text that is taken from the front of some bytes, and the bytes that are left. The bytes are
checked up to the first that is not well-formed. If they are broken there, the broken part is
replaced and the bytes behind it are checked in turn; if they end there within a sequence, this
sequence is left. -/
inductive Takes : List UInt8 → List Char → List UInt8 → Prop
  | valid (text : List Char) : Takes (encode text) text []
  | cutShort (text : List Char) {part : List UInt8} :
      Partial part → Takes (encode text ++ part) text part
  | broken (text : List Char) {part rest left : List UInt8} {more : List Char} :
      Broken part rest → Takes rest more left →
      Takes (encode text ++ part ++ rest) (text ++ replacement :: more) left

theorem encode_cons (c : Char) (text : List Char) :
    encode (c :: text) = utf8EncodeChar c ++ encode text :=
  List.flatMap_cons

/-- One more character in front. -/
theorem Takes.char (c : Char) (h : Takes rest text left) :
    Takes (utf8EncodeChar c ++ rest) (c :: text) left := by
  cases h with
  | valid text =>
    rw [← encode_cons]
    exact .valid (c :: text)
  | cutShort text hpart =>
    rw [← List.append_assoc, ← encode_cons]
    exact .cutShort (c :: text) hpart
  | broken text hbroken hrest =>
    rw [← List.append_assoc, ← List.append_assoc, ← encode_cons]
    exact .broken (c :: text) hbroken hrest

/-- One more broken part in front. -/
theorem Takes.replaced (hbroken : Broken part rest) (h : Takes rest text left) :
    Takes (part ++ rest) (replacement :: text) left :=
  .broken [] hbroken h

theorem Lossy.behind (text : List Char) (h : Lossy rest more) :
    Lossy (encode text ++ rest) (text ++ more) := by
  induction text with
  | nil => exact h
  | cons c text ih =>
    rw [encode_cons, List.append_assoc]
    exact .char c ih

/-- What is taken and the text of what is left are the text of the whole. -/
theorem Takes.lossy (h : Takes bytes text left) (hleft : Lossy left more) :
    Lossy bytes (text ++ more) := by
  induction h with
  | valid text =>
    have := hleft.behind text
    rwa [List.append_nil] at this
  | cutShort text _ => exact hleft.behind text
  | broken text hbroken _ ih =>
    rw [List.append_assoc, List.append_assoc]
    exact (Lossy.broken hbroken (ih hleft)).behind text

/-! ## What the decoder does -/

theorem feed_cons (u : Unfinished) (b : UInt8) (bytes : List UInt8) :
    feed u (b :: bytes) =
      ((step u b).1 ++ (feed (step u b).2 bytes).1, (feed (step u b).2 bytes).2) :=
  rfl

theorem feed_singleton (u : Unfinished) (b : UInt8) : feed u [b] = step u b := by
  rw [feed_cons, feed, List.append_nil]

/-- An unfinished sequence is kept. -/
theorem feed_partial (h : Partial part) :
    ∃ u, feed .none part = ([], u) ∧ Begun u ∧ u.bytes = part := by
  -- From the last byte: what stands before it is unfinished too, or there is nothing.
  induction part using List.reverseRecOn with
  | nil => exact absurd rfl h.1
  | append_singleton init b ih =>
    by_cases hinit : init = []
    · subst hinit
      obtain ⟨u, hstep, hbegun, hbytes⟩ := step_partial .none h
      exact ⟨u, (feed_singleton ..).trans hstep, hbegun, hbytes⟩
    · obtain ⟨u, hfeed, hbegun, rfl⟩ := ih (h.of_append hinit)
      obtain ⟨next, hstep, hnext, hbytes⟩ := step_partial (.inr hbegun) h
      exact ⟨next, by rw [feed_append, hfeed, feed_singleton, hstep]; rfl, hnext, hbytes⟩

/-- An encoding gives its character. -/
theorem feed_char (c : Char) : feed .none (utf8EncodeChar c) = ([c], .none) := by
  obtain ⟨init, b, hsplit⟩ : ∃ (init : List UInt8) (b : UInt8), utf8EncodeChar c = init ++ [b] :=
    ⟨_, _, (List.dropLast_concat_getLast String.utf8EncodeChar_ne_nil).symm⟩
  rw [hsplit]
  by_cases hinit : init = []
  · subst hinit
    exact (feed_singleton ..).trans (step_complete .none hsplit)
  · obtain ⟨u, hfeed, hbegun, rfl⟩ := feed_partial ⟨hinit, c, [b], List.cons_ne_nil b [], hsplit⟩
    rw [feed_append, hfeed, feed_singleton, step_complete (.inr hbegun) hsplit]
    rfl

theorem feed_text (text : List Char) : feed .none (encode text) = (text, .none) := by
  induction text with
  | nil => rfl
  | cons c text ih =>
    rw [encode_cons, feed_append, feed_char, ih]
    rfl

/-- A broken part is replaced, and the rest is read as if nothing stood before it. -/
theorem feed_broken (h : Broken part rest) :
    feed .none (part ++ rest) = (replacement :: (feed .none rest).1, (feed .none rest).2) := by
  cases h with
  | @interrupted _ b rest hpart hb =>
    obtain ⟨u, hfeed, hbegun, rfl⟩ := feed_partial hpart
    rw [feed_append, hfeed, feed_cons, step_interrupted hbegun hb, feed_cons]
    rfl
  | @stray b _ hb =>
    rw [List.singleton_append, feed_cons, step_none, begin_stray hb]
    rfl

theorem Takes.feed (h : Takes bytes text left) :
    (feed .none bytes).1 = text ∧ (feed .none bytes).2.bytes = left := by
  induction h with
  | valid text =>
    rw [feed_text]
    exact ⟨rfl, rfl⟩
  | cutShort text hpart =>
    obtain ⟨u, hfeed, _, hbytes⟩ := feed_partial hpart
    rw [feed_append, feed_text, hfeed]
    exact ⟨List.append_nil text, hbytes⟩
  | broken text hbroken _ ih =>
    rw [List.append_assoc, feed_append, feed_text, feed_broken hbroken, ih.1]
    exact ⟨rfl, ih.2⟩

theorem Lossy.feed (h : Lossy bytes text) :
    (feed .none bytes).1 ++ (feed .none bytes).2.finish = text := by
  induction h with
  | nil => rfl
  | char c _ ih =>
    rw [feed_append, feed_char]
    exact congrArg (c :: ·) ih
  | broken hbroken _ ih =>
    rw [feed_broken hbroken]
    exact congrArg (replacement :: ·) ih
  | cutShort hpart =>
    obtain ⟨u, hfeed, hbegun, _⟩ := feed_partial hpart
    rw [hfeed, Unfinished.finish, if_neg (by simpa using hbegun.nonempty)]
    rfl

/-! ## The decoder comes to an end -/

theorem sound_begin (b : UInt8) : Sound (begin b).2 := by
  rcases begin_cases b with ⟨_, h⟩ | ⟨bits, ranges, hlead, h⟩ | ⟨_, _, h⟩
  · rw [h]
    exact .none
  · rw [h]
    exact .inr (begun_of_lead hlead)
  · rw [h]
    exact .none

theorem sound_step (h : Sound u) (b : UInt8) : Sound (step u b).2 := by
  by_cases hbegins : Begins (u.bytes ++ [b])
  · rcases hbegins.complete_or_partial (by simp) with ⟨c, hc⟩ | hpart
    · rw [step_complete h hc]
      exact .none
    · obtain ⟨next, hstep, hnext, _⟩ := step_partial h hpart
      rw [hstep]
      exact .inr hnext
  · rcases h with rfl | h
    · exact sound_begin b
    · rw [step_interrupted h hbegins]
      exact sound_begin b

theorem sound_feed (h : Sound u) (chunk : List UInt8) : Sound (feed u chunk).2 := by
  induction chunk generalizing u with
  | nil => exact h
  | cons b rest ih => exact ih (sound_step h b)

/-- What an unfinished sequence and a chunk give is taken from the bytes that they make. -/
def TakesFrom (u : Unfinished) (chunk : List UInt8) : Prop :=
  Takes (u.bytes ++ chunk) (feed u chunk).1 (feed u chunk).2.bytes

/-- A byte that a sequence goes on with. -/
theorem takesFrom_of_begins (h : Sound u) (hb : Begins (u.bytes ++ [b]))
    (ih : ∀ {v}, Sound v → TakesFrom v rest) : TakesFrom u (b :: rest) := by
  rw [TakesFrom, List.append_cons, feed_cons]
  rcases hb.complete_or_partial (by simp) with ⟨c, hc⟩ | hpart
  · rw [step_complete h hc, ← hc]
    exact (ih .none).char c
  · obtain ⟨next, hstep, hnext, hbytes⟩ := step_partial h hpart
    rw [hstep, ← hbytes]
    exact ih (.inr hnext)

/-- A byte between two characters. -/
theorem takesFrom_none (b : UInt8) (ih : ∀ {v}, Sound v → TakesFrom v rest) :
    TakesFrom .none (b :: rest) := by
  by_cases hb : Begins [b]
  · exact takesFrom_of_begins .none hb ih
  · rw [TakesFrom, feed_cons, step_none, begin_stray hb]
    show Takes ([b] ++ rest) _ _
    exact .replaced (.stray hb) (ih .none)

theorem takesFrom (h : Sound u) (chunk : List UInt8) : TakesFrom u chunk := by
  induction chunk generalizing u with
  | nil =>
    rw [TakesFrom, List.append_nil]
    rcases h with rfl | h
    · exact .valid []
    · exact .cutShort [] h.partial
  | cons b rest ih =>
    by_cases hb : Begins (u.bytes ++ [b])
    · exact takesFrom_of_begins h hb ih
    · rcases h with rfl | h
      · exact takesFrom_none b ih
      · -- The byte that interrupts is read once more, as the first of a sequence.
        have hrest := (takesFrom_none b ih).replaced (.interrupted h.partial hb)
        rw [TakesFrom, feed_cons, step_interrupted h hb]
        exact hrest

/-- The text of a chunk and what is left behind it are the ones that are taken from what was left
before and the chunk, and no others are. -/
theorem takes_iff (h : Sound u) {chunk : List UInt8} :
    Takes (u.bytes ++ chunk) text left ↔
      text = (feed u chunk).1 ∧ left = (feed u chunk).2.bytes := by
  have htakes := takesFrom h chunk
  constructor
  · intro hother
    -- Whatever is taken from some bytes is what the decoder makes of them from the start.
    exact ⟨hother.feed.1.symm.trans htakes.feed.1, hother.feed.2.symm.trans htakes.feed.2⟩
  · rintro ⟨rfl, rfl⟩
    exact htakes

/-- A sequence that is left at the end is replaced. -/
theorem lossy_finish (h : Sound u) : Lossy u.bytes u.finish := by
  rcases h with rfl | h
  · exact .nil
  · rw [Unfinished.finish, if_neg (by simpa using h.nonempty)]
    exact .cutShort h.partial

/-- The text of a byte string is its lossy decoding, and there is no other. -/
theorem lossy_iff : Lossy bytes text ↔ decode bytes = String.ofList text := by
  have hdecode : decode bytes =
      String.ofList ((feed .none bytes).1 ++ (feed .none bytes).2.finish) := rfl
  rw [hdecode, String.ofList_inj]
  constructor
  · exact Lossy.feed
  · rintro rfl
    exact (takesFrom .none bytes).lossy (lossy_finish (sound_feed .none bytes))

/-! ## Any number of chunks -/

/-- The texts of some chunks, one by one, and the sequence that the last one leaves unfinished. -/
def feedAll (u : Unfinished) : List (List UInt8) → List (List Char) × Unfinished
  | [] => ([], u)
  | chunk :: chunks =>
    let (text, next) := feed u chunk
    let (texts, last) := feedAll next chunks
    (text :: texts, last)

theorem feedAll_cons (u : Unfinished) (chunk : List UInt8) (chunks : List (List UInt8)) :
    feedAll u (chunk :: chunks) =
      ((feed u chunk).1 :: (feedAll (feed u chunk).2 chunks).1,
        (feedAll (feed u chunk).2 chunks).2) :=
  rfl

/-- Where the bytes are cut makes no difference. -/
theorem feed_flatten (u : Unfinished) (chunks : List (List UInt8)) :
    feed u chunks.flatten = ((feedAll u chunks).1.flatten, (feedAll u chunks).2) := by
  induction chunks generalizing u with
  | nil => rfl
  | cons chunk chunks ih => rw [List.flatten_cons, feed_append, ih, feedAll_cons, List.flatten_cons]

theorem sound_feedAll (chunks : List (List UInt8)) : Sound (feedAll .none chunks).2 := by
  have h := sound_feed .none chunks.flatten
  rwa [feed_flatten] at h

/-- What some chunks have given, and what is pending behind them. -/
structure Streamed (chunks : List (List UInt8)) (texts : List (List Char)) (u : Unfinished) :
    Prop where
  /-- The texts and the decoding of what is pending are the decoding of all bytes at once. -/
  whole : String.ofList texts.flatten ++ decode u.bytes = decode chunks.flatten
  /-- Nothing is pending, or a proper beginning of one well-formed sequence. -/
  pending : u.bytes = [] ∨ Partial u.bytes
  length_le : u.bytes.length ≤ 3
  /-- What comes of one more chunk is taken from the pending bytes and the chunk, and nothing else
  can be taken from them. -/
  next : ∀ {chunk text left}, Takes (u.bytes ++ chunk) text left ↔
    text = (feed u chunk).1 ∧ left = (feed u chunk).2.bytes
  /-- Well-formed bytes give the text they encode. -/
  valid : ∀ {text}, chunks.flatten = encode text → texts.flatten = text ∧ u.bytes = []

/-- **Bytes that come in chunks are decoded as if they came at once**, wherever they are cut. -/
theorem feedAll_streamed :
    (∀ bytes text, Lossy bytes text ↔ decode bytes = String.ofList text) ∧
      ∀ chunks, Streamed chunks (feedAll .none chunks).1 (feedAll .none chunks).2 := by
  refine ⟨fun _ _ => lossy_iff, fun chunks => ?_⟩
  have hsound := sound_feedAll chunks
  have hflatten := feed_flatten .none chunks
  generalize feedAll .none chunks = fed at hsound hflatten
  obtain ⟨texts, u⟩ := fed
  have hpending : u.bytes = [] ∨ Partial u.bytes := hsound.imp (congrArg _) Begun.partial
  have htakes : Takes chunks.flatten texts.flatten u.bytes := by
    rw [← List.nil_append chunks.flatten]
    exact (takes_iff .none).2 (by rw [hflatten]; exact ⟨rfl, rfl⟩)
  constructor
  case whole =>
    have hleft := lossy_iff.1 (lossy_finish hsound)
    rw [lossy_iff.1 (htakes.lossy (lossy_finish hsound)), hleft, String.ofList_append]
  case pending => exact hpending
  case length_le =>
    rcases hpending with h | h
    · simp [h]
    · exact h.length_le
  case next => exact takes_iff hsound
  case valid =>
    intro text htext
    rw [htext, feed_text] at hflatten
    obtain ⟨rfl, rfl⟩ := Prod.mk.inj hflatten
    exact ⟨rfl, rfl⟩

/-- A character that is cut between two chunks, and one that the next chunk does not go on with. -/
example : feedAll .none [[0xE2, 0x82], [0xAC, 0xF0, 0x9F], [0x41]] =
    ([[], ['€'], [replacement, 'A']], .none) := by decide

end SecurityKey.Text.Utf8
