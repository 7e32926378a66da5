import SecurityKey.Proofs.Conversation
/-!
# Output that arrives in time

Time passes only in the pauses of the tool, and only while a wait is running. So what a wait has to
bear of a script is the pauses that it makes while the text it has emitted leaves this wait running
(`pausesWhile`). A tool that waits for lines goes on if they were sent by then (`served`).

`Arrival` is how a wait ends by what arrives: a mark or the end comes by the deadline, or the pauses
are longer than the wait, or the tool never goes on. Except in the last case it says how much of the
pauses was borne and what is left of the script (`Borne`).

Main statements: `expect_arrival`, and `expectEnd_iff`: a wait for the end comes to it exactly if
the tool is served and its pauses are no longer than the wait.
-/

namespace SecurityKey.Conversation

open Text

/-! ## Pauses and lines -/

/-- Output and pauses, and nothing else. -/
def Flowing (cues : List (Cue String)) : Prop :=
  ∀ cue ∈ cues, (∃ chunk, cue = .emit chunk) ∨ ∃ ms, cue = .delay ms

/-- The time that all pauses take together. -/
def pauses : List (Cue String) → Nat
  | [] => 0
  | .delay ms :: cues => ms + pauses cues
  | _ :: cues => pauses cues

/-- How long the tool pauses in all while `running` holds of what it has emitted, which was `text`
before these cues. -/
def pausesWhile (running : List Char → Bool) (text : List Char) : List (Cue String) → Nat
  | [] => 0
  | .emit chunk :: cues => pausesWhile running (text ++ chunk.toList) cues
  | .delay ms :: cues => (if running text then ms else 0) + pausesWhile running text cues
  | _ :: cues => pausesWhile running text cues

/-- Whether the tool comes to the end of its output if it is sent lines while it emits text: `lines`
is how many of them for so much text. It has emitted `text` and read `count` lines before. -/
def served (lines : List Char → Nat) (text : List Char) (count : Nat) : List (Cue String) → Bool
  | [] => true
  | .emit chunk :: cues => served lines (text ++ chunk.toList) count cues
  | .delay _ :: cues => served lines text count cues
  | .awaitLine :: cues => count < lines text && served lines text (count + 1) cues
  | .hang :: _ | .readError _ :: _ => false

/-- How many lines were sent: those that the tool has read, and those that it has still to read. -/
def sent (talk : Conversation) : Nat :=
  talk.heard.length + talk.outbox.length

variable {running other : List Char → Bool} {lines more : List Char → Nat} {text left : List Char}
  {count : Nat} {cues : List (Cue String)}

/-- Only what is emitted from here on makes a difference. -/
theorem pausesWhile_congr (h : ∀ rest, running (text ++ rest) = other (left ++ rest)) :
    pausesWhile running text cues = pausesWhile other left cues := by
  induction cues generalizing text left with
  | nil => rfl
  | cons cue cues ih =>
    have hhere : running text = other left := by simpa using h []
    cases cue with
    | emit chunk => exact ih fun rest => by simpa using h (chunk.toList ++ rest)
    | delay ms => rw [pausesWhile, pausesWhile, hhere, ih h]
    | awaitLine => exact ih h
    | hang => exact ih h
    | readError reason => exact ih h

theorem served_congr (h : ∀ rest, lines (text ++ rest) = more (left ++ rest)) :
    served lines text count cues = served more left count cues := by
  induction cues generalizing text left count with
  | nil => rfl
  | cons cue cues ih =>
    have hhere : lines text = more left := by simpa using h []
    cases cue with
    | emit chunk => exact ih fun rest => by simpa using h (chunk.toList ++ rest)
    | delay ms => exact ih h
    | awaitLine => rw [served, served, hhere, ih h]
    | hang => rfl
    | readError reason => rfl

theorem pausesWhile_true (text : List Char) (cues : List (Cue String)) :
    pausesWhile (fun _ => true) text cues = pauses cues := by
  induction cues generalizing text with
  | nil => rfl
  | cons cue cues ih =>
    cases cue with
    | emit chunk => exact ih _
    | delay ms => rw [pausesWhile, if_pos rfl, ih, pauses]
    | awaitLine => exact ih text
    | hang => exact ih text
    | readError reason => exact ih text

/-- The tool pauses while something holds or while it does not. -/
theorem pausesWhile_add (h : ∀ text, other text = !running text) :
    pausesWhile running text cues + pausesWhile other text cues = pauses cues := by
  induction cues generalizing text with
  | nil => rfl
  | cons cue cues ih =>
    cases cue with
    | emit chunk => exact ih
    | delay ms =>
      have hrest := @ih text
      simp only [pausesWhile, pauses, h]
      cases running text <;> simp <;> omega
    | awaitLine => exact ih
    | hang => exact ih
    | readError reason => exact ih

theorem pausesWhile_le_pauses : pausesWhile running text cues ≤ pauses cues := by
  have hall : pausesWhile running text cues + pausesWhile (fun text => !running text) text cues =
      pauses cues := pausesWhile_add fun _ => rfl
  omega

theorem pausesWhile_eq_zero (h : ∀ rest, running (text ++ rest) = false) :
    pausesWhile running text cues = 0 := by
  have hnever : pausesWhile running text cues = pausesWhile (fun _ => false) text cues :=
    pausesWhile_congr h
  have hall : pausesWhile (fun _ => false) text cues + pausesWhile (fun _ => true) text cues =
      pauses cues := pausesWhile_add fun _ => rfl
  rw [pausesWhile_true] at hall
  omega

theorem flowing_emit (pieces : List String) : Flowing (pieces.map .emit) := by
  intro cue hcue
  obtain ⟨piece, _, rfl⟩ := List.mem_map.1 hcue
  exact .inl ⟨piece, rfl⟩

theorem pauses_emit (pieces : List String) : pauses (pieces.map .emit) = 0 := by
  induction pieces with
  | nil => rfl
  | cons piece pieces ih => simpa [pauses] using ih

theorem Flowing.tail {cue : Cue String} (h : Flowing (cue :: cues)) : Flowing cues :=
  fun other hmem => h other (List.mem_cons_of_mem cue hmem)

/-- A tool that waits for no line needs none. -/
theorem Flowing.served (h : Flowing cues) : served lines text count cues := by
  induction cues generalizing text with
  | nil => rfl
  | cons cue cues ih =>
    rcases h cue List.mem_cons_self with ⟨chunk, rfl⟩ | ⟨ms, rfl⟩
    · exact ih h.tail
    · exact ih h.tail

/-! ## One wait -/

/-- A function of the text has this value as long as none of the marks is in the text. -/
def Steady {α : Type} (marks : List String) (f : List Char → α) (value : α) : Prop :=
  ∀ text, earliest? (marks.map String.toList) text = none → f text = value

theorem Steady.map {α β : Type} {marks : List String} {f : List Char → α} {value : α} (g : α → β)
    (h : Steady marks f value) : Steady marks (fun text => g (f text)) (g value) :=
  fun text hnone => congrArg g (h text hnone)

variable {marks : List String} {talk begun after : Conversation} {cue : Cue String}
  {rest last : List (Cue String)} {deadline since within passed ms : Nat}
  {ending : Except Failure Wait × Conversation} {result : Except Failure Wait}

@[simp] theorem heard_pass (since time : Nat) : (talk.pass since time).heard = talk.heard := by
  unfold pass; split_ifs <;> rfl

@[simp] theorem sent_pass (since time : Nat) : (talk.pass since time).sent = talk.sent := by
  rw [sent, sent, heard_pass, outbox_pass]

@[simp] theorem buffer_giveUp (since deadline : Nat) :
    (talk.giveUp cues since deadline).2.buffer = talk.buffer :=
  talk.buffer_pass since deadline

@[simp] theorem heard_giveUp (since deadline : Nat) :
    (talk.giveUp cues since deadline).2.heard = talk.heard :=
  talk.heard_pass since deadline

/-- A wait that has played some of the cues and has `rest` still to play. By then the tool has
emitted `text`, without a mark before its last piece, and has paused for the time that has
passed. -/
structure Borne (marks : List String) (talk : Conversation) (cues : List (Cue String))
    (text : List Char) (after : Conversation) (rest : List (Cue String)) (passed : Nat) : Prop where
  pauses : ∀ (running : List Char → Bool) (always : Bool), Steady marks running always →
    pausesWhile running talk.buffer.toList cues =
      (if always then passed else 0) + pausesWhile running text rest
  served : ∀ lines, Steady marks lines talk.sent →
    served lines talk.buffer.toList talk.heard.length cues =
      served lines text after.heard.length rest
  sent : after.sent = talk.sent
  sendFailsAt : after.sendFailsAt = talk.sendFailsAt

namespace Borne

/-- Nothing was played. -/
theorem still (heard : after.heard = talk.heard) (sent : after.sent = talk.sent)
    (sendFailsAt : after.sendFailsAt = talk.sendFailsAt) :
    Borne marks talk cues talk.buffer.toList after cues 0 where
  pauses := by
    intro running always _
    cases always <;> exact (Nat.zero_add _).symm
  served := by
    intro lines _
    rw [heard]
  sent := sent
  sendFailsAt := sendFailsAt

theorem trans (h : Borne marks talk cues begun.buffer.toList begun rest ms)
    (h' : Borne marks begun rest text after last passed) :
    Borne marks talk cues text after last (ms + passed) where
  pauses := by
    intro running always hrunning
    rw [h.pauses running always hrunning, h'.pauses running always hrunning]
    cases always with
    | false => simp
    | true => exact (Nat.add_assoc _ _ _).symm
  served := by
    intro lines hlines
    rw [h.served lines hlines, h'.served lines (by rwa [h.sent])]
  sent := h'.sent.trans h.sent
  sendFailsAt := h'.sendFailsAt.trans h.sendFailsAt

theorem pauses_eq (h : Borne marks talk cues text after rest passed) :
    Conversation.pauses cues = passed + Conversation.pauses rest := by
  have hall := h.pauses (fun _ => true) true fun _ _ => rfl
  rwa [pausesWhile_true, pausesWhile_true, if_pos rfl] at hall

theorem emit (talk : Conversation) (chunk : String) (cues : List (Cue String)) :
    Borne marks talk (.emit chunk :: cues) (talk.buffer ++ chunk).toList
      ({ talk with buffer := talk.buffer ++ chunk }.record (.read chunk)) cues 0 where
  pauses := by
    intro running always _
    rw [pausesWhile, String.toList_append]
    cases always <;> exact (Nat.zero_add _).symm
  served := by
    intro lines _
    rw [Conversation.served, String.toList_append]
    rfl
  sent := rfl
  sendFailsAt := rfl

theorem delay (hfind : find? marks talk.buffer = none) (since time : Nat) :
    Borne marks talk (.delay ms :: cues) (talk.pass since time).buffer.toList
      (talk.pass since time) cues ms where
  pauses := by
    intro running always hrunning
    rw [pausesWhile, hrunning _ hfind, buffer_pass]
  served := by
    intro lines _
    rw [Conversation.served, buffer_pass, heard_pass]
  sent := talk.sent_pass since time
  sendFailsAt := talk.sendFailsAt_pass since time

theorem heard {line : String} {outbox : List String} (hfind : find? marks talk.buffer = none)
    (hbox : talk.outbox = line :: outbox) :
    Borne marks talk (.awaitLine :: cues) talk.buffer.toList
      { talk with outbox, heard := talk.heard ++ [line] } cues 0 where
  pauses := by
    intro running always _
    cases always <;> exact (Nat.zero_add _).symm
  served := by
    intro lines hlines
    have hsent : talk.heard.length < lines talk.buffer.toList := by
      rw [hlines _ hfind, Conversation.sent, hbox, List.length_cons]
      omega
    simp [Conversation.served, hsent]
  sent := by
    simp only [Conversation.sent, hbox, List.length_append, List.length_cons, List.length_nil]
    omega
  sendFailsAt := rfl

/-- A pause that is longer than what is left of the wait. -/
theorem late (hfind : find? marks talk.buffer = none) (hlate : within < ms)
    (since deadline : Nat) :
    Borne marks talk (.delay ms :: cues) talk.buffer.toList
      (talk.giveUp (.delay (ms - within) :: cues) since deadline).2 (.delay (ms - within) :: cues)
      within where
  pauses := by
    intro running always hrunning
    simp only [pausesWhile, hrunning _ hfind]
    cases always with
    | false => simp
    | true =>
      simp only [if_true]
      omega
  served := by
    intro lines _
    rw [Conversation.served, Conversation.served, heard_giveUp]
  sent := talk.sent_pass since deadline
  sendFailsAt := talk.sendFailsAt_pass since deadline

/-- A wait that ends at its deadline without having played the next cue. -/
theorem giveUp (talk : Conversation) (cues : List (Cue String)) (since deadline : Nat) :
    Borne marks talk cues talk.buffer.toList (talk.giveUp cues since deadline).2 cues 0 :=
  .still (talk.heard_giveUp since deadline) (talk.sent_pass since deadline)
    (talk.sendFailsAt_pass since deadline)

end Borne

/-- How a wait of so many milliseconds ends. -/
inductive Arrival (marks : List String) (within : Nat) (talk : Conversation)
    (cues : List (Cue String)) (after : Conversation) : Except Failure Wait → Prop
  | matched {before : String} {text : List Char} {passed : Nat} (found : Found) :
      earliest? (marks.map String.toList) text = some found →
      after.buffer.toList = found.after → passed ≤ within →
      Borne marks talk cues text after after.cues passed →
      Arrival marks within talk cues after (.ok (.matched found.index before))
  | ended {before : String} {text : List Char} {passed : Nat} :
      passed ≤ within → Borne marks talk cues text after [] passed →
      Arrival marks within talk cues after (.ok (.ended before))
  /-- No mark has come, and more pauses are left. -/
  | late {before : String} :
      (∀ running, Steady marks running true →
        0 < pausesWhile running after.buffer.toList after.cues) →
      Borne marks talk cues after.buffer.toList after after.cues within →
      Arrival marks within talk cues after (.ok (.timedOut before))
  /-- The tool does not go on. -/
  | stuck {before : String} (passed : Nat) :
      (∀ lines, Steady marks lines talk.sent →
        served lines after.buffer.toList after.heard.length after.cues = false) →
      Borne marks talk cues after.buffer.toList after after.cues passed →
      Arrival marks within talk cues after (.ok (.timedOut before))
  | failed {failure : Failure} :
      (∀ lines, Steady marks lines talk.sent →
        served lines talk.buffer.toList talk.heard.length cues = false) →
      Arrival marks within talk cues after (.error failure)

/-- A wait that plays one cue and then goes on. -/
theorem Arrival.cons (h : Arrival marks within begun cues after result)
    (hborne : Borne marks talk (cue :: cues) begun.buffer.toList begun cues ms) :
    Arrival marks (ms + within) talk (cue :: cues) after result := by
  cases h with
  | matched found hfound hbuffer hpassed h =>
    exact .matched found hfound hbuffer (Nat.add_le_add_left hpassed ms) (hborne.trans h)
  | ended hpassed h => exact .ended (Nat.add_le_add_left hpassed ms) (hborne.trans h)
  | late hleft h => exact .late hleft (hborne.trans h)
  | stuck passed hunserved h =>
    refine .stuck (ms + passed) ?_ (hborne.trans h)
    rwa [← hborne.sent]
  | failed hunserved =>
    refine .failed fun lines hlines => ?_
    rw [hborne.served lines hlines]
    exact hunserved lines (by rwa [hborne.sent])

/-- **What arrives in a wait**, by the cues that it plays. -/
theorem Listening.arrival (h : Listening marks deadline since talk cues ending)
    (hdeadline : talk.clock + within = deadline) :
    Arrival marks within talk cues ending.2 ending.1 := by
  -- What is left of the wait falls with each pause that is borne.
  induction h generalizing within with
  | found hfind =>
    exact .matched _ hfind String.toList_ofList (Nat.zero_le within) (.still rfl rfl rfl)
  | ended => exact .ended (Nat.zero_le within) (.still rfl rfl rfl)
  | @emit since talk cues ending chunk _ _ ih =>
    rw [← Nat.zero_add within]
    exact (ih hdeadline).cons (.emit talk chunk cues)
  | @delay since talk cues ending ms hfind hdue _ ih =>
    obtain ⟨left, rfl⟩ := Nat.exists_eq_add_of_le (show ms ≤ within by omega)
    refine (ih ?_).cons (.delay hfind _ _)
    rw [clock_pass (Nat.le_add_right _ _)]
    omega
  | @late since talk cues ms hfind hlate =>
    have hless : within < ms := by omega
    have hleft : talk.clock + ms - deadline = ms - within := by omega
    rw [hleft]
    refine .late ?_ ?_
    · intro running hrunning
      rw [buffer_giveUp]
      simp only [giveUp, record, pausesWhile, hrunning _ hfind, if_true]
      omega
    · rw [buffer_giveUp]
      exact .late hfind hless since deadline
  | @heard since talk cues ending line outbox hfind hbox _ ih =>
    rw [← Nat.zero_add within]
    exact (ih hdeadline).cons (.heard hfind hbox)
  | @unheard since talk cues hfind hbox =>
    refine .stuck 0 ?_ ?_
    · intro lines hlines
      rw [buffer_giveUp, heard_giveUp]
      simp [giveUp, record, served, hlines _ hfind, sent, hbox]
    · rw [buffer_giveUp]
      exact .giveUp talk _ since deadline
  | @hang since talk cues hfind =>
    refine .stuck 0 (fun _ _ => rfl) ?_
    rw [buffer_giveUp]
    exact .giveUp talk _ since deadline
  | failed => exact .failed fun _ _ => rfl

theorem expect_arrival (hexpect : talk.expect marks within = (result, after)) :
    Arrival marks within talk talk.cues after result := by
  have h := (listening marks (talk.clock + within) talk.clock talk talk.cues).arrival rfl
  rwa [← expect, hexpect] at h

/-! ## Waiting for the end -/

/-- A wait for the end comes to it exactly if the tool is served and its pauses are no longer than
the wait. -/
theorem expectEnd_iff (hexpect : talk.expectEnd within = (result, after)) :
    (∃ before, result = .ok (.ended before)) ↔
      served (fun _ => talk.sent) talk.buffer.toList talk.heard.length talk.cues ∧
        pauses talk.cues ≤ within := by
  have hlines : Steady ([] : List String) (fun _ => talk.sent) talk.sent := fun _ _ => rfl
  cases expect_arrival hexpect with
  | matched found hfound => simp at hfound
  | ended hpassed h =>
    refine iff_of_true ⟨_, rfl⟩ ⟨h.served _ hlines, ?_⟩
    rw [h.pauses_eq]
    exact hpassed
  | late hleft h =>
    have hmore := hleft (fun _ => true) fun _ _ => rfl
    have hpassed := h.pauses_eq
    rw [pausesWhile_true] at hmore
    exact iff_of_false (by simp) (by omega)
  | stuck passed hunserved h =>
    rw [h.served _ hlines, hunserved _ hlines]
    simp
  | failed hunserved =>
    rw [hunserved _ hlines]
    simp

/-- A wait for the end behind another wait: both together come to it. -/
theorem Borne.expectEnd_iff {last : Conversation}
    (h : Borne marks talk talk.cues text after after.cues passed)
    (hexpect : after.expectEnd within = (result, last)) :
    (∃ before, result = .ok (.ended before)) ↔
      Conversation.served (fun _ => talk.sent) talk.buffer.toList talk.heard.length talk.cues ∧
        Conversation.pauses talk.cues ≤ passed + within := by
  have hserved : Conversation.served (fun _ => talk.sent) text after.heard.length after.cues =
      Conversation.served (fun _ => talk.sent) after.buffer.toList after.heard.length after.cues :=
    served_congr fun _ => rfl
  rw [Conversation.expectEnd_iff hexpect, h.sent, h.served _ fun _ _ => rfl, hserved,
    h.pauses_eq, Nat.add_le_add_iff_left]

end SecurityKey.Conversation
