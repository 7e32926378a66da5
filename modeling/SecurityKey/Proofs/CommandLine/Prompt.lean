import Mathlib.Tactic.Common
import SecurityKey.CommandLine.Prompt
import SecurityKey.Proofs.Text.Blank
/-!
# Asking for a new PIN

The question for a new PIN is a loop with two ways round: an empty entry is asked for again alone,
and two entries that differ are both asked for again. Nothing in the input marks where a turn ends,
so what two equal lines mean depends on all lines before them.

**Turns.** `askOnce` is one turn of the loop, to which every line behind the end of the input is
empty, and `askFor` is the loop for so many turns. Where `askNewPin` finds a PIN, the loop comes to
it in as many turns as there are lines (`askFor_of_some`); where it finds none, the loop goes on for
as many turns as there may be, and asks in each of them (`askFor_of_none`).

**Turns in vain.** `Vain` are the lines of a turn that comes to nothing. There is one way only in
which lines fall into such turns (`flatten_inj`), and the first two lines behind them that are not
such a turn are the answer (`askNewPin_eq_some_iff`).

Main statements: `askFor_settled`, `askNewPin_entered`.
-/

namespace SecurityKey.CommandLine

open Text

/-! ## Turns -/

/-- One turn of the question: what is printed, the new PIN if the entries are one, and the input
after them. -/
def askOnce (input : List String) : String × Option NewPin × List String :=
  let (first, rest) := nextLine input
  if first.isEmpty then (newPinPrompt ++ "The PIN must not be empty.\n", none, rest)
  else
    let (again, rest) := nextLine rest
    match NewPin.confirm? ⟨first⟩ ⟨again⟩ with
    | some newPin => (newPinPrompt ++ samePinPrompt, some newPin, rest)
    | none =>
      (newPinPrompt ++ samePinPrompt ++ "The PINs do not match, try again.\n", none, rest)

/-- The question for at most so many turns. -/
def askFor : Nat → List String → String × Option (NewPin × List String)
  | 0, _ => ("", none)
  | turns + 1, input =>
    match askOnce input with
    | (printed, some newPin, rest) => (printed, some (newPin, rest))
    | (printed, none, rest) =>
      let (more, answer) := askFor turns rest
      (printed ++ more, answer)

/-- The prompt was printed at least so often. -/
inductive Prompted : Nat → String → Prop
  | zero : Prompted 0 ""
  | succ {turns : Nat} {more : String} (text : String) :
      Prompted turns more → Prompted (turns + 1) (newPinPrompt ++ text ++ more)

/-- How a turn goes, by the lines that are entered. -/
inductive Turn (input : List String) : String × Option NewPin × List String → Prop
  | empty {rest : List String} :
      nextLine input = ("", rest) →
      Turn input (newPinPrompt ++ "The PIN must not be empty.\n", none, rest)
  | mismatch {first again : String} {middle rest : List String} :
      nextLine input = (first, middle) → nextLine middle = (again, rest) →
      first ≠ "" → first ≠ again →
      Turn input
        (newPinPrompt ++ samePinPrompt ++ "The PINs do not match, try again.\n", none, rest)
  | confirmed {entry : String} {middle rest : List String} :
      nextLine input = (entry, middle) → nextLine middle = (entry, rest) → entry ≠ "" →
      Turn input (newPinPrompt ++ samePinPrompt, some ⟨⟨entry⟩⟩, rest)

variable {input rest : List String} {first again printed : String} {newPin : NewPin}

theorem nextLine_cons (line : String) (rest : List String) :
    nextLine (line :: rest) = (line, rest) :=
  rfl

theorem confirm?_self (pin : Pin) : NewPin.confirm? pin pin = some ⟨pin⟩ :=
  if_pos rfl

theorem confirm?_of_ne (h : first ≠ again) : NewPin.confirm? ⟨first⟩ ⟨again⟩ = none :=
  if_neg fun hsame => h (congrArg Pin.text hsame)

section Turns

variable {middle : List String}

theorem askOnce_empty (h : nextLine input = ("", rest)) :
    askOnce input = (newPinPrompt ++ "The PIN must not be empty.\n", none, rest) := by
  rw [askOnce, h]
  exact if_pos (by decide)

theorem askOnce_mismatch (h : nextLine input = (first, middle))
    (hagain : nextLine middle = (again, rest)) (hne : first ≠ "") (hdiffer : first ≠ again) :
    askOnce input =
      (newPinPrompt ++ samePinPrompt ++ "The PINs do not match, try again.\n", none, rest) := by
  rw [askOnce, h]
  dsimp only
  rw [if_neg (by simpa using hne), hagain]
  dsimp only
  rw [confirm?_of_ne hdiffer]

theorem askOnce_same (h : nextLine input = (first, middle))
    (hagain : nextLine middle = (first, rest)) (hne : first ≠ "") :
    askOnce input = (newPinPrompt ++ samePinPrompt, some ⟨⟨first⟩⟩, rest) := by
  rw [askOnce, h]
  dsimp only
  rw [if_neg (by simpa using hne), hagain]
  dsimp only
  rw [confirm?_self]

end Turns

theorem turn_askOnce (input : List String) : Turn input (askOnce input) := by
  rcases hfirst : nextLine input with ⟨first, middle⟩
  rcases hagain : nextLine middle with ⟨again, rest⟩
  by_cases hempty : first = ""
  · subst hempty
    rw [askOnce_empty hfirst]
    exact .empty hfirst
  by_cases hsame : first = again
  · subst hsame
    rw [askOnce_same hfirst hagain hempty]
    exact .confirmed hfirst hagain hempty
  · rw [askOnce_mismatch hfirst hagain hempty hsame]
    exact .mismatch hfirst hagain hempty hsame

theorem askOnce_prompts (input : List String) :
    ∃ text, (askOnce input).1 = newPinPrompt ++ text := by
  have hturn := turn_askOnce input
  generalize askOnce input = outcome at hturn
  cases hturn with
  | empty _ => exact ⟨_, rfl⟩
  | mismatch _ _ _ _ => exact ⟨_, String.append_assoc ..⟩
  | confirmed _ _ _ => exact ⟨_, rfl⟩

/-! ## The question over the lines that there are -/

theorem askNewPin_empty (rest : List String) :
    askNewPin ("" :: rest) =
      (newPinPrompt ++ "The PIN must not be empty.\n" ++ (askNewPin rest).1,
        (askNewPin rest).2) := by
  rw [askNewPin.eq_def]
  exact if_pos (by decide)

theorem askNewPin_single (h : first ≠ "") :
    askNewPin [first] = (newPinPrompt ++ samePinPrompt, none) := by
  rw [askNewPin, if_neg (by simpa using h)]

theorem askNewPin_mismatch (h : first ≠ "") (hdiffer : first ≠ again) (rest : List String) :
    askNewPin (first :: again :: rest) =
      (newPinPrompt ++ samePinPrompt ++ "The PINs do not match, try again.\n" ++
        (askNewPin rest).1, (askNewPin rest).2) := by
  rw [askNewPin, if_neg (by simpa using h)]
  dsimp only
  rw [confirm?_of_ne hdiffer]

theorem askNewPin_same (h : first ≠ "") (rest : List String) :
    askNewPin (first :: first :: rest) =
      (newPinPrompt ++ samePinPrompt, some (⟨⟨first⟩⟩, rest)) := by
  rw [askNewPin, if_neg (by simpa using h)]
  dsimp only
  rw [confirm?_self]

/-- Lines are taken turn by turn: an empty entry is a turn by itself, any other one has another
entry to it. -/
theorem turn_induction {α : Type} (entry : α → String) {motive : List α → Prop}
    (nil : motive [])
    (empty : ∀ line rest, entry line = "" → motive rest → motive (line :: rest))
    (single : ∀ line, entry line ≠ "" → motive [line])
    (mismatch : ∀ first again rest, entry first ≠ "" → entry first ≠ entry again → motive rest →
      motive (first :: again :: rest))
    (confirmed : ∀ first again rest, entry first ≠ "" → entry again = entry first →
      motive (first :: again :: rest)) : ∀ lines, motive lines
  | [] => nil
  | line :: rest => by
    by_cases hempty : entry line = ""
    · exact empty line rest hempty
        (turn_induction entry nil empty single mismatch confirmed rest)
    match rest with
    | [] => exact single line hempty
    | again :: rest =>
      by_cases hsame : entry again = entry line
      · exact confirmed line again rest hempty hsame
      · exact mismatch line again rest hempty (Ne.symm hsame)
          (turn_induction entry nil empty single mismatch confirmed rest)

/-! ## The loop and its end -/

/-- A turn that comes to a PIN is the end of the question. -/
theorem askNewPin_of_confirmed (h : askOnce input = (printed, some newPin, rest)) :
    (askNewPin input).2 = some (newPin, rest) := by
  have hturn := turn_askOnce input
  rw [h] at hturn
  cases hturn with
  | @confirmed entry middle _ hfirst hagain hne =>
    match input with
    | [] => exact absurd (congrArg Prod.fst hfirst).symm hne
    | [first] =>
      obtain ⟨rfl, rfl⟩ := Prod.mk.inj hfirst
      exact absurd (congrArg Prod.fst hagain).symm hne
    | first :: again :: rest =>
      obtain ⟨rfl, rfl⟩ := Prod.mk.inj hfirst
      obtain ⟨rfl, rfl⟩ := Prod.mk.inj hagain
      rw [askNewPin_same hne]

/-- After a turn in vain, the rest of the input decides. -/
theorem askNewPin_of_vain (h : askOnce input = (printed, none, rest)) :
    (askNewPin input).2 = (askNewPin rest).2 := by
  have hturn := turn_askOnce input
  rw [h] at hturn
  cases hturn with
  | empty hfirst =>
    match input with
    | [] =>
      obtain ⟨-, rfl⟩ := Prod.mk.inj hfirst
      rfl
    | line :: rest =>
      obtain ⟨rfl, rfl⟩ := Prod.mk.inj hfirst
      rw [askNewPin_empty]
  | @mismatch first again middle _ hfirst hagain hne hdiffer =>
    match input with
    | [] => exact absurd (congrArg Prod.fst hfirst).symm hne
    | [line] =>
      obtain ⟨rfl, rfl⟩ := Prod.mk.inj hfirst
      obtain ⟨-, rfl⟩ := Prod.mk.inj hagain
      rw [askNewPin_single hne]
      rfl
    | line :: other :: rest =>
      obtain ⟨rfl, rfl⟩ := Prod.mk.inj hfirst
      obtain ⟨rfl, rfl⟩ := Prod.mk.inj hagain
      rw [askNewPin_mismatch hne hdiffer]

/-- The loop comes to nothing that the input does not hold. -/
theorem askFor_of_none (h : (askNewPin input).2 = none) (turns : Nat) :
    (askFor turns input).2 = none ∧ Prompted turns (askFor turns input).1 := by
  induction turns generalizing input with
  | zero => exact ⟨rfl, .zero⟩
  | succ turns ih =>
    obtain ⟨text, htext⟩ := askOnce_prompts input
    rw [askFor]
    rcases hturn : askOnce input with ⟨printed, _ | newPin, rest⟩
    · rw [hturn] at htext
      have hrest := ih ((askNewPin_of_vain hturn).symm.trans h)
      refine ⟨hrest.1, ?_⟩
      show Prompted _ (printed ++ _)
      rw [show printed = _ from htext]
      exact .succ text hrest.2
    · rw [askNewPin_of_confirmed hturn] at h
      cases h

/-- The loop comes to what the input holds, in as many turns as there are lines. -/
theorem askFor_of_some {α : Type} {entry : α → String} {lines : List α}
    (h : (askNewPin (lines.map entry)).2 = some (newPin, rest)) {turns : Nat}
    (hturns : lines.length ≤ turns) :
    askFor turns (lines.map entry) = askNewPin (lines.map entry) := by
  induction lines using turn_induction entry generalizing turns with
  | nil => cases h
  | empty line left hempty ih =>
    obtain ⟨turns, rfl⟩ := Nat.exists_eq_add_one_of_ne_zero (Nat.ne_zero_of_lt hturns)
    rw [List.map_cons, hempty, askNewPin_empty] at h ⊢
    rw [askFor, askOnce_empty (nextLine_cons ..)]
    dsimp only
    rw [ih h (Nat.le_of_succ_le_succ hturns)]
  | single line hne =>
    rw [List.map_singleton, askNewPin_single hne] at h
    cases h
  | mismatch first again left hne hdiffer ih =>
    obtain ⟨turns, rfl⟩ := Nat.exists_eq_add_one_of_ne_zero (Nat.ne_zero_of_lt hturns)
    rw [List.map_cons, List.map_cons, askNewPin_mismatch hne hdiffer] at h ⊢
    rw [askFor, askOnce_mismatch (nextLine_cons ..) (nextLine_cons ..) hne hdiffer]
    dsimp only
    rw [ih h (Nat.le_of_lt (Nat.le_of_succ_le_succ hturns))]
  | confirmed first again left hne hsame =>
    obtain ⟨turns, rfl⟩ := Nat.exists_eq_add_one_of_ne_zero (Nat.ne_zero_of_lt hturns)
    rw [List.map_cons, List.map_cons, hsame, askNewPin_same hne, askFor,
      askOnce_same (nextLine_cons ..) (nextLine_cons ..) hne]

/-! ## Turns in vain -/

section Vain

variable {α : Type} {entry : α → String} {group other : List α} {groups others : List (List α)}

/-- The lines of a turn that comes to nothing: an empty entry, or two that differ. -/
inductive Vain (entry : α → String) : List α → Prop
  | empty {line : α} : entry line = "" → Vain entry [line]
  | mismatch {first again : α} :
      entry first ≠ "" → entry first ≠ entry again → Vain entry [first, again]

/-- Where lines begin with a turn in vain, they do so in one way only. -/
theorem Vain.append_inj (h : Vain entry group) (h' : Vain entry other) {rest rest' : List α}
    (heq : group ++ rest = other ++ rest') : group = other ∧ rest = rest' := by
  cases h with
  | empty hempty =>
    cases h' with
    | empty _ =>
      obtain ⟨rfl, rfl⟩ := List.cons.inj heq
      exact ⟨rfl, rfl⟩
    | mismatch hne _ =>
      obtain ⟨rfl, -⟩ := List.cons.inj heq
      exact absurd hempty hne
  | mismatch hne _ =>
    cases h' with
    | empty hempty =>
      obtain ⟨rfl, -⟩ := List.cons.inj heq
      exact absurd hempty hne
    | mismatch _ _ =>
      obtain ⟨rfl, htail⟩ := List.cons.inj heq
      obtain ⟨rfl, rfl⟩ := List.cons.inj htail
      exact ⟨rfl, rfl⟩

theorem Vain.ne_nil (h : Vain entry group) : group ≠ [] := by
  cases h <;> exact List.cons_ne_nil _ _

/-- **Lines fall into turns in vain in one way only.** -/
theorem flatten_inj (h : ∀ group ∈ groups, Vain entry group)
    (h' : ∀ group ∈ others, Vain entry group) (heq : groups.flatten = others.flatten) :
    groups = others := by
  induction groups generalizing others with
  | nil =>
    cases others with
    | nil => rfl
    | cons other others =>
      have hnil : other = [] := (List.append_eq_nil_iff.1 heq.symm).1
      exact absurd hnil (h' other List.mem_cons_self).ne_nil
  | cons group groups ih =>
    cases others with
    | nil =>
      have hnil : group = [] := (List.append_eq_nil_iff.1 heq).1
      exact absurd hnil (h group List.mem_cons_self).ne_nil
    | cons other others =>
      obtain ⟨rfl, hrest⟩ :=
        (h group List.mem_cons_self).append_inj (h' other List.mem_cons_self) heq
      rw [ih (fun g hg => h g (List.mem_cons_of_mem _ hg))
        (fun g hg => h' g (List.mem_cons_of_mem _ hg)) hrest]

/-- What is printed in turns in vain, and that the lines behind them decide. -/
theorem askNewPin_flatten (h : ∀ group ∈ groups, Vain entry group) :
    ∃ printed, ∀ rest : List α, askNewPin ((groups.flatten ++ rest).map entry) =
      (printed ++ (askNewPin (rest.map entry)).1, (askNewPin (rest.map entry)).2) := by
  induction groups with
  | nil => exact ⟨"", fun rest => by simp⟩
  | cons group groups ih =>
    obtain ⟨printed, ih⟩ := ih fun g hg => h g (List.mem_cons_of_mem _ hg)
    cases h group List.mem_cons_self with
    | empty hempty =>
      refine ⟨newPinPrompt ++ "The PIN must not be empty.\n" ++ printed, fun rest => ?_⟩
      simp only [List.flatten_cons, List.cons_append, List.nil_append, List.map_cons, hempty]
      rw [askNewPin_empty, ih rest, ← String.append_assoc]
    | mismatch hne hdiffer =>
      refine ⟨newPinPrompt ++ samePinPrompt ++ "The PINs do not match, try again.\n" ++ printed,
        fun rest => ?_⟩
      simp only [List.flatten_cons, List.cons_append, List.nil_append, List.map_cons]
      rw [askNewPin_mismatch hne hdiffer, ih rest, ← String.append_assoc]

/-- Two lines that answer the question with a new PIN. -/
structure Confirms (entry : α → String) (newPin : NewPin) (first again : α) : Prop where
  nonempty : newPin.pin.text ≠ ""
  entry_first : entry first = newPin.pin.text
  entry_again : entry again = newPin.pin.text

theorem Confirms.askNewPin {first again : α} (h : Confirms entry newPin first again)
    (rest : List α) : askNewPin ((first :: again :: rest).map entry) =
      (newPinPrompt ++ samePinPrompt, some (newPin, rest.map entry)) := by
  rw [List.map_cons, List.map_cons, h.entry_first, h.entry_again, askNewPin_same h.nonempty]

/-- **What the question comes to**: the first two lines, behind turns in vain, that are the same and
not empty. -/
theorem askNewPin_eq_some_iff {lines : List α} :
    (askNewPin (lines.map entry)).2 = some (newPin, rest) ↔
      ∃ (groups : List (List α)) (first again : α) (after : List α),
        (∀ group ∈ groups, Vain entry group) ∧ Confirms entry newPin first again ∧
          lines = groups.flatten ++ first :: again :: after ∧ rest = after.map entry := by
  constructor
  · intro h
    induction lines using turn_induction entry with
    | nil => cases h
    | empty line left hempty ih =>
      rw [List.map_cons, hempty, askNewPin_empty] at h
      obtain ⟨groups, first, again, after, hvain, hconfirms, rfl, rfl⟩ := ih h
      exact ⟨[line] :: groups, first, again, after,
        List.forall_mem_cons.2 ⟨.empty hempty, hvain⟩, hconfirms, rfl, rfl⟩
    | single line hne =>
      rw [List.map_singleton, askNewPin_single hne] at h
      cases h
    | mismatch line other left hne hdiffer ih =>
      rw [List.map_cons, List.map_cons, askNewPin_mismatch hne hdiffer] at h
      obtain ⟨groups, first, again, after, hvain, hconfirms, rfl, rfl⟩ := ih h
      exact ⟨[line, other] :: groups, first, again, after,
        List.forall_mem_cons.2 ⟨.mismatch hne hdiffer, hvain⟩, hconfirms, rfl, rfl⟩
    | confirmed line other left hne hsame =>
      rw [List.map_cons, List.map_cons, hsame, askNewPin_same hne] at h
      obtain ⟨rfl, rfl⟩ := Prod.mk.inj (Option.some.inj h)
      exact ⟨[], line, other, left, List.forall_mem_nil _, ⟨hne, rfl, hsame⟩, rfl, rfl⟩
  · rintro ⟨groups, first, again, after, hvain, hconfirms, rfl, rfl⟩
    obtain ⟨printed, hprinted⟩ := askNewPin_flatten hvain
    rw [hprinted, hconfirms.askNewPin]

end Vain

/-! ## Over the lines of the input -/

/-- A line of the input as an entry. -/
def entryOf (line : List Char) : String :=
  String.ofList (trim line)

theorem inputLines_eq (input : String) : inputLines input = (lines input.toList).map entryOf :=
  rfl

theorem trimmed_entryOf (line : List Char) : trimmed (entryOf line) = entryOf line := by
  rw [entryOf, trimmed, String.toList_ofList, trim_trim]

/-- The lines hold an answer to the question: turns in vain, and then the same entry twice. -/
def Answered (input : List (List Char)) : Prop :=
  ∃ (groups : List (List (List Char))) (first again : List Char) (after : List (List Char)),
    (∀ group ∈ groups, Vain entryOf group) ∧ (∃ newPin, Confirms entryOf newPin first again) ∧
      input = groups.flatten ++ first :: again :: after

theorem answered_iff {input : List (List Char)} :
    Answered input ↔ (askNewPin (input.map entryOf)).2.isSome := by
  rw [Option.isSome_iff_exists]
  constructor
  · rintro ⟨groups, first, again, after, hvain, ⟨newPin, hconfirms⟩, hinput⟩
    exact ⟨(newPin, _), askNewPin_eq_some_iff.2
      ⟨groups, first, again, after, hvain, hconfirms, hinput, rfl⟩⟩
  · rintro ⟨⟨newPin, rest⟩, h⟩
    obtain ⟨groups, first, again, after, hvain, hconfirms, hinput, -⟩ := askNewPin_eq_some_iff.1 h
    exact ⟨groups, first, again, after, hvain, ⟨newPin, hconfirms⟩, hinput⟩

/-- **The question ends exactly if the input answers it.** If it does, the loop comes to the new PIN
in as many turns as the input has lines. If it does not, every turn is in vain and asks again, for
as many turns as there may be. -/
theorem askFor_settled (input : String) :
    (Answered (lines input.toList) →
      ∀ turns, (lines input.toList).length ≤ turns →
        (askFor turns (inputLines input)).2.isSome ∧
          askFor turns (inputLines input) = askNewPin (inputLines input)) ∧
    (¬ Answered (lines input.toList) →
      (askNewPin (inputLines input)).2 = none ∧
        ∀ turns, (askFor turns (inputLines input)).2 = none ∧
          Prompted turns (askFor turns (inputLines input)).1) := by
  rw [answered_iff, ← inputLines_eq]
  constructor
  · intro h turns hturns
    obtain ⟨⟨newPin, rest⟩, hsome⟩ := Option.isSome_iff_exists.1 h
    have hsettled : askFor turns (inputLines input) = askNewPin (inputLines input) :=
      askFor_of_some hsome hturns
    rw [hsettled]
    exact ⟨h, rfl⟩
  · intro h
    rw [Option.not_isSome_iff_eq_none] at h
    exact ⟨h, askFor_of_none h⟩

/-- Behind the end of the input there is no answer: neither where there was no line at all, nor
where the last one was entered once. -/
theorem askFor_unanswered :
    (¬ ∃ turns, (askFor turns (inputLines "")).2.isSome) ∧
      ¬ ∃ turns, (askFor turns (inputLines "4321\n")).2.isSome := by
  have hempty : (askNewPin (inputLines "")).2 = none := rfl
  have hlines : inputLines "4321\n" = ["4321"] := rfl
  have honce : (askNewPin (inputLines "4321\n")).2 = none := by
    rw [hlines, askNewPin_single (by decide)]
  constructor
  · rintro ⟨turns, h⟩
    rw [(askFor_of_none hempty turns).1] at h
    cases h
  · rintro ⟨turns, h⟩
    rw [(askFor_of_none honce turns).1] at h
    cases h

/-- What is known of the lines that were read where the question came to a new PIN: the last two,
and those before them. -/
structure Entered (newPin : NewPin) (before : List (List Char)) (first again : List Char) :
    Prop where
  nonempty : newPin.pin.text ≠ ""
  trimmed : trimmed newPin.pin.text = newPin.pin.text
  entry_first : entryOf first = newPin.pin.text
  entry_again : entryOf again = newPin.pin.text
  /-- The lines before fall into turns in vain, in one way only. -/
  turns : ∃! groups : List (List (List Char)),
    groups.flatten = before ∧ ∀ group ∈ groups, Vain entryOf group
  /-- Any shorter part of what was read holds no answer. -/
  not_earlier : ∀ part, part <+: before ++ [first, again] → part ≠ before ++ [first, again] →
    (askNewPin (part.map entryOf)).2 = none
  /-- Nothing behind it is read: whatever stands there is left as it is, and no more is printed. -/
  not_later : ∃ printed, ∀ later : List (List Char),
    askNewPin ((before ++ [first, again] ++ later).map entryOf) =
      (printed, some (newPin, later.map entryOf))

/-- **The new PIN that was entered**, and the lines that were read for it. -/
theorem askNewPin_entered {input : List (List Char)}
    (h : (askNewPin (input.map entryOf)).2 = some (newPin, rest)) :
    ∃ before first again after, input = before ++ [first, again] ++ after ∧
      rest = after.map entryOf ∧ Entered newPin before first again := by
  obtain ⟨groups, first, again, after, hvain, hconfirms, rfl, rfl⟩ := askNewPin_eq_some_iff.1 h
  obtain ⟨printed, hprinted⟩ := askNewPin_flatten hvain
  have hlater : ∀ later : List (List Char),
      askNewPin ((groups.flatten ++ [first, again] ++ later).map entryOf) =
        (printed ++ (newPinPrompt ++ samePinPrompt), some (newPin, later.map entryOf)) := by
    intro later
    rw [List.append_assoc, hprinted, List.cons_append, List.singleton_append,
      hconfirms.askNewPin later]
  refine ⟨groups.flatten, first, again, after, by simp, rfl, hconfirms.nonempty, ?_,
    hconfirms.entry_first, hconfirms.entry_again, ⟨groups, ⟨rfl, hvain⟩, ?_⟩, ?_, _, hlater⟩
  · rw [← hconfirms.entry_first, trimmed_entryOf]
  · rintro others ⟨hflatten, hothers⟩
    exact flatten_inj hothers hvain hflatten
  · rintro part ⟨more, hmore⟩ hshorter
    rw [Option.eq_none_iff_forall_ne_some]
    rintro ⟨newPin', rest'⟩ hpart
    -- An answer in the part would leave the rest of the lines unread.
    obtain ⟨groups', first', again', after', hvain', hconfirms', rfl, rfl⟩ :=
      askNewPin_eq_some_iff.1 hpart
    have hwhole : (askNewPin ((groups.flatten ++ [first, again]).map entryOf)).2 =
        some (newPin', (after' ++ more).map entryOf) :=
      askNewPin_eq_some_iff.2 ⟨groups', first', again', after' ++ more, hvain', hconfirms',
        by rw [← hmore]; simp, rfl⟩
    have hread := hlater []
    rw [List.append_nil] at hread
    rw [hread] at hwhole
    have hnil := (Prod.mk.inj (Option.some.inj hwhole)).2.symm
    rw [List.map_nil, List.map_eq_nil_iff, List.append_eq_nil_iff] at hnil
    rw [hnil.2, List.append_nil] at hmore
    exact hshorter hmore

end SecurityKey.CommandLine
