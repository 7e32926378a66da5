import SecurityKey.CommandLine.Command
import SecurityKey.Proofs.CommandLine
import SecurityKey.Proofs.CommandLine.Prompt
import SecurityKey.Proofs.Dialog.Answering
/-!
# The dialogs that commands start

Two commands ask for a new PIN and start a dialog that enters it. One of them may ask for the
current PIN first, which takes one line of the input (`linesBefore?`). Where the question comes to a
new PIN, this is the PIN that every dialog of the command enters (`along_run`), and where it does
not, no dialog is started.

Main statement: `newPin_passed_on`.
-/

namespace SecurityKey.CommandLine

open Procedure Text

/-- How many lines of the input a command takes before it asks for a new PIN, if it does so. -/
def linesBefore? : Command → Option Nat
  | .setPin _ | .changePin _ (some _) => some 0
  | .changePin _ none => some 1
  | _ => none

/-- The dialogs that were held on a way. -/
def dialogsIn (trace : List Exchange) : List Dialog :=
  trace.filterMap fun
    | .conversed _ dialog _ => some dialog
    | _ => none

/-- A dialog has the new PIN that the question has come to. -/
def HasAnswer (answer : Option (NewPin × List String)) : Exchange → Prop
  | .conversed _ dialog _ => ∃ rest, answer = some (dialog.newPin, rest)
  | _ => True

variable {input : List String} {manager : Manager} {device : Nat} {trace : List Exchange}

/-! ## What the questions come to -/

theorem walk_resolvePin {pin : Option Pin} {result : Pin × List String}
    (h : Walk (resolvePin pin input).run trace (.ok result)) :
    result.2 = input.drop (if pin.isSome then 0 else 1) := by
  cases pin with
  | some pin =>
    obtain ⟨-, hresult⟩ := walk_attempt_pure.1 h
    cases hresult
    rfl
  | none =>
    rcases walk_attempt_bind.1 h with ⟨failure, _, hresult⟩ | ⟨_, _, _, _, hrest, _⟩
    · cases hresult
    · obtain ⟨-, hresult⟩ := walk_attempt_pure.1 hrest
      cases hresult
      cases input <;> rfl

theorem walk_resolveNewPin {newPin : NewPin}
    (h : Walk (resolveNewPin input).run trace (.ok newPin)) :
    ∃ rest, (askNewPin input).2 = some (newPin, rest) := by
  rw [resolveNewPin] at h
  rcases walk_attempt_bind.1 h with ⟨failure, _, hresult⟩ | ⟨_, _, _, _, hrest, _⟩
  · cases hresult
  · rcases hanswer : (askNewPin input).2 with _ | ⟨answered, rest⟩
    · rw [hanswer] at hrest
      cases (walk_attempt_throw.1 hrest).2
    · rw [hanswer] at hrest
      cases (walk_attempt_pure.1 hrest).2
      exact ⟨rest, rfl⟩

/-! ## Commands -/

section Pieces

variable {P : Exchange → Prop}

theorem along_say (h : ∀ text, P (.said text)) (text : String) : Along P (say text).run :=
  Along.bind (along_print (h text)) fun _ => along_pure _

theorem along_select (hrun : ∀ call within answer, P (.ran call within answer))
    (hsay : ∀ text, P (.said text)) : Along P (select manager device).run :=
  Along.attempt_bind (along_attempt (Manager.along_selectDevice hrun)) fun _ =>
    Along.attempt_bind (along_say hsay _) fun _ => along_pure _

theorem along_resolvePin (hsay : ∀ text, P (.said text)) (pin : Option Pin) :
    Along P (resolvePin pin input).run := by
  cases pin with
  | some pin => exact along_pure _
  | none => exact Along.attempt_bind (along_say hsay _) fun _ => along_pure _

theorem along_resolveNewPin (hsay : ∀ text, P (.said text)) :
    Along P (resolveNewPin input).run := by
  rw [resolveNewPin]
  refine Along.attempt_bind (along_say hsay _) fun _ => ?_
  split <;> exact along_pure _

theorem along_finish (hsay : ∀ text, P (.said text)) (outcome : PinOutcome) (done : String) :
    Along P (finish outcome done).run := by
  cases outcome with
  | success => exact along_say hsay _
  | _ => exact along_pure _

end Pieces

/-- **Every dialog of a command has the new PIN that was entered.** -/
theorem along_run {command : Command} {skipped : Nat} (h : linesBefore? command = some skipped) :
    Along (HasAnswer (askNewPin (input.drop skipped)).2) (run manager input command).run := by
  cases command with
  | setPin device =>
    cases h
    refine Along.attempt_bind (along_select (fun _ _ _ => trivial) fun _ => trivial) ?_
    intro session
    refine Along.attempt_bind_of_walk (along_resolveNewPin fun _ => trivial) ?_
    intro newPin _ hwalk
    obtain ⟨rest, hanswer⟩ := walk_resolveNewPin hwalk
    refine Along.attempt_bind (along_onSession ?_) fun _ => along_finish (fun _ => trivial) _ _
    exact Manager.along_pinDialog trivial (fun _ => ⟨rest, hanswer⟩) fun _ _ _ => trivial
  | changePin device pin =>
    have hskipped : skipped = if pin.isSome then 0 else 1 := by
      cases pin <;> cases h <;> rfl
    subst hskipped
    refine Along.attempt_bind (along_select (fun _ _ _ => trivial) fun _ => trivial) ?_
    intro session
    refine Along.attempt_bind_of_walk (along_resolvePin (fun _ => trivial) pin) ?_
    rintro ⟨current, left⟩ _ hcurrent
    obtain rfl := walk_resolvePin hcurrent
    refine Along.attempt_bind_of_walk (along_resolveNewPin fun _ => trivial) ?_
    intro newPin _ hwalk
    obtain ⟨rest, hanswer⟩ := walk_resolveNewPin hwalk
    refine Along.attempt_bind (along_onSession ?_) fun _ => along_finish (fun _ => trivial) _ _
    rw [Manager.changePin]
    cases (session.enterPin current).pin? with
    | none => exact along_pure _
    | some held =>
      exact Manager.along_pinDialog trivial (fun _ => ⟨rest, hanswer⟩) fun _ _ _ => trivial
  | _ => cases h

theorem hasAnswer_of_mem_dialogsIn {answer : Option (NewPin × List String)}
    (h : ∀ exchange ∈ trace, HasAnswer answer exchange) {dialog : Dialog}
    (hmem : dialog ∈ dialogsIn trace) : ∃ rest, answer = some (dialog.newPin, rest) := by
  obtain ⟨exchange, hexchange, hdialog⟩ := List.mem_filterMap.1 hmem
  have hanswer := h exchange hexchange
  cases exchange with
  | conversed call held outcome =>
    cases hdialog
    exact hanswer
  | _ => cases hdialog

/-- **The new PIN that was entered is the one that is passed on.** Where a command asks for a new
PIN and the question comes to one, it was entered in the last two lines that were read, with nothing
but turns in vain before them, and every dialog of the command answers the prompts for the new PIN
with it, whatever the tool does. -/
theorem newPin_passed_on {text : String} {command : Command} {skipped : Nat} {newPin : NewPin}
    {rest : List String} (hcommand : linesBefore? command = some skipped)
    (hprompt : (askNewPin ((inputLines text).drop skipped)).2 = some (newPin, rest))
    (manager : Manager) :
    (∃ before first again after,
      (lines text.toList).drop skipped = before ++ [first, again] ++ after ∧
        rest = after.map entryOf ∧ Entered newPin before first again) ∧
    ∀ trace result, Walk (run manager (inputLines text) command).run trace result →
      ∀ dialog ∈ dialogsIn trace, ∀ script, ∃ trail,
        dialog.Trail .start (.begin script) trail (dialog.run script) ∧
          dialog.Enters newPin.pin.text trail (dialog.run script).2.log := by
  constructor
  · rw [inputLines_eq, ← List.map_drop] at hprompt
    exact askNewPin_entered hprompt
  · intro trace result hwalk dialog hdialog script
    obtain ⟨rest', hanswer⟩ :=
      hasAnswer_of_mem_dialogsIn (along_run hcommand trace result hwalk) hdialog
    obtain rfl : newPin = dialog.newPin :=
      (Prod.mk.inj (Option.some.inj (hprompt.symm.trans hanswer))).1
    exact dialog.enters_run script

/-- One key, which asks for all that it needs. -/
def oneKey : Tool where
  run _ _ _ := .ok ⟨some 0, "/dev/hidraw4: vendor (Key)\n", ""⟩
  converse _ _ dialog := some ⟨dialog.prompts.map .emit, none⟩
  notStarted _ := .noTerminal
  launch _ _ := .ok ()
  clock _ := 0

/-- The current PIN, two entries that differ, an empty one, and the new PIN twice. -/
def mistyped : String := "1234\n4321\n4312\n\n4321\n 4321 \n"

theorem newPin_passed_on_mistyped :
    linesBefore? (.changePin 1 none) = some 1 ∧
    (askNewPin ((inputLines mistyped).drop 1)).2 = some (⟨⟨"4321"⟩⟩, []) ∧
    (∃ before first again after,
      (lines mistyped.toList).drop 1 = before ++ [first, again] ++ after ∧
        [] = after.map entryOf ∧ Entered ⟨⟨"4321"⟩⟩ before first again) ∧
    ∃ trace result dialog, Walk (run ⟨.standard, "", .empty⟩ (inputLines mistyped)
        (.changePin 1 none)).run trace result ∧
      dialog ∈ dialogsIn trace ∧ ∀ script, ∃ trail,
        dialog.Trail .start (.begin script) trail (dialog.run script) ∧
          dialog.Enters "4321" trail (dialog.run script).2.log := by
  have hprompt : (askNewPin ((inputLines mistyped).drop 1)).2 = some (⟨⟨"4321"⟩⟩, []) := by
    decide +kernel
  have hcommand : linesBefore? (.changePin 1 none) = some 1 := rfl
  have hpassed := newPin_passed_on hcommand hprompt ⟨.standard, "", .empty⟩
  have hwalk := walk_follow oneKey []
    (run ⟨.standard, "", .empty⟩ (inputLines mistyped) (.changePin 1 none)).run
  have hdialog : .change ⟨"1234"⟩ ⟨⟨"4321"⟩⟩ .standard true ∈ dialogsIn (follow oneKey []
      (run ⟨.standard, "", .empty⟩ (inputLines mistyped) (.changePin 1 none)).run).1 := by
    decide +kernel
  exact ⟨hcommand, hprompt, hpassed.1, _, _, _, hwalk, hdialog, hpassed.2 _ _ hwalk _ hdialog⟩

end SecurityKey.CommandLine
