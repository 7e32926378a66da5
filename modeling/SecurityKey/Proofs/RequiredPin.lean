import SecurityKey.Proofs.Dialog.Discipline
import SecurityKey.Proofs.Passkeys
import SecurityKey.Proofs.Pin
/-!
# Operations that need a PIN

To list passkeys or fingerprints and to change a PIN, a session must have one. Two filters have to
agree on what that means: what the session gives back, and what is passed on to the tool. They
agree on every text but the empty one, which a session gives back and which is not passed on.

So each of the three operations keeps to its PIN (`NeedsPin`) exactly if the session's PIN is not
the empty text (`needsPin_iff`). With the empty one the lists are asked for without any PIN, and a
change sends the empty line where the current PIN is asked for (`emptyPin_asks`).
-/

namespace SecurityKey

open Procedure

/-! ## Operations with and without a PIN -/

/-- An operation that needs a PIN: it is denied before it asks for anything, or all exchanges go
with the PIN of the session. -/
def NeedsPin {α : Type} (session : Session) (denied : α) (With : Pin → Exchange → Prop)
    (p : Procedure α) : Prop :=
  ∀ trace result, Walk p trace result →
    (trace = [] ∧ result = denied) ∨
      ∃ pin, session.pin? = some pin ∧ ∀ exchange ∈ trace, With pin exchange

/-- All that a list needs: the lock, and invocations that pass the PIN on. -/
def ListsWith (pin : Pin) : Exchange → Prop
  | .acquired _ => True
  | .ran call _ _ => [Invocation.pinFlag, pin.text] <:+: call.args
  | _ => False

/-- A dialog has the PIN as the current one. Its first line, if the tool lets it send any, is a PIN
that is passed on. -/
def ChangesWith (pin : Pin) : Exchange → Prop
  | .conversed _ dialog _ =>
    dialog.current = some pin ∧ ∀ script line,
      (Log.handed (dialog.run script).2.log).head? = some line →
        Pin.forTool? (some pin) = some line
  | _ => True

variable {α : Type} {manager : Manager} {session : Session} {pin : Pin}

/-- A PIN that a session gives back can be used, unless it is empty. -/
theorem Session.usable_of_pin? (hpin : session.pin? = some pin)
    (hne : session.entered ≠ some ⟨""⟩) : pin.Usable := by
  obtain ⟨hentered, hplaceholder⟩ := Session.pin?_eq_some.1 hpin
  refine ⟨fun hempty => hne ?_, hplaceholder⟩
  rw [hentered, ← hempty]

theorem Session.pin?_of_empty (h : session.entered = some ⟨""⟩) : session.pin? = some ⟨""⟩ :=
  Session.pin?_eq_some.2 ⟨h, by decide⟩

/-- The two filters agree exactly if the empty PIN was not entered. -/
theorem pin?_isSome_iff_forTool? :
    (session.pin?.isSome ↔ (Pin.forTool? session.entered).isSome) ↔
      session.entered ≠ some ⟨""⟩ := by
  constructor
  · intro hagree hempty
    rw [Session.pin?_of_empty hempty, hempty] at hagree
    exact absurd (hagree.1 rfl) (by decide)
  · intro hne
    cases hpin : session.pin? with
    | some pin =>
      rw [(Session.pin?_eq_some.1 hpin).1, (Session.usable_of_pin? hpin hne).forTool?_some]
      simp
    | none =>
      have hnone : Pin.forTool? session.entered = none := by
        rw [Session.pin?, Option.filter_eq_none_iff] at hpin
        rw [Pin.forTool?, Option.map_eq_none_iff, Option.filter_eq_none_iff]
        intro pin hentered hpass
        exact hpin pin hentered (Bool.and_eq_true_iff.1 hpass).2
      rw [hnone]
      simp

/-- An operation that is denied without a PIN, and that keeps to each PIN which can be used, fails
to do so only with the empty PIN. -/
theorem needsPin_iff_of {denied : α} {With : Pin → Exchange → Prop} {p : Procedure α}
    (hnone : session.pin? = none → p = pure denied)
    (husable : ∀ pin, session.pin? = some pin → pin.Usable → Along (With pin) p)
    (hempty : session.pin? = some ⟨""⟩ →
      ∃ trace result exchange, Walk p trace result ∧ exchange ∈ trace ∧ ¬ With ⟨""⟩ exchange) :
    NeedsPin session denied With p ↔ session.entered ≠ some ⟨""⟩ := by
  constructor
  · intro h hentered
    have hpin := Session.pin?_of_empty hentered
    obtain ⟨trace, result, exchange, hwalk, hmem, hwithout⟩ := hempty hpin
    rcases h trace result hwalk with ⟨rfl, _⟩ | ⟨pin, hpin', hall⟩
    · cases hmem
    · obtain rfl := Option.some.inj (hpin.symm.trans hpin')
      exact hwithout (hall exchange hmem)
  · intro hne trace result hwalk
    cases hpin : session.pin? with
    | none =>
      rw [hnone hpin] at hwalk
      exact .inl (walk_pure.1 hwalk)
    | some pin =>
      have hkept := husable pin hpin (Session.usable_of_pin? hpin hne)
      exact .inr ⟨pin, rfl, hkept trace result hwalk⟩

/-! ## Lists -/

namespace Manager

/-- The arguments of an invocation that has the PIN right before the handle. -/
theorem infix_pinArgs (h : pin.Usable) (front : List String) (handle : String) :
    [Invocation.pinFlag, pin.text] <:+: front ++ Invocation.pinArgs (some pin) ++ [handle] := by
  rw [Invocation.pinArgs_some h]
  exact List.infix_append _ _ _

theorem along_listCredentials (hpin : session.pin? = some pin) (h : pin.Usable) :
    Along (ListsWith pin) (manager.listCredentials session).run := by
  rw [listCredentials, requirePin, hpin]
  refine Along.holding trivial ?_
  refine Along.attempt_bind (along_runChecked fun _ => infix_pinArgs h _ _) fun reply => ?_
  exact along_listSites (fun _ _ => infix_pinArgs h _ _) _

theorem along_listFingerprints (hpin : session.pin? = some pin) (h : pin.Usable) :
    Along (ListsWith pin) (manager.listFingerprints session).run := by
  intro trace result hwalk
  obtain ⟨answer, rfl, _⟩ := (walk_listFingerprints hpin).1 hwalk
  have hrun : ListsWith pin (.ran (.listFingerprints session.handle (some pin))
      manager.timeouts.invocation answer) := infix_pinArgs h _ _
  exact List.forall_mem_cons.2 ⟨trivial, List.forall_mem_singleton.2 hrun⟩

/-- The empty PIN is not passed on. -/
theorem not_infix_of_emptyPin {mode handle : String} (hmode : mode ≠ Invocation.pinFlag) :
    ¬ [Invocation.pinFlag, ""] <:+: ["-L", mode] ++ Invocation.pinArgs (some ⟨""⟩) ++ [handle] := by
  have hargs : Invocation.pinArgs (some ⟨""⟩) = [] := by decide
  have hne : "-w" ≠ mode := hmode.symm
  rw [hargs]
  simp [List.infix_cons_iff, Invocation.pinFlag, hne]

theorem needsPin_listCredentials :
    NeedsPin session (.error .pinRequired) ListsWith (manager.listCredentials session).run ↔
      session.entered ≠ some ⟨""⟩ := by
  refine needsPin_iff_of (fun hpin => ?_) (fun pin => along_listCredentials) fun hpin => ?_
  · rw [listCredentials, requirePin, hpin]
    rfl
  · have hrefused : PasskeyWalk session.handle (some ⟨""⟩) manager.timeouts.invocation
        [.ran (.listDomains session.handle (some ⟨""⟩)) manager.timeouts.invocation
          (.error .noTerminal)]
        (.error .noTerminal) := .refused rfl
    have hwalk := (walk_listCredentials hpin).2 ⟨_, rfl, hrefused⟩
    refine ⟨_, _, _, hwalk, List.mem_cons_of_mem _ (List.mem_singleton_self _), ?_⟩
    exact not_infix_of_emptyPin (by decide)

theorem needsPin_listFingerprints :
    NeedsPin session (.error .pinRequired) ListsWith (manager.listFingerprints session).run ↔
      session.entered ≠ some ⟨""⟩ := by
  refine needsPin_iff_of (fun hpin => ?_) (fun pin => along_listFingerprints) fun hpin => ?_
  · rw [listFingerprints, requirePin, hpin]
    rfl
  · have hwalk : Walk (manager.listFingerprints session).run _ (.error .noTerminal) :=
      (walk_listFingerprints hpin).2 ⟨.error .noTerminal, rfl, rfl⟩
    refine ⟨_, _, _, hwalk, List.mem_cons_of_mem _ (List.mem_singleton_self _), ?_⟩
    exact not_infix_of_emptyPin (by decide)

end Manager

/-! ## Changes -/

namespace Dialog

/-- A tool that asks for everything in order is handed all lines. -/
theorem handed_run_prompts (dialog : Dialog) :
    Log.handed (dialog.run ⟨dialog.prompts.map .emit, none⟩).2.log = dialog.lines := by
  have hrun := dialog.disciplined_run ⟨dialog.prompts.map .emit, none⟩
  have hdelivered := (hrun.success dialog.run_prompts).1
  have hsub := Log.delivered_sublist (dialog.run ⟨dialog.prompts.map .emit, none⟩).2.log
  rw [hdelivered] at hsub
  exact hrun.lines.eq_of_length_le hsub.length_le

/-- The current PIN is the first line of a change, if there is any. -/
theorem head_handed_run {newPin : NewPin} {timeouts : Timeouts} {observed : Bool}
    {script : Script} {line : String}
    (h : (Log.handed ((change pin newPin timeouts observed).run script).2.log).head? = some line) :
    line = pin.text := by
  obtain ⟨rest, hrest⟩ :=
    ((change pin newPin timeouts observed).disciplined_run script).lines
  have hhead : (change pin newPin timeouts observed).lines.head? = some line := by
    rw [← hrest, List.head?_append, h]
    rfl
  exact (Option.some.inj hhead).symm

end Dialog

namespace Manager

/-- A change hands over the session's PIN, which is passed on if it can be used. -/
theorem changesWith_change {newPin : NewPin} {timeouts : Timeouts} {observed : Bool}
    (h : pin.Usable) (call : Invocation) (answer : Except Failure PinOutcome) :
    ChangesWith pin (.conversed call (.change pin newPin timeouts observed) answer) := by
  refine ⟨rfl, fun script line hline => ?_⟩
  rw [Dialog.head_handed_run hline]
  exact h.forTool?_some

/-- The empty PIN is sent by a change, to any tool that asks for everything in order. -/
theorem not_changesWith_empty {newPin : NewPin} {timeouts : Timeouts} {observed : Bool}
    (call : Invocation) (answer : Except Failure PinOutcome) :
    ¬ ChangesWith ⟨""⟩ (.conversed call (.change ⟨""⟩ newPin timeouts observed) answer) := by
  rintro ⟨_, hall⟩
  have hlines := (Dialog.change ⟨""⟩ newPin timeouts observed).handed_run_prompts
  have hpassed : Pin.forTool? (some ⟨""⟩) = some "" :=
    hall ⟨_, none⟩ "" (by rw [hlines]; rfl)
  exact absurd hpassed (by decide)

theorem along_changePin {newPin : NewPin} {observed : Bool} (hpin : session.pin? = some pin)
    (h : pin.Usable) : Along (ChangesWith pin) (manager.changePin session newPin observed) := by
  rw [changePin, hpin]
  exact along_pinDialog trivial (fun answer => changesWith_change h _ answer) fun _ _ _ => trivial

theorem needsPin_changePin {newPin : NewPin} {observed : Bool} :
    NeedsPin session (session, .error .pinRequired) ChangesWith
        (manager.changePin session newPin observed) ↔
      session.entered ≠ some ⟨""⟩ := by
  refine needsPin_iff_of (fun hpin => ?_) (fun pin => along_changePin) fun hpin => ?_
  · rw [changePin, hpin]
  · have hwalk : Walk (manager.changePin session newPin observed)
        [.acquired session.handle, .conversed (.changePin session.handle)
          (.change ⟨""⟩ newPin manager.timeouts observed) (.error .noTerminal)]
        (session, .error .noTerminal) := by
      rw [changePin, hpin]
      exact .acquire (.converse _ (.notStarted .noTerminal) (.done _))
    refine ⟨_, _, _, hwalk, List.mem_cons_of_mem _ (List.mem_singleton_self _), ?_⟩
    exact not_changesWith_empty _ _

end Manager

/-! ## All of them -/

/-- **A PIN that is needed is passed on**, by both lists and by a change, exactly if it is not the
empty text: the one text on which the session and the arguments disagree. -/
theorem needsPin_iff (manager : Manager) (session : Session) (newPin : NewPin)
    (observed : Bool) :
    (NeedsPin session (.error .pinRequired) ListsWith (manager.listCredentials session).run ↔
        session.entered ≠ some ⟨""⟩) ∧
      (NeedsPin session (.error .pinRequired) ListsWith (manager.listFingerprints session).run ↔
        session.entered ≠ some ⟨""⟩) ∧
      (NeedsPin session (session, .error .pinRequired) ChangesWith
          (manager.changePin session newPin observed) ↔
        session.entered ≠ some ⟨""⟩) ∧
      ((session.pin?.isSome ↔ (Pin.forTool? session.entered).isSome) ↔
        session.entered ≠ some ⟨""⟩) :=
  ⟨Manager.needsPin_listCredentials, Manager.needsPin_listFingerprints,
    Manager.needsPin_changePin, pin?_isSome_iff_forTool?⟩

/-- A session for which the empty text was entered as its PIN. -/
def emptyPin : Session :=
  .begin ⟨"/dev/hidraw4", "Key", 1⟩ (some ⟨""⟩)

/-- A key that asks for the current PIN and then for the new one. -/
def changeable : Script :=
  ⟨[.emit "Enter current PIN: ", .awaitLine, .emit "Enter new PIN: ", .awaitLine,
    .emit "Enter the same PIN again: ", .awaitLine], none⟩

/-- The empty PIN is given back and not passed on: the lists run the tool without a PIN, and a
change sends the empty line as the current one. -/
theorem emptyPin_asks :
    emptyPin.pin? = some ⟨""⟩ ∧ Pin.forTool? emptyPin.entered = none ∧
      Walk (Manager.listCredentials ⟨.standard, "", .empty⟩ emptyPin).run
        [.acquired "/dev/hidraw4",
          .ran (.listDomains "/dev/hidraw4" (some ⟨""⟩)) 20000 (.ok ⟨some 0, "", ""⟩)] (.ok []) ∧
      (Invocation.listDomains "/dev/hidraw4" (some ⟨""⟩)).args = ["-L", "-r", "/dev/hidraw4"] ∧
      Walk (Manager.listFingerprints ⟨.standard, "", .empty⟩ emptyPin).run
        [.acquired "/dev/hidraw4",
          .ran (.listFingerprints "/dev/hidraw4" (some ⟨""⟩)) 20000 (.ok ⟨some 0, "", ""⟩)]
        (.ok []) ∧
      (Invocation.listFingerprints "/dev/hidraw4" (some ⟨""⟩)).args =
        ["-L", "-e", "/dev/hidraw4"] ∧
      Walk (Manager.changePin ⟨.standard, "", .empty⟩ emptyPin ⟨⟨"4321"⟩⟩ false)
        [.acquired "/dev/hidraw4", .conversed (.changePin "/dev/hidraw4")
          (.change ⟨""⟩ ⟨⟨"4321"⟩⟩ .standard false) (.ok .success)]
        (emptyPin.enterPin ⟨"4321"⟩, .ok .success) ∧
      Log.delivered ((Dialog.change ⟨""⟩ ⟨⟨"4321"⟩⟩ .standard false).run changeable).2.log =
        ["", "4321", "4321"] := by
  have htaken : ((Dialog.change ⟨""⟩ ⟨⟨"4321"⟩⟩ .standard false).run changeable).1 =
      .ok .success := by
    decide
  refine ⟨by decide, by decide, ?_, by decide, ?_, by decide, ?_, by decide⟩
  · exact .acquire (.run _ (.done _))
  · exact .acquire (.run _ (.done _))
  · exact .acquire (.converse _ (htaken ▸ .played changeable) (.done _))

end SecurityKey
