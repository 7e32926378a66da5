import Mathlib.Data.List.Forall2
import Mathlib.Tactic.Common
import SecurityKey.Manager.Action
import SecurityKey.Proofs.Dialog.Veil
import SecurityKey.Proofs.Manager
import SecurityKey.Proofs.Pin
import SecurityKey.Proofs.Session
/-!
# Two runs that differ in the PIN

The same operation is run twice, in sessions that differ in their PINs only and with a tool that
cannot tell these PINs apart (`Tool.Blind`). What the tool sees in the two runs, what comes of them
and what the user is told is then the same, but for the PINs behind their flag and the lines of the
dialogs.

Procedures that ask for alike things and go on in the same way with the same answers are `Twin`s,
and a blind tool cannot make anything different of them (`Twin.follow`). Every operation with one
PIN is a twin of itself with another (`perform_twin`), so one action shows nothing of a PIN
(`follow_perform_alike`), and no sequence of actions does (`conduct_alike`).
-/

namespace SecurityKey

open Procedure

variable {same kept : Pin → Pin → Prop} {p q : Pin}

/-! ## What differs -/

/-- Invocations that are alike: the same operation with the same arguments, but for a PIN behind
its flag. -/
def Invocation.Alike (same : Pin → Pin → Prop) (call call' : Invocation) : Prop :=
  call.operation = call'.operation ∧
    (call.args = call'.args ∨ ∃ p q front handle, same p q ∧
      call.args = front ++ [pinFlag, p.text, handle] ∧
      call'.args = front ++ [pinFlag, q.text, handle])

theorem Invocation.Alike.refl (call : Invocation) : call.Alike same call :=
  ⟨rfl, .inl rfl⟩

/-- Sessions that differ in their PINs only. -/
def Session.DifferInPin (kept : Pin → Pin → Prop) (session session' : Session) : Prop :=
  ∃ base p q, kept p q ∧ session = enterPin base p ∧ session' = enterPin base q

/-- The same action in the two runs. Each run enters and sets PINs of its own. -/
inductive Action.Twin (kept : Pin → Pin → Prop) : Action → Action → Prop
  | enterPin {p q : Pin} : kept p q → Twin kept (.enterPin p) (.enterPin q)
  | loadAttributes : Twin kept .loadAttributes .loadAttributes
  | loadBasicAttributes : Twin kept .loadBasicAttributes .loadBasicAttributes
  | listCredentials : Twin kept .listCredentials .listCredentials
  | listFingerprints : Twin kept .listFingerprints .listFingerprints
  | setPin {newPin newPin' : NewPin} (observed : Bool) : kept newPin.pin newPin'.pin →
      Twin kept (.setPin newPin observed) (.setPin newPin' observed)
  | changePin {newPin newPin' : NewPin} (observed : Bool) : kept newPin.pin newPin'.pin →
      Twin kept (.changePin newPin observed) (.changePin newPin' observed)

namespace Procedure

variable {α β γ δ ε : Type}

/-- Exchanges that are alike: alike invocations, dialogs that are the same under the veil, and the
same answers. -/
inductive Exchange.Alike (same : Pin → Pin → Prop) : Exchange → Exchange → Prop
  | refl (exchange : Exchange) : Alike same exchange exchange
  | ran {call call' : Invocation} {within : Nat} {answer : Except Failure Reply} :
      call.Alike same call' → Alike same (.ran call within answer) (.ran call' within answer)
  | conversed {call call' : Invocation} {dialog dialog' : Dialog}
      {answer : Except Failure PinOutcome} :
      call.Alike same call' → dialog.veiled = dialog'.veiled →
      Alike same (.conversed call dialog answer) (.conversed call' dialog' answer)

/-- Ways that are alike, exchange by exchange. -/
abbrev Alike (same : Pin → Pin → Prop) : List Exchange → List Exchange → Prop :=
  List.Forall₂ (Exchange.Alike same)

theorem Alike.append {past past' trace trace' : List Exchange} (hpast : Alike same past past')
    (h : Alike same trace trace') : Alike same (past ++ trace) (past' ++ trace') :=
  List.rel_append hpast h

/-! ## Tools that do not tell PINs apart -/

/-- A tool that does not tell apart two PINs that are the `same` to it. It gives equal answers to
invocations that differ in such PINs, and what it does in a dialog, and when, does not depend on
the lines that it is sent. -/
structure Tool.Blind (same : Pin → Pin → Prop) (tool : Tool) : Prop where
  run {past past' : List Exchange} {call call' : Invocation} (within : Nat) :
    Alike same past past' → call.Alike same call' →
      tool.run past call within = tool.run past' call' within
  converse {past past' : List Exchange} {call call' : Invocation} {dialog dialog' : Dialog} :
    Alike same past past' → call.Alike same call' → dialog.veiled = dialog'.veiled →
      tool.converse past call dialog = tool.converse past' call' dialog'
  notStarted {past past' : List Exchange} :
    Alike same past past' → tool.notStarted past = tool.notStarted past'

/-- What happens in the dialog of an exchange, if it is one. -/
def Tool.eventsOf (tool : Tool) (past : List Exchange) : Exchange → List (Nat × Event)
  | .conversed call dialog _ =>
    match tool.converse past call dialog with
    | some script => (dialog.run script).2.events
    | none => []
  | _ => []

/-- What happens in the dialogs on a way, one after the other. -/
def Tool.events (tool : Tool) : List Exchange → List Exchange → List (Nat × Event)
  | _, [] => []
  | past, exchange :: trace =>
    tool.eventsOf past exchange ++ events tool (past ++ [exchange]) trace

variable {tool : Tool} {past past' : List Exchange} {call call' : Invocation}
  {dialog dialog' : Dialog}

theorem Tool.events_append (trace more : List Exchange) :
    tool.events past (trace ++ more) =
      tool.events past trace ++ tool.events (past ++ trace) more := by
  induction trace generalizing past with
  | nil => rw [List.append_nil]; rfl
  | cons exchange trace ih =>
    rw [List.cons_append, events, events, ih, List.append_assoc, List.append_assoc]
    rfl

/-- **One dialog** has the same outcome and the same events, up to the lines. -/
theorem Tool.Blind.talk (htool : tool.Blind same) (hpast : Alike same past past')
    (hcall : call.Alike same call') (hdialog : dialog.veiled = dialog'.veiled)
    (answer answer' : Except Failure PinOutcome) :
    tool.talk past call dialog = tool.talk past' call' dialog' ∧
      Event.veiledLog (tool.eventsOf past (.conversed call dialog answer)) =
        Event.veiledLog (tool.eventsOf past' (.conversed call' dialog' answer')) := by
  rw [Tool.talk, Tool.talk, eventsOf, eventsOf, htool.converse hpast hcall hdialog,
    htool.notStarted hpast]
  cases tool.converse past' call' dialog' with
  | none => exact ⟨rfl, rfl⟩
  | some script =>
    have hrun : Conversation.veil (dialog.run script) = Conversation.veil (dialog'.run script) := by
      rw [← Dialog.run_veiled, ← Dialog.run_veiled, hdialog]
    obtain ⟨houtcome, htalk⟩ := Prod.mk.inj hrun
    exact ⟨houtcome, congrArg Conversation.events htalk⟩

/-! ## Twins -/

/-- Procedures that ask for alike things, and go on as twins with equal answers, to related
results. -/
inductive Twin (same : Pin → Pin → Prop) (After : α → β → Prop) :
    Procedure α → Procedure β → Prop
  | done {a : α} {b : β} : After a b → Twin same After (.done a) (.done b)
  | run {call call' : Invocation} {within : Nat} {next : Except Failure Reply → Procedure α}
      {next' : Except Failure Reply → Procedure β} :
      call.Alike same call' → (∀ answer, Twin same After (next answer) (next' answer)) →
      Twin same After (.run call within next) (.run call' within next')
  | converse {call call' : Invocation} {dialog dialog' : Dialog}
      {next : Except Failure PinOutcome → Procedure α}
      {next' : Except Failure PinOutcome → Procedure β} :
      call.Alike same call' → dialog.veiled = dialog'.veiled →
      (∀ answer, Twin same After (next answer) (next' answer)) →
      Twin same After (.converse call dialog next) (.converse call' dialog' next')
  | acquire {handle : String} {next : Procedure α} {next' : Procedure β} :
      Twin same After next next' → Twin same After (.acquire handle next) (.acquire handle next')

variable {After : α → β → Prop} {Finally : γ → δ → Prop} {one : Procedure α} {two : Procedure β}

/-- What a blind tool makes of twins: ways that are alike, with the same events up to the lines that
are sent, to related results. -/
theorem Twin.follow (htool : tool.Blind same) (h : Twin same After one two)
    (hpast : Alike same past past') :
    Alike same (follow tool past one).1 (follow tool past' two).1 ∧
      After (follow tool past one).2 (follow tool past' two).2 ∧
      Event.veiledLog (tool.events past (follow tool past one).1) =
        Event.veiledLog (tool.events past' (follow tool past' two).1) := by
  induction h generalizing past past' with
  | done hafter => exact ⟨.nil, hafter, rfl⟩
  | @run call call' within next next' hcall _ ih =>
    have hanswer := htool.run within hpast hcall
    have hfirst : Exchange.Alike same (.ran call within (tool.run past call within))
        (.ran call' within (tool.run past' call' within)) := hanswer ▸ .ran hcall
    obtain ⟨htrace, hafter, hevents⟩ := ih (tool.run past call within)
      (hpast.append (.cons hfirst .nil))
    rw [Procedure.follow, Procedure.follow]
    exact ⟨.cons hfirst (hanswer ▸ htrace), hanswer ▸ hafter, hanswer ▸ hevents⟩
  | @converse call call' dialog dialog' next next' hcall hdialog _ ih =>
    obtain ⟨hanswer, htalk⟩ := htool.talk hpast hcall hdialog
      (tool.talk past call dialog) (tool.talk past' call' dialog')
    have hfirst : Exchange.Alike same (.conversed call dialog (tool.talk past call dialog))
        (.conversed call' dialog' (tool.talk past' call' dialog')) :=
      hanswer ▸ .conversed hcall hdialog
    obtain ⟨htrace, hafter, hevents⟩ := ih (tool.talk past call dialog)
      (hpast.append (.cons hfirst .nil))
    rw [Procedure.follow, Procedure.follow]
    refine ⟨.cons hfirst (hanswer ▸ htrace), hanswer ▸ hafter, ?_⟩
    rw [Tool.events, Tool.events, Event.veiledLog_append, Event.veiledLog_append, htalk]
    exact congrArg _ (hanswer ▸ hevents)
  | acquire _ ih =>
    obtain ⟨htrace, hafter, hevents⟩ := ih (hpast.append (.cons (.refl _) .nil))
    exact ⟨.cons (.refl _) htrace, hafter, hevents⟩

theorem twin_pure {a : α} {b : β} (h : After a b) :
    Twin same After (pure a : Procedure α) (pure b : Procedure β) :=
  .done h

theorem twin_call {within : Nat} (hcall : call.Alike same call') :
    Twin same Eq (Procedure.call call within) (Procedure.call call' within) :=
  .run hcall fun _ => .done rfl

theorem Twin.bind {f : α → Procedure γ} {g : β → Procedure δ} (h : Twin same After one two)
    (hrest : ∀ a b, After a b → Twin same Finally (f a) (g b)) :
    Twin same Finally (one >>= f) (two >>= g) := by
  show Twin same Finally (one.bind f) (two.bind g)
  induction h with
  | done hafter => exact hrest _ _ hafter
  | run hcall _ ih => exact .run hcall ih
  | converse hcall hdialog _ ih => exact .converse hcall hdialog ih
  | acquire _ ih => exact .acquire ih

/-- Attempts fail alike, and go on alike with what does not fail. -/
theorem Twin.attempt_bind {one two : ExceptT ε Procedure α} {f g : α → ExceptT ε Procedure β}
    (h : Twin same Eq one.run two.run) (hrest : ∀ a, Twin same Eq (f a).run (g a).run) :
    Twin same Eq (one >>= f).run (two >>= g).run := by
  rw [ExceptT.run_bind, ExceptT.run_bind]
  refine h.bind fun inner inner' heq => ?_
  subst heq
  cases inner with
  | error failure => exact twin_pure rfl
  | ok a => exact hrest a

end Procedure

/-! ## Operations -/

/-- The same answer, with sessions that differ in their PINs only. -/
def SameAnswer {ω : Type} (kept : Pin → Pin → Prop) (one two : Session × ω) : Prop :=
  one.1.DifferInPin kept two.1 ∧ one.2 = two.2

theorem SameAnswer.map {ω χ : Type} {one two : Session × ω} (h : SameAnswer kept one two)
    (f : ω → χ) : SameAnswer kept (one.1, f one.2) (two.1, f two.2) :=
  ⟨h.1, congrArg f h.2⟩

/-- Deeds in the two runs: alike ways, and the same answer. -/
structure Deed.Alike (same : Pin → Pin → Prop) (deed deed' : Deed) : Prop where
  trace : Procedure.Alike same deed.trace deed'.trace
  answer : deed.answer = deed'.answer

/-- An invocation shows whether there is a current PIN, and not which. -/
theorem Dialog.invocation_veiled {dialog : Dialog} {handle : String} :
    dialog.veiled.invocation handle = dialog.invocation handle := by
  rw [invocation, invocation, veiled]
  cases dialog.current <;> rfl

namespace Manager

variable {call call' : Invocation} {within : Nat} {handle : String} {manager : Manager}
  {session : Session}

theorem twin_runChecked (hcall : call.Alike same call') :
    Twin same Eq (runChecked call within).run (runChecked call' within).run := by
  refine Twin.attempt_bind (twin_call hcall) fun reply => ?_
  split
  · exact twin_pure rfl
  · exact twin_pure rfl

section

variable (hp : p.Usable) (hq : q.Usable) (hsame : same p q)

include hp hq hsame

/-- Where an invocation takes a PIN, the two PINs stand behind the flag. -/
theorem alike_of_args (call : Option Pin → Invocation) {front : List String}
    (hoperation : (call (some p)).operation = (call (some q)).operation)
    (hargs : ∀ pin, (call pin).args = front ++ Invocation.pinArgs pin ++ [handle]) :
    (call (some p)).Alike same (call (some q)) := by
  refine ⟨hoperation, .inr ⟨p, q, front, handle, hsame, ?_, ?_⟩⟩
  · rw [hargs, Invocation.pinArgs_some hp, List.append_assoc]
    rfl
  · rw [hargs, Invocation.pinArgs_some hq, List.append_assoc]
    rfl

theorem twin_loadReports :
    Twin same Eq (loadReports handle (some p) within).run
      (loadReports handle (some q) within).run := by
  have hstorage := alike_of_args hp hq hsame (.storageInfo handle) rfl fun _ => rfl
  have hinfo := alike_of_args hp hq hsame (.deviceInfo handle) rfl fun _ => rfl
  rw [loadReports_eq, loadReports_eq]
  refine Twin.attempt_bind (twin_call hstorage) fun storage => ?_
  refine Twin.attempt_bind (twin_pure rfl) fun stored => ?_
  exact Twin.attempt_bind (twin_runChecked hinfo) fun info => twin_pure rfl

theorem twin_listSites (domains : List String) :
    Twin same Eq (listSites handle (some p) within domains).run
      (listSites handle (some q) within domains).run := by
  induction domains with
  | nil => exact twin_pure rfl
  | cons domain domains ih =>
    have hcall := alike_of_args hp hq hsame (.listCredentials handle · domain) rfl
      fun _ => rfl
    refine Twin.attempt_bind (twin_runChecked hcall) fun reply => ?_
    exact Twin.attempt_bind ih fun sites => twin_pure rfl

theorem twin_listCredentials :
    Twin same Eq (manager.listCredentials (session.enterPin p)).run
      (manager.listCredentials (session.enterPin q)).run := by
  have hdomains := alike_of_args hp hq hsame (.listDomains session.handle) rfl fun _ => rfl
  rw [listCredentials, listCredentials, requirePin, requirePin, hp.pin?_enterPin,
    hq.pin?_enterPin]
  exact .acquire (Twin.attempt_bind (twin_runChecked hdomains) fun reply =>
    twin_listSites hp hq hsame _)

theorem twin_listFingerprints :
    Twin same Eq (manager.listFingerprints (session.enterPin p)).run
      (manager.listFingerprints (session.enterPin q)).run := by
  have hcall := alike_of_args hp hq hsame (.listFingerprints session.handle) rfl
    fun _ => rfl
  rw [listFingerprints, listFingerprints, requirePin, requirePin, hp.pin?_enterPin,
    hq.pin?_enterPin]
  exact .acquire (Twin.attempt_bind (twin_runChecked hcall) fun reply => twin_pure rfl)

theorem twin_loadAttributes (hkept : kept p q) :
    Twin same (SameAnswer kept) (manager.loadAttributes (session.enterPin p))
      (manager.loadAttributes (session.enterPin q)) := by
  have hload : Twin same Eq
      (loadReports session.handle (session.enterPin p).pin? manager.timeouts.invocation).run
      (loadReports session.handle (session.enterPin q).pin? manager.timeouts.invocation).run := by
    rw [hp.pin?_enterPin, hq.pin?_enterPin]
    exact twin_loadReports hp hq hsame
  refine .acquire (hload.bind fun load load' heq => ?_)
  subst heq
  cases load with
  | ok load =>
    exact twin_pure ⟨⟨session.withAttributes load.attributes, p, q, hkept, rfl, rfl⟩, rfl⟩
  | error failure => exact twin_pure ⟨⟨session, p, q, hkept, rfl, rfl⟩, rfl⟩

end

theorem twin_loadBasicAttributes (hkept : kept p q) :
    Twin same (SameAnswer kept) (manager.loadBasicAttributes (session.enterPin p))
      (manager.loadBasicAttributes (session.enterPin q)) := by
  refine .acquire ((twin_runChecked (.refl _)).bind fun info info' heq => ?_)
  subst heq
  cases info with
  | ok reply =>
    exact twin_pure ⟨⟨session.withAttributes (.ofReport reply.stdout), p, q, hkept, rfl, rfl⟩, rfl⟩
  | error failure => exact twin_pure ⟨⟨session, p, q, hkept, rfl, rfl⟩, rfl⟩

/-- A dialog, and the question that may follow it, tell nothing of the PINs in it. -/
theorem twin_runDialog {dialog dialog' : Dialog} (hdialog : dialog.veiled = dialog'.veiled) :
    Twin same Eq (runDialog handle dialog).run (runDialog handle dialog').run := by
  have hcall : dialog.invocation handle = dialog'.invocation handle := by
    rw [← Dialog.invocation_veiled, hdialog, Dialog.invocation_veiled]
  have htimeouts : dialog.timeouts = dialog'.timeouts :=
    show dialog.veiled.timeouts = dialog'.veiled.timeouts from congrArg Dialog.timeouts hdialog
  have htalk : Twin same Eq (Procedure.talk (dialog.invocation handle) dialog)
      (Procedure.talk (dialog'.invocation handle) dialog') :=
    .converse (hcall ▸ .refl _) hdialog fun _ => .done rfl
  rw [runDialog, runDialog, htimeouts]
  refine Twin.attempt_bind htalk fun outcome => ?_
  cases outcome with
  | policyViolation error =>
    dsimp only
    split_ifs
    · refine Twin.attempt_bind (.run (.refl _) fun _ => .done rfl) fun answer => ?_
      cases answer with
      | ok reply => exact twin_pure rfl
      | error failure => exact twin_pure rfl
    · exact twin_pure rfl
  | _ => exact twin_pure rfl

/-- A dialog leaves the PINs that the sessions had, or its own if the device took it. -/
theorem twin_pinDialog {dialog dialog' : Dialog} (hkept : kept p q)
    (hdialog : dialog.veiled = dialog'.veiled)
    (hnew : kept dialog.newPin.pin dialog'.newPin.pin) :
    Twin same (SameAnswer kept) (pinDialog (session.enterPin p) dialog)
      (pinDialog (session.enterPin q) dialog') := by
  refine .acquire ((twin_runDialog hdialog).bind fun outcome outcome' heq => ?_)
  subst heq
  split
  · exact twin_pure ⟨⟨session, _, _, hnew, rfl, rfl⟩, rfl⟩
  · exact twin_pure ⟨⟨session, p, q, hkept, rfl, rfl⟩, rfl⟩

theorem twin_setPin {newPin newPin' : NewPin} {observed : Bool} (hkept : kept p q)
    (hnew : kept newPin.pin newPin'.pin) :
    Twin same (SameAnswer kept) (manager.setPin (session.enterPin p) newPin observed)
      (manager.setPin (session.enterPin q) newPin' observed) := by
  rw [setPin, setPin]
  exact twin_pinDialog hkept rfl hnew

theorem twin_changePin {newPin newPin' : NewPin} {observed : Bool} (hp : p.Usable)
    (hq : q.Usable) (hkept : kept p q) (hnew : kept newPin.pin newPin'.pin) :
    Twin same (SameAnswer kept) (manager.changePin (session.enterPin p) newPin observed)
      (manager.changePin (session.enterPin q) newPin' observed) := by
  rw [changePin, changePin, hp.pin?_enterPin, hq.pin?_enterPin]
  exact twin_pinDialog hkept rfl hnew

/-- **Every operation is its own twin** with another PIN. -/
theorem perform_twin {action action' : Action} (hp : p.Usable) (hq : q.Usable) (hsame : same p q)
    (hkept : kept p q) (haction : action.Twin kept action') :
    Twin same (SameAnswer kept) (manager.perform (session.enterPin p) action)
      (manager.perform (session.enterPin q) action') := by
  have hunchanged : (session.enterPin p).DifferInPin kept (session.enterPin q) :=
    ⟨session, p, q, hkept, rfl, rfl⟩
  unfold perform
  cases haction with
  | enterPin hnew => exact twin_pure ⟨⟨session, _, _, hnew, rfl, rfl⟩, rfl⟩
  | loadAttributes =>
    refine (twin_loadAttributes hp hq hsame hkept).bind fun one two hafter => ?_
    exact twin_pure (hafter.map _)
  | loadBasicAttributes =>
    refine (twin_loadBasicAttributes hkept).bind fun one two hafter => ?_
    exact twin_pure (hafter.map _)
  | listCredentials =>
    refine (twin_listCredentials hp hq hsame).bind fun one two heq => ?_
    exact twin_pure ⟨hunchanged, heq ▸ rfl⟩
  | listFingerprints =>
    refine (twin_listFingerprints hp hq hsame).bind fun one two heq => ?_
    exact twin_pure ⟨hunchanged, heq ▸ rfl⟩
  | setPin observed hnew =>
    refine (twin_setPin hkept hnew).bind fun one two hafter => ?_
    exact twin_pure (hafter.map _)
  | changePin observed hnew =>
    refine (twin_changePin hp hq hkept hnew).bind fun one two hafter => ?_
    exact twin_pure (hafter.map _)

/-! ## Runs -/

variable {tool : Tool} {past past' : List Exchange}

/-- **An action shows nothing of a PIN.** In two sessions that differ in their PINs only, and with a
tool that cannot tell these apart, it gives the same answer, asks for the same things up to the PIN
behind its flag, has the same events up to the lines that are sent (so it tells the user the same),
and leaves sessions that differ in their PINs only. -/
theorem follow_perform_alike {action action' : Action} (hp : p.Usable) (hq : q.Usable)
    (hsame : same p q) (haction : action.Twin (fun _ _ => True) action')
    (htool : tool.Blind same) (hpast : Alike same past past') :
    let one := follow tool past (manager.perform (session.enterPin p) action)
    let two := follow tool past' (manager.perform (session.enterPin q) action')
    one.2.2 = two.2.2 ∧ Alike same one.1 two.1 ∧
      Event.veiledLog (tool.events past one.1) = Event.veiledLog (tool.events past' two.1) ∧
      one.2.1.DifferInPin (fun _ _ => True) two.2.1 := by
  obtain ⟨htrace, ⟨hsession, hanswer⟩, hevents⟩ :=
    (perform_twin hp hq hsame trivial haction).follow htool hpast
  exact ⟨hanswer, htrace, hevents, hsession⟩

/-- A key that tells about itself with any PIN and with none not. It wants a touch before it changes
its PIN, and then takes any. -/
def anyPin : Tool where
  run _ call _ :=
    if Invocation.pinFlag ∈ call.args then .ok ⟨some 0, "pin retries: 8\n", ""⟩
    else .ok ⟨some 1, "", "FIDO_ERR_PIN_REQUIRED"⟩
  converse _ _ _ :=
    some ⟨[.emit "Touch your key", .delay 900, .emit "Enter current PIN: ", .awaitLine,
      .emit "Enter new PIN: ", .awaitLine, .emit "Enter the same PIN again: ", .awaitLine], none⟩
  notStarted _ := .noTerminal
  launch _ _ := .error .noTerminal
  clock _ := 0

theorem blind_anyPin : anyPin.Blind same where
  run within _ hcall := by
    obtain ⟨_, heq | ⟨p, q, front, handle, _, hargs, hargs'⟩⟩ := hcall
    · simp only [anyPin, heq]
    · simp [anyPin, hargs, hargs']
  converse _ _ _ := rfl
  notStarted _ := rfl

theorem follow_perform_alike_anyPin :
    anyPin.Blind (fun _ _ => True) ∧
      let manager : Manager := ⟨.standard, "", .empty⟩
      let session : Session := .begin ⟨"/dev/hidraw4", "Key", 1⟩ none
      let one := follow anyPin []
        (manager.perform (session.enterPin ⟨"1234"⟩) (.changePin ⟨⟨"7777"⟩⟩ true))
      let two := follow anyPin []
        (manager.perform (session.enterPin ⟨"567890"⟩) (.changePin ⟨⟨"0000"⟩⟩ true))
      one.2.2 = .ok (.pinOutcome .success) ∧ two.2.2 = .ok (.pinOutcome .success) ∧
        (900, .touchRequired) ∈ anyPin.events [] one.1 ∧
        one.2.2 = two.2.2 ∧ Alike (fun _ _ => True) one.1 two.1 ∧
        Event.veiledLog (anyPin.events [] one.1) = Event.veiledLog (anyPin.events [] two.1) ∧
        one.2.1.DifferInPin (fun _ _ => True) two.2.1 :=
  ⟨blind_anyPin, by decide, by decide, by decide,
    follow_perform_alike ⟨by decide, by decide⟩ ⟨by decide, by decide⟩ trivial
      (.changePin true trivial) blind_anyPin .nil⟩

/-- **No sequence of actions shows anything of the PINs** in it, if the tool cannot tell apart any
two of them that stand in the same place. -/
theorem conduct_alike {session session' : Session} {actions actions' : List Action}
    (hkept : ∀ p q, kept p q → p.Usable ∧ q.Usable ∧ same p q)
    (hsession : session.DifferInPin kept session')
    (hactions : List.Forall₂ (Action.Twin kept) actions actions')
    (htool : tool.Blind same) (hpast : Alike same past past') :
    let one := manager.conduct tool past session actions
    let two := manager.conduct tool past' session' actions'
    List.Forall₂ (Deed.Alike same) one.1 two.1 ∧ one.2.DifferInPin kept two.2 ∧
      Event.veiledLog (tool.events past (one.1.flatMap Deed.trace)) =
        Event.veiledLog (tool.events past' (two.1.flatMap Deed.trace)) := by
  induction hactions generalizing past past' session session' with
  | nil => exact ⟨.nil, hsession, rfl⟩
  | @cons action action' actions actions' haction _ ih =>
    obtain ⟨base, p, q, hpq, rfl, rfl⟩ := hsession
    obtain ⟨hp, hq, hsame⟩ := hkept p q hpq
    obtain ⟨htrace, ⟨hmid, hanswer⟩, hevents⟩ :=
      (perform_twin hp hq hsame hpq haction).follow htool hpast
    obtain ⟨hdeeds, hlast, hmore⟩ := ih hmid (hpast.append htrace)
    refine ⟨.cons ⟨htrace, hanswer⟩ hdeeds, hlast, ?_⟩
    rw [conduct, conduct, List.flatMap_cons, List.flatMap_cons, Tool.events_append,
      Tool.events_append, Event.veiledLog_append, Event.veiledLog_append]
    exact congrArg₂ _ hevents hmore

end Manager

end SecurityKey
