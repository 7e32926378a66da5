import SecurityKey.CommandLine.Prompt
import SecurityKey.Proofs.Passkeys
import SecurityKey.Proofs.Pin
import SecurityKey.Proofs.Session
/-!
# When a new PIN takes effect

A PIN is in effect in a session if the session gives it back, if the operations that need a PIN do
not ask for one any more, and if every invocation that loads attributes passes it on (`InEffect`).

The prompt for a new PIN refuses the empty text and nothing else. Of all that it lets through, and
that a device then takes, everything is in effect afterwards but the placeholder
(`newPin_inEffect_iff`): a device whose PIN was set to `0000` has a PIN, and its session has none
(`placeholder_not_inEffect`).
-/

namespace SecurityKey

open Procedure

variable {α β : Type} {trace : List Exchange}

/-! ## Failures of the tool -/

namespace Manager

/-- A failure that an invocation came to: it could not be run, or its reply holds a device error. -/
def Reported (failure : Failure) (trace : List Exchange) : Prop :=
  ∃ call within answer, Exchange.ran call within answer ∈ trace ∧ checked answer = .error failure

theorem Reported.mono {failure : Failure} {trace other : List Exchange}
    (h : Reported failure trace) (hsub : trace ⊆ other) : Reported failure other := by
  obtain ⟨call, within, answer, hmem, hfail⟩ := h
  exact ⟨call, within, answer, hsub hmem, hfail⟩

/-- An attempt that fails only where an invocation does. -/
def OnlyReports (p : Attempt α) : Prop :=
  ∀ trace failure, Walk p.run trace (.error failure) → Reported failure trace

theorem onlyReports_pure (a : α) : OnlyReports (pure a : Attempt α) := by
  intro trace failure h
  cases (walk_attempt_pure.1 h).2

theorem onlyReports_runChecked (call : Invocation) (within : Nat) :
    OnlyReports (runChecked call within) := by
  intro trace failure h
  obtain ⟨answer, rfl, hfail⟩ := walk_runChecked.1 h
  exact ⟨call, within, answer, List.mem_singleton_self _, hfail.symm⟩

theorem OnlyReports.bind {p : Attempt α} {f : α → Attempt β} (hp : OnlyReports p)
    (hf : ∀ a, OnlyReports (f a)) : OnlyReports (p >>= f) := by
  intro trace failure h
  rcases walk_attempt_bind.1 h with ⟨inner, hfail, heq⟩ | ⟨first, second, a, _, hrest, rfl⟩
  · cases heq
    exact hp trace _ hfail
  · exact (hf a second failure hrest).mono (List.subset_append_right first second)

theorem OnlyReports.withLock {p : Attempt α} (hp : OnlyReports p) (handle : String) :
    OnlyReports (withLock handle p) := by
  intro trace failure h
  obtain ⟨rest, rfl, hrest⟩ := walk_withLock.1 h
  exact (hp rest failure hrest).mono (List.subset_cons_self _ rest)

theorem onlyReports_listSites (handle : String) (pin : Option Pin) (within : Nat)
    (domains : List String) : OnlyReports (listSites handle pin within domains) := by
  induction domains with
  | nil => exact onlyReports_pure _
  | cons domain domains ih =>
    exact (onlyReports_runChecked _ _).bind fun reply => ih.bind fun sites => onlyReports_pure _

/-- With a PIN, a listing fails only where the tool does. -/
theorem onlyReports_listCredentials {manager : Manager} {session : Session} {pin : Pin}
    (hpin : session.pin? = some pin) : OnlyReports (manager.listCredentials session) := by
  rw [listCredentials, requirePin, hpin]
  exact OnlyReports.withLock ((onlyReports_runChecked _ _).bind fun reply =>
    onlyReports_listSites _ _ _ _) _

theorem onlyReports_listFingerprints {manager : Manager} {session : Session} {pin : Pin}
    (hpin : session.pin? = some pin) : OnlyReports (manager.listFingerprints session) := by
  rw [listFingerprints, requirePin, hpin]
  exact OnlyReports.withLock ((onlyReports_runChecked _ _).bind fun reply =>
    onlyReports_pure _) _

/-- No reply asks for a PIN in the way an operation does that has none. -/
theorem Reported.pinRequired (h : Reported .pinRequired trace) :
    ∃ call within, Exchange.ran call within (.error .pinRequired) ∈ trace := by
  obtain ⟨call, within, answer, hmem, hfail⟩ := h
  cases answer with
  | error failure =>
    obtain rfl := Except.error.inj hfail
    exact ⟨call, within, hmem⟩
  | ok reply =>
    rw [show checked (.ok reply) = inspected reply from rfl, inspected] at hfail
    split at hfail <;> cases hfail

end Manager

/-! ## PINs in effect -/

/-- A PIN is in effect in a session. -/
structure InEffect (manager : Manager) (session : Session) (pin : Pin) : Prop where
  held : session.pin? = some pin
  /-- The passkeys are listed without another PIN, unless the runner of the tool asks for one. -/
  credentials : ∀ trace, Walk (manager.listCredentials session).run trace (.error .pinRequired) →
    ∃ call within, .ran call within (.error .pinRequired) ∈ trace
  /-- So are the fingerprints. -/
  fingerprints : ∀ trace,
    Walk (manager.listFingerprints session).run trace (.error .pinRequired) →
    ∃ call within, .ran call within (.error .pinRequired) ∈ trace
  /-- To load attributes is to run the tool, each time with the PIN. -/
  attributes : ∀ trace result, Walk (manager.loadAttributes session) trace result →
    ∃ runs, trace = .acquired session.handle :: runs ∧ runs ≠ [] ∧
      ∀ exchange ∈ runs, ∃ call within answer, exchange = .ran call within answer ∧
        ∃ front, call.args = front ++ [Invocation.pinFlag, pin.text, session.handle]

theorem inEffect_of_pin {manager : Manager} {session : Session} {pin : Pin}
    (hpin : session.pin? = some pin) (husable : pin.Usable) : InEffect manager session pin where
  held := hpin
  credentials trace h := (Manager.onlyReports_listCredentials hpin trace _ h).pinRequired
  fingerprints trace h := (Manager.onlyReports_listFingerprints hpin trace _ h).pinRequired
  attributes := by
    intro trace result h
    rw [Manager.loadAttributes, walk_holding] at h
    obtain ⟨runs, rfl, h⟩ := h
    obtain ⟨first, second, load, hload, hrest, rfl⟩ := walk_bind_iff.1 h
    have hdone : second = [] := by
      cases load <;> exact (walk_pure.1 hrest).1
    subst hdone
    rw [List.append_nil]
    refine ⟨first, rfl, ?_⟩
    have hargs := Invocation.pinArgs_some husable
    have hstorage : ∃ front, (Invocation.storageInfo session.handle session.pin?).args =
        front ++ [Invocation.pinFlag, pin.text, session.handle] :=
      ⟨["-I", "-c"], by rw [hpin, Invocation.args, hargs]; rfl⟩
    have hinfo : ∃ front, (Invocation.deviceInfo session.handle session.pin?).args =
        front ++ [Invocation.pinFlag, pin.text, session.handle] :=
      ⟨["-I"], by rw [hpin, Invocation.args, hargs]; rfl⟩
    obtain ⟨storage, ⟨failure, _, rfl, _⟩ | ⟨stored, info, _, rfl, _⟩⟩ :=
      Manager.walk_loadReports.1 hload
    · refine ⟨List.cons_ne_nil _ _, fun exchange hmem => ?_⟩
      obtain rfl := List.mem_singleton.1 hmem
      exact ⟨_, _, _, rfl, hstorage⟩
    · refine ⟨List.cons_ne_nil _ _, fun exchange hmem => ?_⟩
      rcases List.mem_cons.1 hmem with rfl | hmem
      · exact ⟨_, _, _, rfl, hstorage⟩
      · obtain rfl := List.mem_singleton.1 hmem
        exact ⟨_, _, _, rfl, hinfo⟩

/-! ## New PINs -/

open CommandLine in
/-- The prompt for a new PIN gives a line of the input that stands there twice and is not empty. -/
theorem askNewPin_some {lines rest : List String} {newPin : NewPin}
    (h : (askNewPin lines).2 = some (newPin, rest)) :
    newPin.pin.text ≠ "" ∧
      ∃ skipped, lines = skipped ++ newPin.pin.text :: newPin.pin.text :: rest := by
  fun_induction askNewPin lines with
  | case1 => cases h
  | case2 first tail hfirst printed answer heq ih =>
    obtain ⟨hne, skipped, hlines⟩ := ih (by rw [heq]; exact h)
    exact ⟨hne, first :: skipped, by rw [hlines]; rfl⟩
  | case3 => cases h
  | case4 first hfirst again tail confirmed hconfirm =>
    obtain ⟨rfl, rfl⟩ := Prod.mk.inj (Option.some.inj h)
    rw [NewPin.confirm?] at hconfirm
    split_ifs at hconfirm with hsame
    obtain rfl := Pin.mk.inj hsame
    obtain rfl := Option.some.inj hconfirm
    exact ⟨fun hempty => hfirst (by simpa using hempty), [], rfl⟩
  | case5 first hfirst again tail hconfirm printed answer heq ih =>
    obtain ⟨hne, skipped, hlines⟩ := ih (by rw [heq]; exact h)
    exact ⟨hne, first :: again :: skipped, by rw [hlines]; rfl⟩

/-- **A new PIN is in effect** after a dialog that set it, exactly if it is not the placeholder. -/
theorem newPin_inEffect_iff {manager : Manager} {session next : Session} {newPin : NewPin}
    {observed : Bool} {input : String} {rest : List String}
    (hprompt : (CommandLine.askNewPin (CommandLine.inputLines input)).2 = some (newPin, rest))
    (hdialog : Walk (manager.setPin session newPin observed) trace (next, .ok .success) ∨
      Walk (manager.changePin session newPin observed) trace (next, .ok .success)) :
    InEffect manager next newPin.pin ↔ newPin.pin.text ≠ Pin.placeholder := by
  have hnext : next = session.enterPin newPin.pin := by
    rcases hdialog with hset | hchange
    · exact Manager.setPin_after hset
    · exact Manager.changePin_after hchange
  have hne := (askNewPin_some hprompt).1
  subst hnext
  constructor
  · intro h
    exact (Session.pin?_enterPin.1 h.held).2
  · intro hplaceholder
    have husable : newPin.pin.Usable := ⟨hne, hplaceholder⟩
    exact inEffect_of_pin husable.pin?_enterPin husable

/-- A dialog that succeeds, on the way through an operation that sets a PIN. -/
theorem walk_setPin {manager : Manager} {session : Session} {newPin : NewPin} {observed : Bool}
    {script : Script}
    (h : ((Dialog.set newPin manager.timeouts observed).run script).1 = .ok .success) :
    Walk (manager.setPin session newPin observed)
      [.acquired session.handle, .conversed (.setPin session.handle)
        (.set newPin manager.timeouts observed) (.ok .success)]
      (session.enterPin newPin.pin, .ok .success) :=
  .acquire (.converse _ (h ▸ .played script) (.done _))

/-- A key that asks for a new PIN and takes it. -/
def compliant : Script :=
  ⟨[.emit "Enter new PIN: ", .awaitLine, .emit "Enter the same PIN again: ", .awaitLine], none⟩

theorem newPin_inEffect_iff_compliant :
    (CommandLine.askNewPin (CommandLine.inputLines "4321\n4321 \n")).2 =
        some (⟨⟨"4321"⟩⟩, []) ∧
      ∃ trace next, Walk (Manager.setPin ⟨.standard, "", .empty⟩
          (.begin ⟨"/dev/hidraw4", "Key", 1⟩ none) ⟨⟨"4321"⟩⟩ false) trace (next, .ok .success) ∧
        InEffect ⟨.standard, "", .empty⟩ next ⟨"4321"⟩ := by
  have hlines : CommandLine.inputLines "4321\n4321 \n" = ["4321", "4321"] := by rfl
  have hprompt : (CommandLine.askNewPin (CommandLine.inputLines "4321\n4321 \n")).2 =
      some (⟨⟨"4321"⟩⟩, []) := by
    rw [hlines]
    decide
  have htaken : ((Dialog.set ⟨⟨"4321"⟩⟩ .standard false).run compliant).1 = .ok .success := by
    decide
  have hdialog : Walk (Manager.setPin ⟨.standard, "", .empty⟩
      (.begin ⟨"/dev/hidraw4", "Key", 1⟩ none) ⟨⟨"4321"⟩⟩ false) _ (_, .ok .success) :=
    walk_setPin htaken
  have heffect := (newPin_inEffect_iff hprompt (.inl hdialog)).2 (by decide)
  exact ⟨hprompt, _, _, hdialog, heffect⟩

/-- The placeholder can be entered as a new PIN and be taken by a key. The session then has no PIN:
nothing is listed, and the first invocation of a load passes no PIN on. -/
theorem placeholder_not_inEffect :
    ∃ newPin trace next, (CommandLine.askNewPin (CommandLine.inputLines "0000\n0000\n")).2 =
        some (newPin, []) ∧
      Walk (Manager.setPin ⟨.standard, "", .empty⟩ (.begin ⟨"/dev/hidraw4", "Key", 1⟩ none) newPin
        false) trace (next, .ok .success) ∧
      next.entered = some newPin.pin ∧ next.pin? = none ∧
      Walk (Manager.listCredentials ⟨.standard, "", .empty⟩ next).run [] (.error .pinRequired) ∧
      Walk (Manager.listFingerprints ⟨.standard, "", .empty⟩ next).run [] (.error .pinRequired) ∧
      ∃ failure, Walk (Manager.loadAttributes ⟨.standard, "", .empty⟩ next)
        [.acquired "/dev/hidraw4", .ran (.storageInfo "/dev/hidraw4" none) 20000 (.error failure)]
        (next, .error failure) := by
  have htaken : ((Dialog.set ⟨⟨"0000"⟩⟩ .standard false).run compliant).1 = .ok .success := by
    decide
  have hlines : CommandLine.inputLines "0000\n0000\n" = ["0000", "0000"] := by rfl
  refine ⟨⟨⟨"0000"⟩⟩, _, _, ?_, walk_setPin htaken, rfl, by decide, .done _, .done _, .noTerminal,
    .acquire (.run _ (.done _))⟩
  rw [hlines]
  decide

end SecurityKey
