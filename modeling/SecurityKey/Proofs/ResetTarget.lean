import SecurityKey.Proofs.Pattern.Search
import SecurityKey.Proofs.Reset
/-!
# The target of a factory reset

By the standard pattern a reset goes to registry entries and to raw devices. What the pattern finds
in a handle is the name that begins first, a scheme with the whole number behind it
(`find?_standard`). A reset goes to this name, which need not be all of the handle that it stands
in: it is the handle exactly if that is such a name itself (`FirstResetName.eq_iff`).

Main result: `factoryReset_target`. `factoryReset_beside_listing` is a reset of a name that no
listed device has.
-/

namespace SecurityKey

open Pattern Procedure Text

/-! ## Names -/

/-- What the names of registry entries and of raw devices begin with. -/
def resetSchemes : List (List Char) :=
  ["ioreg://".toList, "/dev/hidraw".toList]

/-- A name that a reset goes to by the standard pattern: a scheme, and a number behind it. -/
def IsResetName (name : List Char) : Prop :=
  ∃ scheme ∈ resetSchemes, ∃ number, name = scheme ++ number ∧ number ≠ [] ∧
    ∀ c ∈ number, isDecimalDigit c

/-- No number goes on at the beginning of a text. -/
def NumberEnds (text : List Char) : Prop :=
  ∀ c ∈ text.head?, isDecimalDigit c = false

/-- The name in a text that begins first, with the whole number. -/
def FirstResetName (text name : List Char) : Prop :=
  ∃ before after, text = before ++ (name ++ after) ∧ IsResetName name ∧ NumberEnds after ∧
    ∀ earlier other rest, text = earlier ++ (other ++ rest) → IsResetName other →
      before.length ≤ earlier.length

variable {text name after : List Char}

/-- Two names that one text begins with have the same scheme. -/
theorem IsResetName.scheme_eq {scheme scheme' rest rest' : List Char} (h : scheme ∈ resetSchemes)
    (h' : scheme' ∈ resetSchemes) (heq : scheme ++ rest = scheme' ++ rest') : scheme = scheme' := by
  -- The two schemes differ in their first character.
  rcases List.mem_pair.1 h with rfl | rfl <;> rcases List.mem_pair.1 h' with rfl | rfl
  · rfl
  · exact absurd heq (by simp)
  · exact absurd heq (by simp)
  · rfl

/-- A text that begins with a name begins with one whose number ends there. -/
theorem IsResetName.whole (h : IsResetName name) (after : List Char) :
    ∃ whole rest, name ++ after = whole ++ rest ∧ IsResetName whole ∧ NumberEnds rest := by
  obtain ⟨scheme, hscheme, number, rfl, hnumber, hdigits⟩ := h
  refine ⟨scheme ++ (number ++ after.takeWhile isDecimalDigit), after.dropWhile isDecimalDigit,
    by simp, ⟨scheme, hscheme, _, rfl, by simp [hnumber], fun c hc => ?_⟩, fun c hc => ?_⟩
  · rcases List.mem_append.1 hc with hc | hc
    · exact hdigits c hc
    · exact List.mem_takeWhile_imp hc
  · have hstop := List.head?_dropWhile_not isDecimalDigit after
    rwa [hc] at hstop

/-- **The first name in a text is all of it** exactly if the text is a name. -/
theorem FirstResetName.eq_iff (h : FirstResetName text name) : name = text ↔ IsResetName text := by
  obtain ⟨before, after, rfl, hname, hends, hfirst⟩ := h
  constructor
  · intro heq
    rwa [← heq]
  · intro htext
    obtain rfl : before = [] := List.length_eq_zero_iff.1
      (Nat.le_zero.1 (hfirst [] _ [] (List.append_nil _).symm htext))
    obtain ⟨scheme, hscheme, number, rfl, -, -⟩ := hname
    obtain ⟨scheme', hscheme', number', heq, -, hdigits⟩ := htext
    rw [List.nil_append, List.append_assoc] at heq
    obtain rfl := IsResetName.scheme_eq hscheme hscheme' heq
    rw [List.nil_append, List.self_eq_append_right]
    -- A character behind the name would be of the text's number, which ends with the name's.
    cases after with
    | nil => rfl
    | cons c after =>
      have hc : c ∈ number' := by
        rw [← List.append_cancel_left heq]
        simp
      exact absurd (hdigits c hc) (by simp [hends c rfl])

/-! ## The standard pattern -/

namespace Pattern.Machine

variable {machine : Machine} {start : Bool} {q n : Nat} {scheme s : List Char}

/-- The steps from `q` on take a scheme and a number behind it. -/
def TakesName (machine : Machine) (q : Nat) (scheme : List Char) : Prop :=
  machine.TakesWord q scheme ∧ machine.TakesRun (q + scheme.length) .digits

instance (machine : Machine) (q : Nat) (scheme : List Char) :
    Decidable (machine.TakesName q scheme) :=
  inferInstanceAs (Decidable (_ ∧ _))

theorem Straight.backtrack_name (straight : Straight machine) (h : machine.TakesName q scheme) :
    straight.backtrack start q s = some n ↔ ∃ number after, s = scheme ++ number ++ after ∧
      number ≠ [] ∧ (∀ c ∈ number, isDecimalDigit c) ∧ NumberEnds after ∧
      n = (scheme ++ number).length := by
  rw [straight.backtrack_word h.1]
  simp only [straight.backtrack_run_eq_some_iff h.2, CharSet.has_digits]
  constructor
  · rintro ⟨rest, m, rfl, ⟨number, after, rfl, hnumber, hdigits, hends, rfl⟩, rfl⟩
    exact ⟨number, after, (List.append_assoc ..).symm, hnumber, hdigits, hends,
      List.length_append.symm⟩
  · rintro ⟨number, after, rfl, hnumber, hdigits, hends, rfl⟩
    exact ⟨number ++ after, number.length, List.append_assoc .., ⟨number, after, rfl, hnumber,
      hdigits, hends, rfl⟩, List.length_append⟩

/-- A machine that takes a name. -/
def TakesResetName (machine : Machine) : Prop :=
  machine[0]? = some (.fork 1 11) ∧ machine.TakesName 1 "ioreg://".toList ∧
    machine.TakesName 11 "/dev/hidraw".toList

instance (machine : Machine) : Decidable machine.TakesResetName :=
  inferInstanceAs (Decidable (_ ∧ _))

/-- What the machine takes from the beginning is a name with its whole number. -/
theorem Straight.backtrack_resetName (straight : Straight machine) (h : machine.TakesResetName) :
    straight.backtrack start 0 s = some n ↔ ∃ name after, s = name ++ after ∧ IsResetName name ∧
      NumberEnds after ∧ n = name.length := by
  obtain ⟨hfork, hentry, hnode⟩ := h
  rw [straight.backtrack_fork hfork, Option.or_eq_some_iff, straight.backtrack_name hentry,
    straight.backtrack_name hnode]
  constructor
  · rintro (⟨number, after, rfl, hnumber, hdigits, hends, rfl⟩ |
      ⟨-, number, after, rfl, hnumber, hdigits, hends, rfl⟩)
    · exact ⟨_, after, rfl, ⟨_, List.mem_cons_self, number, rfl, hnumber, hdigits⟩, hends, rfl⟩
    · exact ⟨_, after, rfl, ⟨_, List.mem_cons_of_mem _ List.mem_cons_self, number, rfl, hnumber,
        hdigits⟩, hends, rfl⟩
  · rintro ⟨_, after, rfl, ⟨scheme, hscheme, number, rfl, hnumber, hdigits⟩, hends, rfl⟩
    rcases List.mem_pair.1 hscheme with rfl | rfl
    · exact .inl ⟨number, after, rfl, hnumber, hdigits, hends, rfl⟩
    · refine .inr ⟨?_, number, after, rfl, hnumber, hdigits, hends, rfl⟩
      rw [Option.eq_none_iff_forall_ne_some]
      intro m hm
      obtain ⟨other, rest, hsplit, -⟩ := (straight.backtrack_name hentry).1 hm
      exact absurd hsplit (by simp)

/-- Nothing matches between two parts of a text if the second one begins with no name. -/
theorem Straight.matchBetween_eq_none_iff (straight : Straight machine)
    (h : machine.TakesResetName) {before rest : List Char} :
    straight.matchBetween before rest = none ↔
      ∀ name after, rest = name ++ after → ¬ IsResetName name := by
  rw [Straight.matchBetween, Option.eq_none_iff_forall_ne_some]
  constructor
  · rintro hnone name after rfl hname
    obtain ⟨whole, rest, hsplit, hwhole, hends⟩ := hname.whole after
    exact hnone _ ((straight.backtrack_resetName h).2 ⟨whole, rest, hsplit, hwhole, hends, rfl⟩)
  · intro hall n hn
    obtain ⟨name, after, hsplit, hname, -⟩ := (straight.backtrack_resetName h).1 hn
    exact hall name after hsplit hname

theorem find?_resetName (straight : Straight machine) (h : machine.TakesResetName)
    {name : List Char} : machine.find? s = some name ↔ FirstResetName s name := by
  rw [find?_eq_some_iff straight]
  constructor
  · rintro ⟨before, rest, n, rfl, hn, rfl, hfirst⟩
    obtain ⟨name, after, rfl, hname, hends, rfl⟩ := (straight.backtrack_resetName h).1 hn
    rw [List.take_left]
    refine ⟨before, after, rfl, hname, hends, fun earlier other rest hsplit hother => ?_⟩
    by_contra hlt
    have hnone := hfirst earlier (other ++ rest) hsplit (Nat.lt_of_not_le hlt)
    exact (straight.matchBetween_eq_none_iff h).1 hnone other rest rfl hother
  · rintro ⟨before, after, rfl, hname, hends, hfirst⟩
    refine ⟨before, name ++ after, name.length, rfl, ?_, List.take_left.symm, ?_⟩
    · exact (straight.backtrack_resetName h).2 ⟨name, after, rfl, hname, hends, rfl⟩
    · intro earlier more hsplit hlt
      refine (straight.matchBetween_eq_none_iff h).2 fun other rest hmore hother => ?_
      exact absurd (hfirst earlier other rest (hmore ▸ hsplit) hother) (Nat.not_le_of_lt hlt)

theorem find?_resetName_eq_none (straight : Straight machine) (h : machine.TakesResetName) :
    machine.find? s = none ↔ ∀ name, IsResetName name → ¬ name <:+: s := by
  rw [find?_eq_none_iff straight]
  simp only [straight.matchBetween_eq_none_iff h]
  constructor
  · rintro hnone name hname ⟨before, after, rfl⟩
    exact hnone before (name ++ after) (List.append_assoc ..) name after rfl hname
  · rintro hnone before rest rfl name after rfl hname
    exact hnone name hname ⟨before, after, List.append_assoc ..⟩

end Pattern.Machine

/-- The standard pattern can be read, and is read as a machine that takes names. -/
theorem exists_standard : ∃ pattern, Pattern.read? Manager.standardReset = some pattern ∧
    pattern.machine.Flat ∧ pattern.machine.TakesResetName := by
  have hany : (Pattern.read? Manager.standardReset).any fun pattern =>
      decide (pattern.machine.Flat ∧ pattern.machine.TakesResetName) := by
    decide +kernel
  obtain ⟨pattern, hread, htakes⟩ := (Option.any_eq_true _ _).1 hany
  exact ⟨pattern, hread, of_decide_eq_true htakes⟩

variable {pattern : Pattern} {handle target : String}

/-- **What the standard pattern finds** in a handle is the first name in it. -/
theorem find?_standard (h : Pattern.read? Manager.standardReset = some pattern) :
    pattern.find? handle = some target ↔ FirstResetName handle.toList target.toList := by
  obtain ⟨_, hread, hflat, hname⟩ := exists_standard
  cases h.symm.trans hread
  rw [Pattern.find?, Option.map_eq_some_iff]
  simp only [Machine.find?_resetName hflat.straight hname]
  constructor
  · rintro ⟨name, hfirst, rfl⟩
    rwa [String.toList_ofList]
  · exact fun hfirst => ⟨_, hfirst, String.ofList_toList⟩

/-- In a handle without a name it finds nothing. -/
theorem find?_standard_eq_none (h : Pattern.read? Manager.standardReset = some pattern) :
    pattern.find? handle = none ↔ ∀ name, IsResetName name → ¬ name <:+: handle.toList := by
  obtain ⟨_, hread, hflat, hname⟩ := exists_standard
  cases h.symm.trans hread
  rw [Pattern.find?, Option.map_eq_none_iff, Machine.find?_resetName_eq_none hflat.straight hname]

/-! ## The target -/

/-- What a reset goes to by the standard pattern: the first name in the handle of the first device
that has one in its handle. -/
structure ResetTarget (devices : List Device) (device : Device) (target : String) : Prop where
  listed : ∃ before after, devices = before ++ device :: after ∧
    ∀ earlier ∈ before, ∀ name, IsResetName name → ¬ name <:+: earlier.handle.toList
  first : FirstResetName device.handle.toList target.toList

/-- The handle that a request is for. -/
def Procedure.Ask.handle? : Ask → Option String
  | .tool call | .window call => call.handle?
  | .lock handle => some handle
  | .time | .print _ => none

/-- What a procedure goes to: it takes the lock of this name, or uses the tool for it, or says that
it did. -/
def GoesTo (trace : List Exchange) (result : Except Failure String) (target : String) : Prop :=
  (∃ exchange ∈ trace, exchange.ask.handle? = some target) ∨ result = .ok target

namespace Manager

variable {manager : Manager} {pluggedIn : Int} {trace : List Exchange}
  {result : Except Failure String}

theorem firstTarget_standard (h : Pattern.read? standardReset = some pattern)
    {devices : List Device} :
    FirstTarget pattern (devices.map Device.handle) target ↔
      ∃ device, ResetTarget devices device target := by
  constructor
  · rintro ⟨before, handle, after, hsplit, htarget, hnone⟩
    obtain ⟨before, rest, rfl, rfl, hrest⟩ := List.map_eq_append_iff.1 hsplit
    obtain ⟨device, after, rfl, rfl, rfl⟩ := List.map_eq_cons_iff.1 hrest
    refine ⟨device, ⟨before, after, rfl, fun earlier hmem => ?_⟩, (find?_standard h).1 htarget⟩
    exact (find?_standard_eq_none h).1 (hnone _ (List.mem_map_of_mem hmem))
  · rintro ⟨device, ⟨before, after, rfl, hnone⟩, hfirst⟩
    refine ⟨before.map Device.handle, device.handle, after.map Device.handle, by simp,
      (find?_standard h).2 hfirst, fun earlier hmem => ?_⟩
    obtain ⟨other, hother, rfl⟩ := List.mem_map.1 hmem
    exact (find?_standard_eq_none h).2 (hnone other hother)

/-- A reset that ends with the listing goes nowhere. -/
theorem not_goesTo_listing {within : Nat} {listing : Except Failure Reply} {failure : Failure} :
    ¬ GoesTo [.ran .listDevices within listing] (.error failure) target := by
  rintro (⟨exchange, hmem, hhandle⟩ | hreturn)
  · obtain rfl := List.mem_singleton.1 hmem
    cases hhandle
  · cases hreturn

/-- Behind the lock, a reset reads the clock and tells the tool to reset its target. -/
theorem DeviceResetWalk.ask_of_mem {goal : String} {done : Except Failure Unit}
    (h : DeviceResetWalk manager goal pluggedIn trace done) {exchange : Exchange}
    (hmem : exchange ∈ trace) :
    exchange.ask = .time ∨ exchange.ask = .tool (.factoryReset goal) := by
  cases h with
  | late =>
    obtain rfl := List.mem_singleton.1 hmem
    exact .inl rfl
  | reset =>
    rcases List.mem_pair.1 hmem with rfl | rfl
    · exact .inl rfl
    · exact .inr rfl

/-- A reset with a target goes to it and nowhere else. -/
theorem DeviceResetWalk.goesTo_iff {within : Nat} {listing : Except Failure Reply}
    {goal : String} {rest : List Exchange} {done : Except Failure Unit}
    (h : DeviceResetWalk manager goal pluggedIn rest done) :
    GoesTo (.ran .listDevices within listing :: .acquired goal :: rest) (done.map fun _ => goal)
      target ↔ target = goal := by
  constructor
  · rintro (⟨exchange, hmem, hhandle⟩ | hreturn)
    · rcases List.mem_cons.1 hmem with rfl | hmem
      · cases hhandle
      rcases List.mem_cons.1 hmem with rfl | hmem
      · exact (Option.some.inj hhandle).symm
      rcases h.ask_of_mem hmem with hask | hask <;> rw [hask] at hhandle
      · cases hhandle
      · exact (Option.some.inj hhandle).symm
    · cases done with
      | error failure => cases hreturn
      | ok => exact (Except.ok.inj hreturn).symm
  · rintro rfl
    exact .inl ⟨.acquired target, by simp, rfl⟩

theorem ResetWalk.goesTo_unique {other : String} (h : ResetWalk manager pluggedIn trace result)
    (htarget : GoesTo trace result target) (hother : GoesTo trace result other) :
    target = other := by
  cases h with
  | unlisted => exact absurd htarget not_goesTo_listing
  | untargeted => exact absurd htarget not_goesTo_listing
  | targeted _ _ hreset => rw [hreset.goesTo_iff.1 htarget, hreset.goesTo_iff.1 hother]

/-- **Where a reset goes** is the target of a listing that went well. -/
theorem ResetWalk.goesTo_iff (h : ResetWalk manager pluggedIn trace result) :
    GoesTo trace result target ↔ ∃ reply,
      .ran .listDevices manager.timeouts.invocation (.ok reply) ∈ trace ∧ reply.succeeded ∧
        FirstTarget manager.resetPattern ((Device.ofListing reply.stdout).map Device.handle)
          target := by
  cases h with
  | unlisted hfail =>
    refine iff_of_false not_goesTo_listing ?_
    rintro ⟨reply, hmem, hsucceeded, -⟩
    cases List.mem_singleton.1 hmem
    cases (listed_eq_ok.2 ⟨reply, rfl, hsucceeded, rfl⟩).symm.trans hfail
  | untargeted hlisted hnone =>
    refine iff_of_false not_goesTo_listing ?_
    rintro ⟨reply, hmem, hsucceeded, before, handle, after, hsplit, htarget, -⟩
    cases List.mem_singleton.1 hmem
    cases (listed_eq_ok.2 ⟨reply, rfl, hsucceeded, rfl⟩).symm.trans hlisted
    have hhandle : handle ∈ (Device.ofListing reply.stdout).map Device.handle := by
      rw [hsplit]
      simp
    obtain ⟨device, hdevice, rfl⟩ := List.mem_map.1 hhandle
    cases (hnone device hdevice).symm.trans htarget
  | @targeted listing devices goal rest done hlisted htarget hreset =>
    obtain ⟨reply, rfl, hsucceeded, rfl⟩ := listed_eq_ok.1 hlisted
    rw [hreset.goesTo_iff]
    constructor
    · rintro rfl
      exact ⟨reply, List.mem_cons_self, hsucceeded, htarget⟩
    · rintro ⟨other, hmem, -, hother⟩
      rcases List.mem_cons.1 hmem with hsame | hmem
      · cases hsame
        rw [← resettable?_eq_some, resettable?_eq_some.2 htarget] at hother
        exact (Option.some.inj hother).symm
      rcases List.mem_cons.1 hmem with hsame | hmem
      · cases hsame
      rcases hreset.ask_of_mem hmem with hask | hask <;> cases hask

end Manager

/-- A factory reset in which everything goes well. -/
def resetRun (stdout target : String) : List Exchange :=
  [.ran .listDevices Timeouts.standard.invocation (.ok ⟨some 0, stdout, ""⟩), .acquired target,
    .read 0, .ran (.factoryReset target) Timeouts.standard.touch (.ok ⟨some 0, "", ""⟩)]

theorem exists_resetRun {stdout : String} {device : Device}
    (h : ResetTarget (Device.ofListing stdout) device target) :
    ∃ manager, Manager.ofPattern? .standard Manager.standardReset = some manager ∧
      Walk (manager.factoryReset 0).run (resetRun stdout target) (.ok target) := by
  obtain ⟨pattern, hread, -⟩ := exists_standard
  let manager : Manager := ⟨.standard, Manager.standardReset, pattern⟩
  have hfirst : Manager.FirstTarget pattern ((Device.ofListing stdout).map Device.handle) target :=
    (Manager.firstTarget_standard hread).2 ⟨device, h⟩
  have hintime : (0 : Int) - 0 ≤ Timeouts.standard.replugWindow := by decide
  have hchecked : Manager.checked (.ok ⟨some 0, "", ""⟩) = .ok ⟨some 0, "", ""⟩ :=
    Manager.checked_eq_ok.2 ⟨rfl, by decide⟩
  have hreset : manager.ResetWalk 0 (resetRun stdout target) _ :=
    .targeted (Manager.listed_of_succeeded rfl) hfirst (.reset (.ok ⟨some 0, "", ""⟩) hintime)
  rw [hchecked] at hreset
  exact ⟨manager, by rw [Manager.ofPattern?, hread, Option.map_some],
    Manager.walk_factoryReset.2 hreset⟩

/-- The target of the only listed device, if its handle begins with a name. -/
theorem ResetTarget.only {device : Device} {rest : List Char}
    (hhandle : device.handle.toList = target.toList ++ rest) (hname : IsResetName target.toList)
    (hends : NumberEnds rest) : ResetTarget [device] device target where
  listed := ⟨[], [], rfl, List.forall_mem_nil _⟩
  first := ⟨[], rest, hhandle, hname, hends, fun _ _ _ _ _ => Nat.zero_le _⟩

/-- The name of a raw device. -/
theorem isResetName_node : IsResetName "/dev/hidraw7".toList :=
  ⟨_, List.mem_cons_of_mem _ List.mem_cons_self, ['7'], rfl, List.cons_ne_nil _ _,
    List.forall_mem_singleton.2 (by decide)⟩

/-- **A factory reset goes to the first name** in the handle of the first listed device that has one
in its handle, and to nothing else. That is the handle of a session on this device, and so the lock
that the session takes, exactly if the handle is such a name itself. -/
theorem factoryReset_target {timeouts : Timeouts} {manager : Manager}
    (hmanager : Manager.ofPattern? timeouts Manager.standardReset = some manager)
    {pluggedIn : Int} {trace : List Exchange} {result : Except Failure String}
    (hwalk : Walk (manager.factoryReset pluggedIn).run trace result) :
    (∀ target, GoesTo trace result target ↔ ∃ reply device,
      .ran .listDevices timeouts.invocation (.ok reply) ∈ trace ∧ reply.succeeded ∧
        ResetTarget (Device.ofListing reply.stdout) device target ∧
        ∀ session : Session, session.device = device →
          (target = session.handle ↔ IsResetName device.handle.toList)) ∧
      ∀ target other, GoesTo trace result target → GoesTo trace result other → target = other := by
  obtain ⟨pattern, hread, rfl⟩ := Option.map_eq_some_iff.1 hmanager
  have hreset := Manager.walk_factoryReset.1 hwalk
  refine ⟨fun target => ?_, fun target other => hreset.goesTo_unique⟩
  rw [hreset.goesTo_iff]
  constructor
  · rintro ⟨reply, hmem, hsucceeded, hfirst⟩
    obtain ⟨device, htarget⟩ := (Manager.firstTarget_standard hread).1 hfirst
    refine ⟨reply, device, hmem, hsucceeded, htarget, ?_⟩
    rintro session rfl
    rw [← String.toList_inj]
    exact htarget.first.eq_iff
  · rintro ⟨reply, device, hmem, hsucceeded, htarget, -⟩
    exact ⟨reply, hmem, hsucceeded, (Manager.firstTarget_standard hread).2 ⟨device, htarget⟩⟩

/-- A listed raw device has a name for its handle, so a reset goes to it. -/
theorem factoryReset_target_node : ∃ manager,
    Manager.ofPattern? .standard Manager.standardReset = some manager ∧
      Walk (manager.factoryReset 0).run
        (resetRun "/dev/hidraw7: vendor=0x349e (Key)\n" "/dev/hidraw7") (.ok "/dev/hidraw7") ∧
      ∃ device ∈ Device.ofListing "/dev/hidraw7: vendor=0x349e (Key)\n",
        ∀ session : Session, session.device = device → "/dev/hidraw7" = session.handle := by
  have hlisting : Device.ofListing "/dev/hidraw7: vendor=0x349e (Key)\n" =
      [⟨"/dev/hidraw7", "Key", 1⟩] := by
    decide
  have honly : ResetTarget [⟨"/dev/hidraw7", "Key", 1⟩] _ "/dev/hidraw7" :=
    .only (List.append_nil _).symm isResetName_node (by simp [NumberEnds])
  obtain ⟨manager, hmanager, hwalk⟩ := exists_resetRun (hlisting ▸ honly)
  obtain ⟨reply, device, hmem, -, htarget, hhandle⟩ :=
    ((factoryReset_target hmanager hwalk).1 "/dev/hidraw7").1 (.inr rfl)
  obtain rfl : reply = ⟨some 0, "/dev/hidraw7: vendor=0x349e (Key)\n", ""⟩ := by
    simpa [resetRun] using hmem
  obtain ⟨before, after, hsplit, -⟩ := htarget.listed
  have hdevice : device ∈ Device.ofListing "/dev/hidraw7: vendor=0x349e (Key)\n" := by
    rw [hsplit]
    simp
  refine ⟨manager, hmanager, hwalk, device, hdevice, fun session hsession => ?_⟩
  rw [hlisting, List.mem_singleton] at hdevice
  rw [hhandle session hsession, hdevice]
  exact isResetName_node

/-- Without a blank behind the name, a listed handle is more than the name. A reset goes to the
name, which is no listed handle. -/
theorem factoryReset_beside_listing : ∃ manager,
    Manager.ofPattern? .standard Manager.standardReset = some manager ∧
      Walk (manager.factoryReset 0).run
        (resetRun "/dev/hidraw7:vendor=0x349e (Key)\n" "/dev/hidraw7") (.ok "/dev/hidraw7") ∧
      ∀ device ∈ Device.ofListing "/dev/hidraw7:vendor=0x349e (Key)\n",
        device.handle ≠ "/dev/hidraw7" := by
  have hlisting : Device.ofListing "/dev/hidraw7:vendor=0x349e (Key)\n" =
      [⟨"/dev/hidraw7:vendor=0x349e", "Key", 1⟩] := by
    decide
  have hends : NumberEnds (':' :: "vendor=0x349e".toList) := by
    rintro c ⟨⟩
    decide
  have honly : ResetTarget [⟨"/dev/hidraw7:vendor=0x349e", "Key", 1⟩] _ "/dev/hidraw7" :=
    .only rfl isResetName_node hends
  obtain ⟨manager, hmanager, hwalk⟩ := exists_resetRun (hlisting ▸ honly)
  refine ⟨manager, hmanager, hwalk, ?_⟩
  rw [hlisting]
  exact List.forall_mem_singleton.2 (by decide)

end SecurityKey
