import Mathlib.Tactic.Common
import SecurityKey.Proofs.Pin
/-!
# Argument lists

**Reading back.** An argument list tells the operation and everything it is for, whatever texts
these are: a handle, an id or a name may well be `-w`, `-e` or `-k`. `read?` reads a list by its
length and its first flags, and gives back the invocation, but for a PIN that is not passed on
(`read?_args`). So two invocations with the same arguments are the same in everything else, too.

**Masks.** An argument is masked if the one right before it is the PIN flag, and only then
(`getElem?_redactedArgs`). The PIN stands right behind its flag, so it is always masked, even where
it is `-w` itself, or an operand before it is. Then more than the PIN is masked, but never less.

Main statements: `args_eq_args_iff` and `masked_redactedArgs`.
-/

namespace SecurityKey.Invocation

variable {call other : Invocation} {front : List String} {pin handle : String}

/-! ## Parts of an invocation -/

/-- The handle that an invocation is for. Only the listing is for none. -/
def handle? : Invocation → Option String
  | .listDevices => none
  | .storageInfo handle _ | .deviceInfo handle _ | .listDomains handle _
  | .listCredentials handle _ _ | .deleteCredential handle _ | .setPin handle | .changePin handle
  | .factoryReset handle | .listFingerprints handle _ | .enrollFingerprint handle
  | .deleteFingerprint handle _ | .renameFingerprint handle _ _ => some handle

/-- The PIN that an invocation is built with, whether it is passed on or not. -/
def pin? : Invocation → Option Pin
  | .storageInfo _ pin | .deviceInfo _ pin | .listDomains _ pin | .listCredentials _ pin _
  | .listFingerprints _ pin => pin
  | _ => none

/-- The same invocation without a PIN. -/
def withoutPin : Invocation → Invocation
  | .storageInfo handle _ => .storageInfo handle none
  | .deviceInfo handle _ => .deviceInfo handle none
  | .listDomains handle _ => .listDomains handle none
  | .listCredentials handle _ domain => .listCredentials handle none domain
  | .listFingerprints handle _ => .listFingerprints handle none
  | call => call

/-- The argument list has `pin` behind its flag and before the handle, and without these two it is
the list for no PIN. -/
def Passes (call : Invocation) (front : List String) (pin handle : String) : Prop :=
  call.withoutPin.args = front ++ [handle] ∧ call.args = front ++ [pinFlag, pin, handle]

/-- What an argument list has of a PIN stands before the handle. -/
theorem args_around_pin (call : Invocation) :
    (call.pin? = none ∧ call.withoutPin = call) ∨ ∃ front handle,
      call.withoutPin.args = front ++ [handle] ∧
      call.args = front ++ pinArgs call.pin? ++ [handle] := by
  cases call with
  | storageInfo handle pin => exact .inr ⟨["-I", "-c"], handle, rfl, rfl⟩
  | deviceInfo handle pin => exact .inr ⟨["-I"], handle, rfl, rfl⟩
  | listDomains handle pin => exact .inr ⟨["-L", "-r"], handle, rfl, rfl⟩
  | listCredentials handle pin domain => exact .inr ⟨["-L", "-k", domain], handle, rfl, rfl⟩
  | listFingerprints handle pin => exact .inr ⟨["-L", "-e"], handle, rfl, rfl⟩
  | _ => exact .inl ⟨rfl, rfl⟩

/-- An invocation passes on what there is to pass on of its PIN, and without that it is the same as
without a PIN. -/
theorem passed_cases (call : Invocation) :
    (Pin.forTool? call.pin? = none ∧ call.args = call.withoutPin.args) ∨
      ∃ pin front handle, Pin.forTool? call.pin? = some pin ∧ call.Passes front pin handle := by
  rcases args_around_pin call with ⟨hnone, hsame⟩ | ⟨front, handle, hwithout, hargs⟩
  · exact .inl ⟨by rw [hnone]; rfl, by rw [hsame]⟩
  · rw [pinArgs] at hargs
    cases hpassed : Pin.forTool? call.pin? with
    | none =>
      rw [hpassed, List.append_nil] at hargs
      exact .inl ⟨rfl, hargs.trans hwithout.symm⟩
    | some pin =>
      rw [hpassed, List.append_assoc] at hargs
      exact .inr ⟨pin, front, handle, rfl, hwithout, hargs⟩

theorem Passes.args_ne (h : call.Passes front pin handle) : call.args ≠ call.withoutPin.args := by
  rw [h.1, h.2]
  intro heq
  simpa using congrArg List.length heq

/-- Where the rest is the same, so is what stands around the PIN. -/
theorem Passes.unique {front' : List String} {pin' handle' : String}
    (h : call.Passes front pin handle) (h' : other.Passes front' pin' handle')
    (hsame : call.withoutPin = other.withoutPin) : front = front' ∧ handle = handle' := by
  have hargs : front ++ [handle] = front' ++ [handle'] := by
    rw [← h.1, hsame, h'.1]
  obtain ⟨hfront, hhandle⟩ := List.append_inj' hargs rfl
  exact ⟨hfront, List.singleton_inj.1 hhandle⟩

theorem forTool?_eq_none_iff :
    Pin.forTool? call.pin? = none ↔ call.args = call.withoutPin.args := by
  rcases passed_cases call with ⟨hnone, hargs⟩ | ⟨pin, front, handle, hsome, hpasses⟩
  · exact iff_of_true hnone hargs
  · exact iff_of_false (by simp [hsome]) hpasses.args_ne

/-- A PIN stands behind its flag exactly if it is to be passed on. -/
theorem forTool?_eq_some_iff :
    Pin.forTool? call.pin? = some pin ↔ ∃ front handle, call.Passes front pin handle := by
  rcases passed_cases call with ⟨hnone, hargs⟩ | ⟨passed, front, handle, hsome, hpasses⟩
  · refine iff_of_false (by simp [hnone]) ?_
    rintro ⟨front, handle, hpasses⟩
    exact hpasses.args_ne hargs
  · rw [hsome, Option.some_inj]
    constructor
    · rintro rfl
      exact ⟨front, handle, hpasses⟩
    · rintro ⟨front', handle', hpasses'⟩
      obtain ⟨rfl, rfl⟩ := hpasses.unique hpasses' rfl
      have hlists := List.append_cancel_left (hpasses.2.symm.trans hpasses'.2)
      exact (List.cons.inj (List.cons.inj hlists).2).1

/-! ## Reading back -/

/-- Reads an argument list: the invocation without a PIN, and the PIN that is passed on. -/
def read? : List String → Option (Invocation × Option String)
  | ["-L"] => some (.listDevices, none)
  | ["-I", "-c", handle] => some (.storageInfo handle none, none)
  | ["-I", "-c", "-w", pin, handle] => some (.storageInfo handle none, some pin)
  | ["-I", handle] => some (.deviceInfo handle none, none)
  | ["-I", "-w", pin, handle] => some (.deviceInfo handle none, some pin)
  | ["-L", "-r", handle] => some (.listDomains handle none, none)
  | ["-L", "-r", "-w", pin, handle] => some (.listDomains handle none, some pin)
  | ["-L", "-k", domain, handle] => some (.listCredentials handle none domain, none)
  | ["-L", "-k", domain, "-w", pin, handle] => some (.listCredentials handle none domain, some pin)
  | ["-D", "-i", id, handle] => some (.deleteCredential handle id, none)
  | ["-S", handle] => some (.setPin handle, none)
  | ["-C", handle] => some (.changePin handle, none)
  | ["-R", handle] => some (.factoryReset handle, none)
  | ["-L", "-e", handle] => some (.listFingerprints handle none, none)
  | ["-L", "-e", "-w", pin, handle] => some (.listFingerprints handle none, some pin)
  | ["-S", "-e", handle] => some (.enrollFingerprint handle, none)
  | ["-D", "-e", "-i", id, handle] => some (.deleteFingerprint handle id, none)
  | ["-S", "-e", "-i", id, "-n", name, handle] => some (.renameFingerprint handle id name, none)
  | _ => none

/-- Every argument list is read as what it was made from. -/
theorem read?_args (call : Invocation) :
    read? call.args = some (call.withoutPin, Pin.forTool? call.pin?) := by
  cases call with
  | storageInfo _ pin | deviceInfo _ pin | listDomains _ pin | listCredentials _ pin _
  | listFingerprints _ pin =>
    simp only [args, pinArgs, pin?]
    cases Pin.forTool? pin <;> simp [read?, withoutPin, pinFlag]
  | _ => simp [args, read?, withoutPin, pin?, Pin.forTool?]

/-- Invocations with the same arguments have everything in common, but for PINs that are not passed
on. -/
theorem eq_of_args_eq (h : call.args = other.args) :
    call.withoutPin = other.withoutPin ∧ Pin.forTool? call.pin? = Pin.forTool? other.pin? := by
  have hread := read?_args call
  rw [h, read?_args, Option.some_inj] at hread
  obtain ⟨hrest, hpin⟩ := Prod.mk.inj hread
  exact ⟨hrest.symm, hpin.symm⟩

theorem args_eq_of_eq (hrest : call.withoutPin = other.withoutPin)
    (hpin : Pin.forTool? call.pin? = Pin.forTool? other.pin?) : call.args = other.args := by
  rcases passed_cases call with ⟨hnone, hargs⟩ | ⟨pin, front, handle, hsome, hpasses⟩
  · rw [hargs, hrest, forTool?_eq_none_iff.1 (hpin.symm.trans hnone)]
  · obtain ⟨front', handle', hpasses'⟩ := forTool?_eq_some_iff.1 (hpin.symm.trans hsome)
    obtain ⟨rfl, rfl⟩ := hpasses.unique hpasses' hrest
    rw [hpasses.2, hpasses'.2]

/-- **Arguments determine the operation.** Two invocations have the same arguments exactly if they
are the same operation on the same handle, site, id and name, and pass on the same PIN, if any.
Behind its flag stands the PIN that is passed on, and there is no such flag if there is none. -/
theorem args_eq_args_iff :
    (∀ call other : Invocation, call.args = other.args ↔
      call.withoutPin = other.withoutPin ∧ Pin.forTool? call.pin? = Pin.forTool? other.pin?) ∧
    ∀ call : Invocation,
      (Pin.forTool? call.pin? = none ↔ call.args = call.withoutPin.args) ∧
      ∀ pin, Pin.forTool? call.pin? = some pin ↔ ∃ front handle, call.Passes front pin handle :=
  ⟨fun _ _ => ⟨eq_of_args_eq, fun h => args_eq_of_eq h.1 h.2⟩,
    fun _ => ⟨forTool?_eq_none_iff, fun _ => forTool?_eq_some_iff⟩⟩

/-! ## Masks -/

theorem length_redactAfter (previous : String) (args : List String) :
    (redactAfter previous args).length = args.length := by
  induction args generalizing previous with
  | nil => rfl
  | cons arg args ih => rw [redactAfter, List.length_cons, ih, List.length_cons]

/-- Each argument is masked or shown by the one right before it, as it is and not as it is shown. -/
theorem getElem?_redactAfter (previous : String) (args : List String) (i : Nat) :
    (redactAfter previous args)[i]? = args[i]?.map fun arg =>
      if (previous :: args)[i]? = some pinFlag then mask else arg := by
  induction args generalizing previous i with
  | nil => rfl
  | cons arg args ih =>
    cases i with
    | zero => simp [redactAfter]
    | succ i =>
      rw [redactAfter, List.getElem?_cons_succ, ih, List.getElem?_cons_succ,
        List.getElem?_cons_succ]

theorem getElem?_redactedArgs_zero (call : Invocation) : call.redactedArgs[0]? = call.args[0]? := by
  have hfirst : ("" : String) ≠ pinFlag := by decide
  simp [redactedArgs, getElem?_redactAfter, hfirst]

theorem getElem?_redactedArgs (call : Invocation) (i : Nat) :
    call.redactedArgs[i + 1]? = call.args[i + 1]?.map fun arg =>
      if call.args[i]? = some pinFlag then mask else arg := by
  rw [redactedArgs, getElem?_redactAfter, List.getElem?_cons_succ]

theorem getElem?_redactedArgs_of_ne {i : Nat} (h : call.args[i]? ≠ some pinFlag) :
    call.redactedArgs[i + 1]? = call.args[i + 1]? := by
  rw [getElem?_redactedArgs]
  simp [h]

theorem shown_or_masked (call : Invocation) (i : Nat) :
    call.redactedArgs[i]? = call.args[i]? ∨ call.redactedArgs[i]? = some mask := by
  cases i with
  | zero => exact .inl (getElem?_redactedArgs_zero call)
  | succ i =>
    by_cases hflag : call.args[i]? = some pinFlag
    · rw [getElem?_redactedArgs]
      cases call.args[i + 1]? with
      | none => exact .inl rfl
      | some arg => exact .inr (by simp [hflag])
    · exact .inl (getElem?_redactedArgs_of_ne hflag)

theorem Passes.masked (h : call.Passes front pin handle) :
    call.redactedArgs[front.length + 1]? = some mask := by
  rw [getElem?_redactedArgs, h.2]
  simp

/-- What is shown is a mask, or an argument that is not the PIN. -/
theorem Passes.mem_redactedArgs {arg : String} (h : call.Passes front pin handle)
    (hmem : arg ∈ call.redactedArgs) :
    arg = mask ∨ ∃ i : Nat, i ≠ front.length + 1 ∧ call.args[i]? = some arg := by
  obtain ⟨i, hi⟩ := List.mem_iff_getElem?.1 hmem
  by_cases hplace : i = front.length + 1
  · rw [hplace, h.masked, Option.some_inj] at hi
    exact .inl hi.symm
  · rcases shown_or_masked call i with hshown | hmasked
    · exact .inr ⟨i, hplace, hshown.symm.trans hi⟩
    · rw [hmasked, Option.some_inj] at hi
      exact .inl hi.symm

/-- What is shown of the arguments of an invocation. -/
structure Masked (call : Invocation) : Prop where
  length : call.redactedArgs.length = call.args.length
  /-- In each place stands the argument or a mask. -/
  shown_or_masked : ∀ i : Nat,
    call.redactedArgs[i]? = call.args[i]? ∨ call.redactedArgs[i]? = some mask
  first : call.redactedArgs[0]? = call.args[0]?
  /-- Whatever is not right behind the PIN flag is shown. -/
  shown : ∀ i : Nat, call.args[i]? ≠ some pinFlag → call.redactedArgs[i + 1]? = call.args[i + 1]?
  /-- A PIN that is passed on is masked where it stands. Its text is only shown if it is that of a
  mask, or of another argument. -/
  pin : ∀ pin, Pin.forTool? call.pin? = some pin → ∃ front handle, call.Passes front pin handle ∧
    call.redactedArgs[front.length + 1]? = some mask ∧
    (pin ∈ call.redactedArgs →
      pin = mask ∨ ∃ i : Nat, i ≠ front.length + 1 ∧ call.args[i]? = some pin)

/-- **PINs are masked**, whatever the other arguments are, and nothing is but what is right behind
the PIN flag. -/
theorem masked_redactedArgs (call : Invocation) : Masked call where
  length := length_redactAfter "" call.args
  shown_or_masked := shown_or_masked call
  first := getElem?_redactedArgs_zero call
  shown _ h := getElem?_redactedArgs_of_ne h
  pin pin hpin := by
    obtain ⟨front, handle, hpasses⟩ := forTool?_eq_some_iff.1 hpin
    exact ⟨front, handle, hpasses, hpasses.masked, hpasses.mem_redactedArgs⟩

/-- Where the site and the PIN are both named like the flag, the handle is masked as well. -/
example : (listCredentials "/dev/hidraw0" (some ⟨"-w"⟩) "-w").redactedArgs =
    ["-L", "-k", "-w", "***", "***", "***"] := by decide

end SecurityKey.Invocation
