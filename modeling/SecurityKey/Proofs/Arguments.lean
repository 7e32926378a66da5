import Mathlib.Tactic.Common
import SecurityKey.CommandLine.Command
/-!
# Options that were given

What was read of a command line comes from its arguments: the rest that is left to be read is the
end of them (`scan_suffix`), and an option that has no letter and takes no value was noted only
because its name stands among them, behind two dashes (`mem_of_scan_has`). So a command runs without
asking only where it was told to (`mem_of_read_reset`).
-/

namespace SecurityKey.CommandLine

open Text

variable {specs : List OptionSpec} {spec : OptionSpec} {scanned noted : Scanned}
  {name value : String} {most : Nat}

/-- An option of some name can only be given by its name. -/
def OnlyByName (specs : List OptionSpec) (name : String) : Prop :=
  ∀ spec ∈ specs, spec.long = name → spec.short = none ∧ spec.takesValue = false

/-! ## One option -/

theorem has_append {other value : String} :
    Scanned.has ⟨scanned.options ++ [(other, value)], scanned.operands⟩ name ↔
      scanned.has name ∨ other = name := by
  simp [Scanned.has, Scanned.get?, List.find?_append]

theorem has_of_note (h : note spec value scanned = .ok noted) (hhas : noted.has name) :
    scanned.has name ∨ spec.long = name := by
  rw [note] at h
  split_ifs at h
  split at h
  · cases h
  · cases h
  · obtain rfl := Except.ok.inj h
    exact has_append.1 hhas
  · split_ifs at h
    obtain rfl := Except.ok.inj h
    exact has_append.1 hhas

theorem has_of_noteOperands {args : List String} (h : noteOperands most scanned args = .ok noted) :
    noted.has name = scanned.has name := by
  rw [noteOperands] at h
  split_ifs at h
  obtain rfl := Except.ok.inj h
  rfl

/-! ## One argument -/

/-- An option was noted, or it is the one that waits for its value. -/
def Letters.Has (name : String) : Letters → Prop
  | .complete scanned => scanned.has name
  | .expects spec scanned => scanned.has name ∨ spec.long = name

/-- A value completes the reading of its option. -/
theorem has_of_map_note {read : Letters}
    (h : (note spec value scanned).map Letters.complete = .ok read) (hhas : read.Has name) :
    scanned.has name ∨ spec.long = name := by
  cases hnote : note spec value scanned with
  | error halt =>
    rw [hnote] at h
    cases h
  | ok noted =>
    rw [hnote] at h
    obtain rfl := Except.ok.inj h
    exact has_of_note hnote hhas

/-- No letter gives an option that has none. -/
theorem has_of_letters {cluster : List Char} {read : Letters} (hspecs : OnlyByName specs name)
    (h : letters specs scanned cluster = .ok read) (hhas : read.Has name) : scanned.has name := by
  induction cluster generalizing scanned with
  | nil =>
    obtain rfl := Except.ok.inj h
    exact hhas
  | cons c cluster ih =>
    rw [letters] at h
    split at h
    · cases h
    · next found hfind =>
      have hne : found.long ≠ name := by
        intro hname
        have hnone := (hspecs found (List.mem_of_find?_eq_some hfind) hname).1
        have hletter := of_decide_eq_true (List.find?_some hfind :)
        rw [hletter] at hnone
        cases hnone
      split_ifs at h
      · obtain rfl := Except.ok.inj h
        exact hhas.resolve_right hne
      · exact (has_of_map_note h hhas).resolve_right hne
      · exact (has_of_map_note h hhas).resolve_right hne
      · split at h
        · next noted hnote => exact (has_of_note hnote (ih h)).resolve_right hne
        · cases h

/-- A long option is given by its name. -/
theorem has_of_long {arg : List Char} {read : Letters} (hspecs : OnlyByName specs name)
    (h : long specs scanned arg = .ok read) (hhas : read.Has name) :
    scanned.has name ∨ arg = name.toList := by
  -- With a value it is another option, which takes one.
  have hother : ∀ found ∈ specs, found.takesValue = true → found.long ≠ name := by
    intro found hmem hvalue hname
    rw [(hspecs found hmem hname).2] at hvalue
    cases hvalue
  rw [long] at h
  cases hsplit : splitOnce? ['='] arg with
  | some parts =>
    rw [hsplit] at h
    dsimp only at h
    split at h
    · cases h
    · next found hfind =>
      have hmem := List.mem_of_find?_eq_some hfind
      cases hvalue : found.takesValue with
      | true =>
        rw [hvalue] at h
        exact .inl ((has_of_map_note h hhas).resolve_right (hother found hmem hvalue))
      | false =>
        rw [hvalue] at h
        cases h
  | none =>
    rw [hsplit] at h
    dsimp only at h
    split at h
    · cases h
    · next found hfind =>
      have hmem := List.mem_of_find?_eq_some hfind
      have hname : found.long = String.ofList arg := of_decide_eq_true (List.find?_some hfind :)
      cases hvalue : found.takesValue with
      | true =>
        rw [hvalue] at h
        obtain rfl := Except.ok.inj h
        exact .inl (hhas.resolve_right (hother found hmem hvalue))
      | false =>
        rw [hvalue] at h
        refine (has_of_map_note h hhas).imp_right fun hlong => ?_
        rw [← hlong, hname, String.toList_ofList]

/-- An argument that looks like an option. -/
theorem has_of_option {arg : String} {read : Letters} (hspecs : OnlyByName specs name)
    (h : option specs scanned arg = .ok read) (hhas : read.Has name) :
    scanned.has name ∨ arg = "--" ++ name := by
  rw [option] at h
  split at h
  · next rest harg =>
    refine (has_of_long hspecs h hhas).imp_right fun hrest => ?_
    apply String.toList_injective
    rw [harg, hrest, String.toList_append]
    rfl
  · exact .inl (has_of_letters hspecs h hhas)
  · cases h

/-! ## All arguments -/

/-- An option that was noted without a letter and without a value stands among the arguments. -/
theorem mem_of_scan_has {operands : Option Nat} {args rest : List String}
    (hspecs : OnlyByName specs name) (h : scan specs operands scanned args = .ok (noted, rest))
    (hhas : noted.has name) : scanned.has name ∨ ("--" ++ name) ∈ args := by
  fun_induction scan specs operands scanned args with
  | case1 | case3 | case11 =>
    obtain ⟨rfl, -⟩ := Prod.mk.inj (Except.ok.inj h)
    exact .inl hhas
  | case2 scanned rest most =>
    cases hnote : noteOperands most scanned rest with
    | error halt =>
      rw [hnote] at h
      cases h
    | ok gathered =>
      rw [hnote] at h
      obtain ⟨rfl, -⟩ := Prod.mk.inj (Except.ok.inj h)
      exact .inl (has_of_noteOperands hnote ▸ hhas)
  | case6 scanned arg rest _ _ read hread ih =>
    rcases ih h with hread' | hmem
    · have hhas := has_of_option hspecs hread hread'
      exact hhas.imp_right fun harg => List.mem_cons.2 (.inl harg.symm)
    · exact .inr (List.mem_cons_of_mem _ hmem)
  | case10 scanned arg _ _ spec waiting hread value rest _ read hnote ih =>
    rcases ih h with hread' | hmem
    · exact (has_of_option hspecs hread (has_of_note hnote hread')).imp_right
        fun harg => List.mem_cons.2 (.inl harg.symm)
    · exact .inr (List.mem_cons_of_mem _ (List.mem_cons_of_mem _ hmem))
  | case13 scanned arg rest _ _ most hmost read hnote ih =>
    rcases ih (hmost ▸ h) with hread' | hmem
    · exact .inl (has_of_noteOperands hnote ▸ hread')
    · exact .inr (List.mem_cons_of_mem _ hmem)
  | case4 | case5 | case7 | case8 | case9 | case12 => cases h

/-- What is left to be read is the end of the arguments. -/
theorem scan_suffix {args rest : List String}
    (h : scan specs none scanned args = .ok (noted, rest)) : rest <:+ args := by
  generalize hnone : (none : Option Nat) = operands at h
  fun_induction scan specs operands scanned args with
  | case1 | case11 =>
    obtain ⟨-, rfl⟩ := Prod.mk.inj (Except.ok.inj h)
    exact List.suffix_refl _
  | case3 =>
    obtain ⟨-, rfl⟩ := Prod.mk.inj (Except.ok.inj h)
    exact List.nil_suffix
  | case6 _ _ _ _ _ _ _ ih => exact (ih h).trans (List.suffix_cons _ _)
  | case10 _ _ _ _ _ _ _ _ _ _ _ _ ih =>
    exact (ih h).trans ((List.suffix_cons _ _).trans (List.suffix_cons _ _))
  | case2 _ _ _ hsome | case13 _ _ _ _ _ _ hsome => rw [← hnone] at hsome; cases hsome
  | case4 | case5 | case7 | case8 | case9 | case12 => cases h

/-! ## The reset -/

theorem onlyByName_yes : OnlyByName [helpOption, ⟨"yes", none, .flag⟩] "yes" := by
  intro spec hmem hname
  rcases List.mem_cons.1 hmem with rfl | hmem
  · exact absurd hname (by decide)
  · obtain rfl := List.mem_singleton.1 hmem
    exact ⟨rfl, rfl⟩

/-- A reading of two parts. -/
theorem read_bind_ok {α β : Type} {read : Except Halt α} {f : α → Except Halt β} {b : β}
    (h : read >>= f = .ok b) : ∃ a, read = .ok a ∧ f a = .ok b := by
  cases read with
  | error halt => cases h
  | ok a => exact ⟨a, rfl, h⟩

theorem readFingerprints_ne_reset {args : List String} {yes : Bool} :
    readFingerprints args ≠ .ok (.reset yes) := by
  intro h
  obtain ⟨⟨_, rest⟩, -, h⟩ := read_bind_ok h
  dsimp only at h
  split at h
  case h_5 | h_6 => cases h
  all_goals
    obtain ⟨_, -, h⟩ := read_bind_ok h
    cases h

/-- A reset that does not ask was told so in its arguments. -/
theorem mem_of_readCommand_reset {args : List String}
    (h : readCommand args = .ok (.reset true)) : "--yes" ∈ args := by
  unfold readCommand at h
  split at h
  case h_7 args =>
    obtain ⟨scanned, hscan, h⟩ := read_bind_ok h
    have hhas : scanned.has "yes" = true := Command.reset.inj (Except.ok.inj h)
    obtain ⟨⟨noted, rest⟩, hread, hcount⟩ := read_bind_ok hscan
    dsimp only at hcount
    split_ifs at hcount
    obtain rfl := Except.ok.inj hcount
    have hmem := (mem_of_scan_has onlyByName_yes hread hhas).resolve_left (by decide)
    exact List.mem_cons_of_mem _ hmem
  case h_8 => exact absurd h readFingerprints_ne_reset
  case h_9 | h_10 | h_11 => cases h
  all_goals
    obtain ⟨_, -, h⟩ := read_bind_ok h
    cases h

/-- **A reset that does not ask** was told so on the command line. -/
theorem mem_of_read_reset {environment : Option String} {args : List String} {settings : Settings}
    (h : read environment args = .ok settings) (hreset : settings.command = .reset true) :
    "--yes" ∈ args := by
  obtain ⟨⟨scanned, rest⟩, hscan, h⟩ := read_bind_ok h
  obtain ⟨command, hcommand, h⟩ := read_bind_ok h
  obtain ⟨timeout, -, h⟩ := read_bind_ok h
  obtain ⟨touchTimeout, -, h⟩ := read_bind_ok h
  obtain rfl := Except.ok.inj h
  obtain rfl : command = .reset true := hreset
  exact (scan_suffix hscan).subset (mem_of_readCommand_reset hcommand)

end SecurityKey.CommandLine
