import Mathlib.Tactic.Common
import SecurityKey.Proofs.Terminal.Shell
import SecurityKey.Terminal.Script
/-!
# Texts in a script are read back

A text is written by replacing its backslashes, and then its quotes. The second replacement leaves
the backslashes of the first one alone, and the first one is over when the second puts in more of
them. So the two together write each character by itself (`replaced_replaced`).

The reader behind an opening quote accepts exactly what is written so: it gives the text, and stops
at the quote that closes it (`read?_eq_some_iff`). A command line may hold backslashes and quotes of
its own. In a script it is read as it was, and then gives its words.

Main statement: `command_read_back`.
-/

namespace SecurityKey.Script

variable {text rest s : List Char} {c : Char}

/-! ## One character at a time -/

/-- The written form of one character. -/
def escapeChar (c : Char) : List Char :=
  if c = '\\' then ['\\', '\\'] else if c = '"' then ['\\', '"'] else [c]

theorem escapeChar_of_plain (hbackslash : c ≠ '\\') (hquote : c ≠ '"') : escapeChar c = [c] := by
  rw [escapeChar, if_neg hbackslash, if_neg hquote]

/-- Two replacements, one after the other, write each character by itself. -/
theorem replaced_replaced (text : List Char) :
    replaced '"' ['\\', '"'] (replaced '\\' ['\\', '\\'] text) = text.flatMap escapeChar := by
  have hchar : ∀ c, replaced '"' ['\\', '"'] (if c = '\\' then ['\\', '\\'] else [c]) =
      escapeChar c := by
    intro c
    by_cases hbackslash : c = '\\'
    · rw [if_pos hbackslash, escapeChar, if_pos hbackslash]
      rfl
    · rw [if_neg hbackslash, escapeChar, if_neg hbackslash]
      exact List.flatMap_singleton _ c
  calc replaced '"' ['\\', '"'] (replaced '\\' ['\\', '\\'] text)
      = text.flatMap fun c =>
          replaced '"' ['\\', '"'] (if c = '\\' then ['\\', '\\'] else [c]) := List.flatMap_assoc
    _ = text.flatMap escapeChar := by rw [funext hchar]

theorem toList_escape (text : String) : (escape text).toList = text.toList.flatMap escapeChar := by
  rw [escape, String.toList_ofList, replaced_replaced]

/-- The other order writes the backslashes before the quotes twice. -/
example : replaced '\\' ['\\', '\\'] (replaced '"' ['\\', '"'] ['"']) = ['\\', '\\', '"'] := by
  decide

/-! ## Reading -/

/-- A written character is read as the character. -/
theorem read?_escapeChar (c : Char) (s : List Char) :
    read? (escapeChar c ++ s) = (read? s).map fun (text, rest) => (c :: text, rest) := by
  by_cases hbackslash : c = '\\'
  · subst hbackslash
    simp [escapeChar, read?]
  · by_cases hquote : c = '"'
    · subst hquote
      simp [escapeChar, read?]
    · rw [escapeChar_of_plain hbackslash hquote, List.singleton_append, read?, if_neg hbackslash]
      · exact hquote
      · exact fun _ _ heq _ => hbackslash heq

theorem read?_escaped (text rest : List Char) :
    read? (text.flatMap escapeChar ++ '"' :: rest) = some (text, rest) := by
  induction text with
  | nil => rw [List.flatMap_nil, List.nil_append, read?]
  | cons c text ih =>
    rw [List.flatMap_cons, List.append_assoc, read?_escapeChar, ih]
    rfl

/-- What is read is what was written, up to the quote that closes it. -/
theorem eq_escaped_of_read? (h : read? s = some (text, rest)) :
    s = text.flatMap escapeChar ++ '"' :: rest := by
  fun_induction read? s generalizing text rest with
  | case1 => cases h
  | case2 s =>
    obtain ⟨rfl, rfl⟩ := Prod.mk.inj (Option.some.inj h)
    rfl
  | case3 c s hc ih =>
    obtain ⟨⟨more, behind⟩, hread, heq⟩ := Option.map_eq_some_iff.1 h
    obtain ⟨rfl, rfl⟩ := Prod.mk.inj heq
    have hwritten : escapeChar c = ['\\', c] := by
      rcases (by simpa using hc : c = '\\' ∨ c = '"') with rfl | rfl <;> rfl
    rw [ih hread, List.flatMap_cons, hwritten]
    rfl
  | case4 => cases h
  | case5 => cases h
  | case6 c s hquote _ hbackslash ih =>
    obtain ⟨⟨more, behind⟩, hread, heq⟩ := Option.map_eq_some_iff.1 h
    obtain ⟨rfl, rfl⟩ := Prod.mk.inj heq
    rw [ih hread, List.flatMap_cons, escapeChar_of_plain hbackslash hquote]
    rfl

/-- Each text has one written form, and it ends at the first quote that has no backslash of its
own. -/
theorem read?_eq_some_iff :
    read? s = some (text, rest) ↔ s = text.flatMap escapeChar ++ '"' :: rest := by
  constructor
  · exact eq_escaped_of_read?
  · rintro rfl
    exact read?_escaped text rest

theorem read?_escape (text : String) (rest : List Char) :
    read? ((escape text).toList ++ '"' :: rest) = some (text.toList, rest) := by
  rw [toList_escape]
  exact read?_escaped text.toList rest

/-- **A command line in a script is read back.** Behind an opening quote, a written text is read as
the text, up to the quote that closes it, whatever the script goes on with. So a command line that
stands in a script is read as the program and its arguments, and the program that opens a terminal
window runs the tool in it with the arguments of the invocation. -/
theorem command_read_back :
    (∀ (text : String) (rest : List Char),
      read? ((escape text).toList ++ '"' :: rest) = some (text.toList, rest)) ∧
    (∀ (program : String) (args : List String) (rest : List Char), ∃ line,
      read? ((escape (Shell.commandLine program args)).toList ++ '"' :: rest) =
        some (line, rest) ∧
      Shell.words? (String.ofList line) = some (program :: args)) ∧
    ∀ (tool : String) (invocation : Invocation), ∃ behind line,
      (command tool invocation).args[1]? = some (opening ++ String.ofList behind) ∧
      read? behind = some (line, []) ∧
      Shell.words? (String.ofList line) = some (tool :: invocation.args) := by
  refine ⟨read?_escape, fun program args rest => ?_, fun tool invocation => ?_⟩
  · refine ⟨_, read?_escape _ rest, ?_⟩
    rw [String.ofList_toList, Shell.words?_commandLine]
  · refine ⟨(escape (Shell.commandLine tool invocation.args)).toList ++ ['"'], _, ?_,
      read?_escape _ [], ?_⟩
    · simp [command, running, ← String.toList_inj]
    · rw [String.ofList_toList, Shell.words?_commandLine]

end SecurityKey.Script
