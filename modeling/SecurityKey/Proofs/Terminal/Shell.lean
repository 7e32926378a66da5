import Mathlib.Tactic.Common
import SecurityKey.Terminal.Shell
/-!
# Command lines are read back

A program and its arguments may hold anything: quotes, blanks, line ends, whatever a shell gives a
meaning to. Written as a command line, they are what a shell reads, word for word.

**Words** (`readWords_quote`). Behind the blank that ends a word, the reader is as it was in front
of the line, so one written word after the other is read.

**Bare characters** (`bare`). What stands outside of quotes and behind no backslash is where a shell
looks for its operators, expansions and wildcards. In a written word it is the word itself, if it is
harmless, and nothing otherwise (`bare_quote`).

Main statement: `commandLine_read_back`.
-/

namespace SecurityKey.Shell

open Text

variable {word read s : List Char} {words : List (List Char)}

/-! ## Characters -/

theorem not_harmless_of_special {c : Char} (h : isSpecial c = true) : isHarmless c = false := by
  have hall : "|&;<>()$`\"*?[]#~!\x7b\x7d%".toList.all (fun c => !isHarmless c) = true := by
    decide
  simpa using List.all_eq_true.1 hall c (List.contains_iff_mem.1 h)

/-- A harmless character means nothing to the shell. -/
theorem not_special_of_harmless {c : Char} (h : isHarmless c = true) : isSpecial c = false := by
  by_contra hspecial
  rw [not_harmless_of_special (by simpa using hspecial)] at h
  exact Bool.false_ne_true h

/-- The shell reads a harmless character as it stands. -/
theorem plain_of_harmless {c : Char} (h : isHarmless c = true) :
    c ≠ '\'' ∧ c ≠ '\\' ∧ isSeparator c = false := by
  have hne : ∀ d, isHarmless d = false → c ≠ d := by
    rintro d hd rfl
    exact absurd (hd.symm.trans h) Bool.false_ne_true
  refine ⟨hne _ (by decide), hne _ (by decide), ?_⟩
  simp [isSeparator, hne ' ' (by decide), hne '\t' (by decide), hne '\n' (by decide)]

theorem not_special_of_separator {c : Char} (h : isSeparator c = true) :
    isSpecial c = false := by
  simp only [isSeparator, Bool.or_eq_true, decide_eq_true_eq] at h
  rcases h with (rfl | rfl) | rfl <;> decide

/-! ## Words -/

theorem readWords_harmless {c : Char} (h : isHarmless c = true) (begun : Option (List Char)) :
    readWords .plain begun (c :: s) = readWords .plain (some (begun.getD [] ++ [c])) s := by
  obtain ⟨hquote, hbackslash, hblank⟩ := plain_of_harmless h
  simp [readWords, hquote, hbackslash, hblank, not_special_of_harmless h]

theorem readWords_all_harmless (h : ∀ c ∈ word, isHarmless c = true) :
    readWords .plain (some read) (word ++ s) = readWords .plain (some (read ++ word)) s := by
  induction word generalizing read with
  | nil => rw [List.nil_append, List.append_nil]
  | cons c word ih =>
    rw [List.cons_append, readWords_harmless (h c (by simp)), Option.getD_some,
      ih fun c hc => h c (List.mem_cons_of_mem _ hc), List.append_assoc, List.singleton_append]

/-- Between single quotes every character is read as itself, a written single quote too. -/
theorem readWords_quoteChar (c : Char) :
    readWords .single (some read) (quoteChar c ++ s) =
      readWords .single (some (read ++ [c])) s := by
  by_cases hc : c = '\''
  · subst hc
    simp [quoteChar, readWords]
  · simp [quoteChar, readWords, hc]

theorem readWords_quoted :
    readWords .single (some read) (word.flatMap quoteChar ++ '\'' :: s) =
      readWords .plain (some (read ++ word)) s := by
  induction word generalizing read with
  | nil => simp [readWords]
  | cons c word ih =>
    rw [List.flatMap_cons, List.append_assoc, readWords_quoteChar, ih, List.append_assoc,
      List.singleton_append]

/-- A word is written as it is, or between quotes. -/
theorem quote_cases (word : List Char) :
    (word ≠ [] ∧ (∀ c ∈ word, isHarmless c = true) ∧ quote word = word) ∨
      quote word = '\'' :: (word.flatMap quoteChar ++ ['\'']) := by
  rw [quote]
  split_ifs with h
  · simp only [Bool.and_eq_true, Bool.not_eq_true', List.isEmpty_eq_false_iff,
      List.all_eq_true] at h
    exact .inl ⟨h.1, h.2, rfl⟩
  · exact .inr rfl

/-- A written word is read as the word. -/
theorem readWords_quote (word s : List Char) :
    readWords .plain none (quote word ++ s) = readWords .plain (some word) s := by
  rcases quote_cases word with ⟨hne, hharmless, hword⟩ | hword
  · rw [hword]
    obtain ⟨c, rest, rfl⟩ := List.exists_cons_of_ne_nil hne
    rw [List.cons_append, readWords_harmless (hharmless c (by simp)),
      readWords_all_harmless fun c hc => hharmless c (List.mem_cons_of_mem _ hc)]
    rfl
  · rw [hword, List.cons_append, List.append_assoc, List.singleton_append]
    exact readWords_quoted

theorem readWords_unwords (h : words ≠ []) :
    readWords .plain none (unwords (words.map quote)) = some words := by
  induction words with
  | nil => exact absurd rfl h
  | cons word words ih =>
    cases words with
    | nil =>
      have := readWords_quote word []
      rw [List.append_nil] at this
      exact this
    | cons next words =>
      show readWords .plain none (quote word ++ ' ' :: unwords ((next :: words).map quote)) = _
      rw [readWords_quote]
      show (readWords .plain none (unwords ((next :: words).map quote))).map ([word] ++ ·) = _
      rw [ih (List.cons_ne_nil next words)]
      rfl

theorem toList_commandLine (program : String) (args : List String) :
    (commandLine program args).toList =
      unwords (((program :: args).map String.toList).map quote) := by
  rw [commandLine, String.toList_ofList, List.map_map]
  rfl

theorem words?_commandLine (program : String) (args : List String) :
    words? (commandLine program args) = some (program :: args) := by
  rw [words?, toList_commandLine, readWords_unwords (by simp)]
  simp [Function.comp_def]

/-- Two commands are never written as the same line. -/
theorem commandLine_injective {program program' : String} {args args' : List String}
    (h : commandLine program args = commandLine program' args') :
    program = program' ∧ args = args' := by
  have hread := words?_commandLine program args
  rw [h, words?_commandLine, Option.some_inj, List.cons.injEq] at hread
  exact ⟨hread.1.symm, hread.2.symm⟩

/-! ## Bare characters -/

/-- The characters of a line that stand outside of quotes and behind no backslash, without the
quotes and backslashes themselves. -/
def bare : Quoting → List Char → List Char
  | _, [] => []
  | .plain, c :: s =>
    if c = '\'' then bare .single s
    else if c = '\\' then bare .escaped s
    else c :: bare .plain s
  | .escaped, _ :: s => bare .plain s
  | .single, c :: s => if c = '\'' then bare .plain s else bare .single s

/-- A line that is read as words has no bare character that means anything to the shell, but for
those that separate the words. -/
theorem not_special_of_readWords {quoting : Quoting} {begun : Option (List Char)}
    (h : readWords quoting begun s = some words) {c : Char} (hc : c ∈ bare quoting s) :
    isSpecial c = false := by
  induction s generalizing quoting begun words with
  | nil => simp [bare] at hc
  | cons d s ih =>
    -- As the reader goes on: by what it reads under, and by the character.
    cases quoting with
    | plain =>
      rw [readWords] at h
      rw [bare] at hc
      split_ifs at h hc with hquote hbackslash hblank hspecial
      · exact ih h hc
      · exact ih h hc
      · obtain ⟨more, hmore, _⟩ := Option.map_eq_some_iff.1 h
        rcases List.mem_cons.1 hc with rfl | hc
        · exact not_special_of_separator hblank
        · exact ih hmore hc
      · rcases List.mem_cons.1 hc with rfl | hc
        · simpa using hspecial
        · exact ih h hc
    | escaped => exact ih h hc
    | single =>
      rw [readWords] at h
      rw [bare] at hc
      split_ifs at h hc with hquote
      · exact ih h hc
      · exact ih h hc

theorem bare_all_harmless (h : ∀ c ∈ word, isHarmless c = true) :
    bare .plain (word ++ s) = word ++ bare .plain s := by
  induction word with
  | nil => rfl
  | cons c word ih =>
    obtain ⟨hquote, hbackslash, _⟩ := plain_of_harmless (h c (by simp))
    rw [List.cons_append, bare, if_neg hquote, if_neg hbackslash,
      ih fun c hc => h c (List.mem_cons_of_mem _ hc), List.cons_append]

theorem bare_quoteChar (c : Char) : bare .single (quoteChar c ++ s) = bare .single s := by
  by_cases hc : c = '\''
  · subst hc
    simp [quoteChar, bare]
  · simp [quoteChar, bare, hc]

theorem bare_quoted : bare .single (word.flatMap quoteChar ++ '\'' :: s) = bare .plain s := by
  induction word with
  | nil => simp [bare]
  | cons c word ih => rw [List.flatMap_cons, List.append_assoc, bare_quoteChar, ih]

/-- Of a written word only a harmless one is bare. -/
theorem bare_quote (word s : List Char) :
    ∃ kept, (∀ c ∈ kept, isHarmless c = true) ∧
      bare .plain (quote word ++ s) = kept ++ bare .plain s := by
  rcases quote_cases word with ⟨_, hharmless, hword⟩ | hword
  · exact ⟨word, hharmless, by rw [hword, bare_all_harmless hharmless]⟩
  · refine ⟨[], by simp, ?_⟩
    rw [hword, List.cons_append, List.append_assoc, List.singleton_append]
    exact bare_quoted

theorem bare_unwords {c : Char} (hc : c ∈ bare .plain (unwords (words.map quote))) :
    c = ' ' ∨ isHarmless c = true := by
  induction words with
  | nil => simp [unwords, bare] at hc
  | cons word words ih =>
    cases words with
    | nil =>
      obtain ⟨kept, hkept, hbare⟩ := bare_quote word []
      rw [List.append_nil] at hbare
      rw [List.map_singleton, unwords, hbare] at hc
      exact .inr (hkept c (by simpa [bare] using hc))
    | cons next words =>
      obtain ⟨kept, hkept, hbare⟩ :=
        bare_quote word (' ' :: unwords ((next :: words).map quote))
      rw [show bare .plain (unwords ((word :: next :: words).map quote)) = _ from hbare,
        List.mem_append] at hc
      rcases hc with hc | hc
      · exact .inr (hkept c hc)
      · rcases List.mem_cons.1 (by simpa [bare] using hc) with rfl | hc
        · exact .inl rfl
        · exact ih hc

/-- **A command line is read back**, whatever the words are, and nothing in it means anything else
to the shell. -/
theorem commandLine_read_back (program : String) (args : List String) :
    words? (commandLine program args) = some (program :: args) ∧
      ∀ c ∈ bare .plain (commandLine program args).toList,
        isSpecial c = false ∧ (c = ' ' ∨ isHarmless c = true) := by
  have hread := words?_commandLine program args
  refine ⟨hread, fun c hc => ⟨?_, ?_⟩⟩
  · obtain ⟨words, hwords, _⟩ := Option.map_eq_some_iff.1 hread
    exact not_special_of_readWords hwords hc
  · rw [toList_commandLine] at hc
    exact bare_unwords hc

/-- Of a word that a shell would run, nothing is bare. -/
example : bare .plain (commandLine "tool" ["-n", "$(id)'"]).toList = "tool -n ".toList := by
  decide

end SecurityKey.Shell
