import Mathlib.Data.List.DropRight
import Mathlib.Tactic.Common
import SecurityKey.Text.Blank
/-!
# Trimmed texts and words

Stripping the end of a text leaves nothing to strip there (`getLast?_dropTrailing`), and a text with
nothing to strip stays as it is (`dropTrailing_eq_self`).

A text is trimmed to nothing exactly if all of it is blank (`trim_eq_nil_iff`). What is trimmed
stays as it is when it is trimmed again (`trim_trim`). It is a part of the text (`isInfix_trim`),
and it holds all parts without a blank (`infix_trim_iff`).

The words on the two sides of a blank are the words of the whole (`words_append_blank`). `Spaced`
says of a text which words it was put together from, with blanks between and around them, and these
are the words that are read (`words_eq_iff`).
-/

namespace SecurityKey.Text

variable {s t : List Char} {p : Char → Bool}

/-! ## Runs of characters -/

/-- A run of characters goes as far as the first other one. -/
theorem takeWhile_run (hrun : ∀ c ∈ s, p c) (hstop : ∀ c, t.head? = some c → p c = false) :
    (s ++ t).takeWhile p = s := by
  rw [List.takeWhile_append_of_pos hrun]
  cases t with
  | nil => simp
  | cons c t => simp [hstop c rfl]

theorem dropWhile_run (hrun : ∀ c ∈ s, p c) (hstop : ∀ c, t.head? = some c → p c = false) :
    (s ++ t).dropWhile p = t := by
  rw [List.dropWhile_append_of_pos hrun]
  cases t with
  | nil => rfl
  | cons c t => simp [hstop c rfl]

/-! ## Trimming -/

theorem dropTrailing_eq_rdropWhile (p : Char → Bool) (s : List Char) :
    dropTrailing p s = s.rdropWhile p :=
  rfl

/-- What was stripped at its end does not end in anything to strip. -/
theorem getLast?_dropTrailing {c : Char} (h : (dropTrailing p s).getLast? = some c) :
    p c = false := by
  have hne : s.rdropWhile p ≠ [] := by
    intro hnil
    simp [dropTrailing_eq_rdropWhile, hnil] at h
  rw [dropTrailing_eq_rdropWhile, List.getLast?_eq_some_getLast hne] at h
  simpa [Option.some.inj h] using List.rdropWhile_last_not p s hne

/-- What does not end in anything to strip stays as it is. -/
theorem dropTrailing_eq_self (h : ∀ c, s.getLast? = some c → p c = false) :
    dropTrailing p s = s := by
  rw [dropTrailing_eq_rdropWhile, List.rdropWhile_eq_self_iff]
  intro hne
  simp [h _ (List.getLast?_eq_some_getLast hne)]

theorem dropTrailing_concat {c : Char} (h : p c) (s : List Char) :
    dropTrailing p (s ++ [c]) = dropTrailing p s :=
  List.rdropWhile_concat_pos p s c h

theorem not_isBlank_of_isDigit {c : Char} (h : c.isDigit) : isBlank c = false := by
  have hbounds : 48 ≤ c.toNat ∧ c.toNat ≤ 57 := by
    simpa [Char.isDigit, UInt32.le_iff_toNat_le] using h
  simp only [isBlank, Bool.or_eq_false_iff, Bool.and_eq_false_iff, decide_eq_false_iff_not,
    beq_eq_false_iff_ne]
  omega

/-- Whether there is nothing but blanks in a text. -/
def AllBlank (text : String) : Prop :=
  ∀ c ∈ text.toList, isBlank c

instance (text : String) : Decidable (AllBlank text) :=
  decidable_of_iff _ List.all_eq_true

theorem trim_eq_nil_iff : trim s = [] ↔ ∀ c ∈ s, isBlank c := by
  rw [trim, trimEnd, dropTrailing_eq_rdropWhile, List.rdropWhile_eq_nil_iff, trimStart]
  induction s with
  | nil => simp
  | cons c s ih => by_cases hc : isBlank c <;> simp [hc, ih]

theorem trimmed_eq_empty_iff {text : String} : trimmed text = "" ↔ AllBlank text := by
  rw [trimmed, ← String.toList_inj, String.toList_ofList]
  exact trim_eq_nil_iff

theorem trimmed_eq_self_iff {text : String} :
    trimmed text = text ↔ trim text.toList = text.toList := by
  rw [trimmed, ← String.toList_inj, String.toList_ofList]

/-- A blank behind a text does not matter to what is trimmed. -/
theorem trim_concat {c : Char} (h : isBlank c) (s : List Char) : trim (s ++ [c]) = trim s := by
  rw [trim, trim, trimStart, trimStart, List.dropWhile_append]
  by_cases hblank : s.dropWhile isBlank = []
  · simp [hblank, h]
  · simp only [List.isEmpty_iff, hblank, if_false]
    exact dropTrailing_concat h _

/-- What begins a text that was stripped begins with nothing to strip. -/
theorem dropWhile_eq_self_of_prefix (h : t <+: s.dropWhile p) : t.dropWhile p = t := by
  cases t with
  | nil => rfl
  | cons c t =>
    obtain ⟨rest, hrest⟩ := h
    have hc : p c = false := by simpa [← hrest] using List.head?_dropWhile_not p s
    simp [hc]

@[simp] theorem trim_trim (s : List Char) : trim (trim s) = trim s := by
  have hstart : trimStart (trim s) = trim s :=
    dropWhile_eq_self_of_prefix (List.rdropWhile_prefix isBlank (s.dropWhile isBlank))
  rw [trim, hstart]
  exact List.rdropWhile_idempotent isBlank (trimStart s)

/-- What neither begins nor ends in a blank stays as it is. -/
theorem trim_eq_self (hfirst : ∀ c, s.head? = some c → isBlank c = false)
    (hlast : ∀ c, s.getLast? = some c → isBlank c = false) : trim s = s := by
  have hstart : trimStart s = s := by
    cases s with
    | nil => rfl
    | cons c s => exact List.dropWhile_cons_of_neg (by simp [hfirst c rfl])
  rw [trim, hstart]
  exact dropTrailing_eq_self hlast

/-- A trimmed text does not end in a blank. -/
theorem getLast?_trim {c : Char} (h : (trim s).getLast? = some c) : isBlank c = false :=
  getLast?_dropTrailing h

theorem isInfix_trim (s : List Char) : trim s <:+: s :=
  (List.rdropWhile_prefix isBlank (trimStart s)).isInfix.trans
    (List.dropWhile_suffix isBlank).isInfix

theorem infix_dropWhile (h : ∀ c ∈ t, p c = false) (hin : t <:+: s) : t <:+: s.dropWhile p := by
  induction s with
  | nil => exact hin
  | cons c s ih =>
    by_cases hc : p c
    · rw [List.dropWhile_cons_of_pos hc]
      rcases List.infix_cons_iff.1 hin with hpre | hin
      · cases t with
        | nil => exact List.nil_infix
        | cons d t =>
          obtain rfl : d = c := (List.cons_prefix_cons.1 hpre).1
          simp [h d List.mem_cons_self] at hc
      · exact ih hin
    · rwa [List.dropWhile_cons_of_neg hc]

/-- Trimming takes nothing from a part of a text that has no blanks. -/
theorem infix_trim_iff (h : ∀ c ∈ t, isBlank c = false) : t <:+: trim s ↔ t <:+: s := by
  refine ⟨fun hin => hin.trans (isInfix_trim s), fun hin => ?_⟩
  have hstart : t <:+: trimStart s := infix_dropWhile h hin
  rw [trim, trimEnd, dropTrailing, ← List.reverse_infix, List.reverse_reverse]
  exact infix_dropWhile (by simpa using h) (List.reverse_infix.2 hstart)

@[simp] theorem trimmed_trimmed (text : String) : trimmed (trimmed text) = trimmed text := by
  simp [trimmed]

/-! ## Words -/

theorem stretches_eq_splitOnP (p : Char → Bool) (s : List Char) :
    stretches p s = s.splitOnP p := by
  induction s with
  | nil => rfl
  | cons c s ih =>
    rw [stretches, List.splitOnP_cons_eq_if_modifyHead, ih]
    obtain ⟨w, ws, hws⟩ := List.exists_cons_of_ne_nil (List.splitOnP_ne_nil p s)
    simp [hws]

/-- A blank ends a word and begins another one. -/
theorem words_append_blank {c : Char} (h : isBlank c) (s t : List Char) :
    words (s ++ c :: t) = words s ++ words t := by
  simp only [words, stretches_eq_splitOnP, List.splitOnP_append_cons s t h, List.filter_append]

@[simp] theorem words_nil : words [] = [] :=
  rfl

/-- A blank behind a text does not matter to its words. -/
theorem words_concat {c : Char} (h : isBlank c) (s : List Char) : words (s ++ [c]) = words s := by
  rw [words_append_blank h, words_nil, List.append_nil]

theorem words_cons_blank {c : Char} (h : isBlank c) (s : List Char) :
    words (c :: s) = words s := by
  rw [← List.nil_append (c :: s), words_append_blank h, words_nil, List.nil_append]

theorem words_eq_nil (h : ∀ c ∈ s, isBlank c) : words s = [] := by
  induction s with
  | nil => rfl
  | cons c s ih =>
    obtain ⟨hc, hs⟩ := List.forall_mem_cons.1 h
    rw [words_cons_blank hc, ih hs]

theorem words_eq_singleton (hne : s ≠ []) (h : ∀ c ∈ s, isBlank c = false) : words s = [s] := by
  simp [words, stretches_eq_splitOnP, List.splitOnP_eq_singleton h, hne]

/-- What is put between words does not matter to other characters. -/
theorem mem_unwords_iff {c : Char} (h : c ≠ ' ') {ws : List (List Char)} :
    c ∈ unwords ws ↔ ∃ w ∈ ws, c ∈ w := by
  fun_induction unwords ws with
  | case1 => simp
  | case2 w => simp
  | case3 w ws _ ih => simp [ih, h]

/-! ## Texts put together from words -/

/-- Whether a text is one word. -/
def IsWord (w : List Char) : Prop :=
  w ≠ [] ∧ ∀ c ∈ w, isBlank c = false

instance : DecidablePred IsWord := fun w =>
  decidable_of_iff (w ≠ [] ∧ w.all fun c => !isBlank c) (by simp [IsWord])

/-- A text has these words, with blanks between them, and with blanks or nothing before the first
and behind the last. -/
inductive Spaced : List (List Char) → List Char → Prop
  | nothing : Spaced [] []
  | blank {c : Char} {ws : List (List Char)} {s : List Char} : isBlank c → Spaced ws s →
      Spaced ws (c :: s)
  | last {w : List Char} : IsWord w → Spaced [w] w
  | word {w : List Char} {c : Char} {ws : List (List Char)} {s : List Char} : IsWord w →
      isBlank c → Spaced ws s → Spaced (w :: ws) (w ++ c :: s)

theorem Spaced.words_eq {ws : List (List Char)} (h : Spaced ws s) : words s = ws := by
  induction h with
  | nothing => rfl
  | blank hc _ ih => rw [words_cons_blank hc, ih]
  | last hw => exact words_eq_singleton hw.1 hw.2
  | word hw hc _ ih =>
    rw [words_append_blank hc, words_eq_singleton hw.1 hw.2, ih, List.singleton_append]

theorem isWord_of_mem_words {w : List Char} (h : w ∈ words s) : IsWord w :=
  ⟨ne_nil_of_mem_words h, fun _ hc => not_isBlank_of_mem_words h hc⟩

/-- Words with one space between each two are put together from these words. -/
theorem spaced_unwords {ws : List (List Char)} (h : ∀ w ∈ ws, IsWord w) :
    Spaced ws (unwords ws) := by
  fun_induction unwords ws with
  | case1 => exact .nothing
  | case2 w => exact .last (h w List.mem_cons_self)
  | case3 w ws _ ih =>
    obtain ⟨hw, hws⟩ := List.forall_mem_cons.1 h
    exact .word hw rfl (ih hws)

/-- A text has no blank, or a first one. -/
theorem blank_cases (s : List Char) : (∀ c ∈ s, isBlank c = false) ∨
    ∃ w c t, s = w ++ c :: t ∧ (∀ d ∈ w, isBlank d = false) ∧ isBlank c := by
  induction s with
  | nil => exact .inl fun _ hc => nomatch hc
  | cons c s ih =>
    by_cases hc : isBlank c
    · exact .inr ⟨[], c, s, rfl, fun _ hd => (nomatch hd), hc⟩
    · have hfirst : isBlank c = false := by simpa using hc
      rcases ih with hs | ⟨w, d, t, rfl, hw, hd⟩
      · exact .inl (List.forall_mem_cons.2 ⟨hfirst, hs⟩)
      · exact .inr ⟨c :: w, d, t, rfl, List.forall_mem_cons.2 ⟨hfirst, hw⟩, hd⟩

/-- Every text is put together from its words. -/
theorem spaced_words (s : List Char) : Spaced (words s) s := by
  rcases blank_cases s with hs | ⟨w, c, t, rfl, hw, hc⟩
  · by_cases hnil : s = []
    · rw [hnil]
      exact .nothing
    · rw [words_eq_singleton hnil hs]
      exact .last ⟨hnil, hs⟩
  · rw [words_append_blank hc]
    have ih : Spaced (words t) t := spaced_words t
    by_cases hnil : w = []
    · rw [hnil]
      exact .blank hc ih
    · rw [words_eq_singleton hnil hw]
      exact .word ⟨hnil, hw⟩ hc ih
termination_by s.length

theorem words_eq_iff {ws : List (List Char)} : words s = ws ↔ Spaced ws s := by
  constructor
  · rintro rfl
    exact spaced_words s
  · exact Spaced.words_eq

theorem words_eq_nil_iff : words s = [] ↔ ∀ c ∈ s, isBlank c := by
  refine ⟨fun h => ?_, words_eq_nil⟩
  rw [words_eq_iff] at h
  generalize hws : ([] : List (List Char)) = ws at h
  induction h with
  | nothing => exact fun _ hc => nomatch hc
  | blank hc _ ih => exact List.forall_mem_cons.2 ⟨hc, ih hws⟩
  | last _ => cases hws
  | word _ _ _ _ => cases hws

instance {ws : List (List Char)} : Decidable (Spaced ws s) :=
  decidable_of_iff _ words_eq_iff

end SecurityKey.Text
