import Mathlib.Algebra.Group.Nat.Defs
import Mathlib.Tactic.Common
import SecurityKey.PinPolicy
import SecurityKey.Proofs.Text.Blank
import SecurityKey.Proofs.Text.Lines
import SecurityKey.Proofs.Text.Numeral
import SecurityKey.Proofs.Text.Search
/-!
# What a report says about the minimum PIN length

The first line with the name `minpinlen` decides (`Decides`), and no other line is looked at. Behind
its colon and any blanks its value begins with a numeral, which goes on for as long as there are
digits (`BeginsWith`). If there is none, or it denotes a number of more than 32 bits, then the
report says nothing.

Main statement: `minLength?_decided`.
-/

namespace SecurityKey.PinPolicy

open Text

/-- A line has the name `minpinlen` before its first colon, and this value behind it. -/
def Gives (line value : List Char) : Prop :=
  ∃ name, line = name ++ ':' :: value ∧ ':' ∉ name ∧ trim name = "minpinlen".toList

/-- A line has the name `minpinlen`. -/
def Named (line : List Char) : Prop :=
  ∃ value, Gives line value

/-- The first line of a report with the name `minpinlen` has this value. -/
def Decides (report : String) (value : List Char) : Prop :=
  ∃ before line after, lines report.toList = before ++ line :: after ∧ Gives line value ∧
    ∀ earlier ∈ before, ¬ Named earlier

/-- Behind blanks a value begins with a numeral of a number, and no more digits follow. -/
def BeginsWith (value : List Char) (n : Nat) : Prop :=
  ∃ blanks digits rest, value = blanks ++ digits ++ rest ∧ (∀ c ∈ blanks, isBlank c) ∧
    Denotes digits n ∧ ∀ c, rest.head? = some c → c.isDigit = false

variable {line value : List Char} {report : String} {n : Nat}

/-! ## The line that decides -/

theorem valueOf?_eq_some_iff : valueOf? "minpinlen" line = some value ↔ Gives line value := by
  simp only [valueOf?, Option.bind_eq_bind, Option.bind_eq_some_iff, Prod.exists,
    splitOnce?_char_eq_some_iff, Gives]
  constructor
  · rintro ⟨name, rest, ⟨hline, hname⟩, hvalue⟩
    split_ifs at hvalue with htrim
    obtain rfl := Option.some.inj hvalue
    exact ⟨name, hline, hname, htrim⟩
  · rintro ⟨name, hline, hname, htrim⟩
    exact ⟨name, value, ⟨hline, hname⟩, if_pos htrim⟩

theorem valueOf?_eq_none_iff : valueOf? "minpinlen" line = none ↔ ¬ Named line := by
  rw [Named, Option.eq_none_iff_forall_ne_some, not_exists]
  exact forall_congr' fun value => not_congr valueOf?_eq_some_iff

instance : DecidablePred Named := fun line =>
  decidable_of_iff (¬ valueOf? "minpinlen" line = none) (by rw [valueOf?_eq_none_iff, not_not])

theorem decides_iff :
    (lines report.toList).findSome? (valueOf? "minpinlen") = some value ↔ Decides report value := by
  simp only [List.findSome?_eq_some_iff, valueOf?_eq_some_iff, valueOf?_eq_none_iff, Decides]

/-! ## The number that a value begins with -/

theorem leadingNumber?_eq_some_iff :
    leadingNumber? value = some n ↔ BeginsWith value n ∧ n < 2 ^ 32 := by
  rw [leadingNumber?, Option.filter_eq_some_iff, readNat?_eq_some_iff, decide_eq_true_iff]
  refine and_congr_left fun _ => ⟨fun h => ?_, ?_⟩
  · refine ⟨value.takeWhile isBlank, (trimStart value).takeWhile Char.isDigit,
      (trimStart value).dropWhile Char.isDigit, ?_, fun c hc => List.mem_takeWhile_imp hc, h, ?_⟩
    · rw [List.append_assoc, List.takeWhile_append_dropWhile, trimStart,
        List.takeWhile_append_dropWhile]
    · intro c hc
      simpa [hc] using List.head?_dropWhile_not Char.isDigit (trimStart value)
  · rintro ⟨blanks, digits, rest, rfl, hblanks, hdenotes, hrest⟩
    have hstart : trimStart (blanks ++ digits ++ rest) = digits ++ rest := by
      rw [List.append_assoc]
      refine dropWhile_run hblanks fun c hc => not_isBlank_of_isDigit (hdenotes.isDigit c ?_)
      rw [List.head?_append_of_ne_nil _ hdenotes.ne_nil] at hc
      exact List.mem_of_head? hc
    rwa [hstart, takeWhile_run hdenotes.isDigit hrest]

/-! ## What a report says -/

theorem minLength?_eq_some_iff : minLength? report = some n ↔
    ∃ value, Decides report value ∧ BeginsWith value n ∧ n < 2 ^ 32 := by
  simp only [minLength?, Option.bind_eq_some_iff, decides_iff, leadingNumber?_eq_some_iff]

theorem minLength?_eq_none_iff : minLength? report = none ↔
    (∀ line ∈ lines report.toList, ¬ Named line) ∨
      ∃ value, Decides report value ∧ ∀ n, BeginsWith value n → 2 ^ 32 ≤ n := by
  have hunnamed : (lines report.toList).findSome? (valueOf? "minpinlen") = none ↔
      ∀ line ∈ lines report.toList, ¬ Named line := by
    simp only [List.findSome?_eq_none_iff, valueOf?_eq_none_iff]
  have hunread : ∀ value, leadingNumber? value = none ↔
      ∀ n, BeginsWith value n → 2 ^ 32 ≤ n := by
    intro value
    simp only [Option.eq_none_iff_forall_ne_some, ne_eq, leadingNumber?_eq_some_iff, not_and,
      not_lt]
  rw [← hunnamed, minLength?]
  cases hvalue : (lines report.toList).findSome? (valueOf? "minpinlen") with
  | none => simp
  | some value =>
    rw [Option.bind_some, hunread]
    constructor
    · intro h
      exact .inr ⟨value, decides_iff.1 hvalue, h⟩
    · rintro (hnone | ⟨other, hother, h⟩)
      · cases hnone
      · obtain rfl := Option.some.inj ((decides_iff.2 hother).symm.trans hvalue)
        exact h

/-- The line that says a length. -/
def printed (n : Nat) : String :=
  "minpinlen: " ++ numeral n

theorem toList_printed (n : Nat) :
    (printed n).toList = "minpinlen".toList ++ ':' :: ' ' :: Nat.toDigits 10 n := by
  simp [printed, numeral]

theorem not_mem_printed {c : Char} (hc : c.isDigit = false) (hname : c ∉ "minpinlen: ".toList)
    (n : Nat) : c ∉ (printed n).toList := by
  have hdigits : c ∉ Nat.toDigits 10 n := fun hmem => by
    simp [(denotes_toDigits n).isDigit c hmem] at hc
  simpa [toList_printed, hdigits] using hname

/-- A line that says a length decides if no line before it has the name, and it gives this length
whatever follows but digits. -/
theorem decides_printed {before after : String} {n : Nat}
    (hends : before = "" ∨ ∃ text, before = text ++ "\n")
    (hbefore : ∀ line ∈ lines before.toList, ¬ Named line)
    (hafter : ∀ c, after.toList.head? = some c → c.isDigit = false) :
    ∃ value, Decides (before ++ printed n ++ after) value ∧ BeginsWith value n := by
  have hreturn : (printed n).toList.getLast? ≠ some '\r' := fun hlast =>
    not_mem_printed rfl (by decide) n (List.mem_of_getLast? hlast)
  obtain ⟨first, rest, hfirst, hpre⟩ := lines_append_start (not_mem_printed rfl (by decide) n)
    (by simp [toList_printed]) hreturn after.toList
  have hlines : lines (before ++ printed n ++ after).toList =
      lines before.toList ++ ((printed n).toList ++ first) :: rest := by
    rw [String.toList_append, String.toList_append, ← hfirst]
    rcases hends with rfl | ⟨text, rfl⟩
    · rfl
    · simpa using lines_append_ended text.toList ((printed n).toList ++ after.toList)
  have hgives : Gives ((printed n).toList ++ first) (' ' :: (Nat.toDigits 10 n ++ first)) :=
    ⟨"minpinlen".toList, by simp [toList_printed], by decide, by decide⟩
  have hstops : ∀ c, first.head? = some c → c.isDigit = false := by
    intro c hc
    obtain ⟨more, hmore⟩ := hpre
    refine hafter c ?_
    rw [← hmore, List.head?_append, hc, Option.some_or]
  exact ⟨_, ⟨_, _, _, hlines, hgives, hbefore⟩, [' '], _, first, rfl,
    List.forall_mem_singleton.2 rfl, denotes_toDigits n, hstops⟩

/-- **The first line with the name decides what a report says**, and only that line. The report
gives the number that the value of this line begins with, behind blanks and up to the first other
character, if it has 32 bits at most. It gives none if there is no such line, or if the value of the
first one begins with no number or with a greater one. So it gives the number of a line that was
printed, if no line before it has the name, whatever follows it. -/
theorem minLength?_decided :
    (∀ report n, minLength? report = some n ↔
      ∃ value, Decides report value ∧ BeginsWith value n ∧ n < 2 ^ 32) ∧
    (∀ report, minLength? report = none ↔ (∀ line ∈ lines report.toList, ¬ Named line) ∨
      ∃ value, Decides report value ∧ ∀ n, BeginsWith value n → 2 ^ 32 ≤ n) ∧
    ∀ (before after : String) (n : Nat), n < 2 ^ 32 →
      (before = "" ∨ ∃ text, before = text ++ "\n") →
      (∀ line ∈ lines before.toList, ¬ Named line) →
      (∀ c, after.toList.head? = some c → c.isDigit = false) →
      minLength? (before ++ printed n ++ after) = some n := by
  refine ⟨fun report n => minLength?_eq_some_iff, fun report => minLength?_eq_none_iff, ?_⟩
  intro before after n hn hends hbefore hafter
  obtain ⟨value, hdecides, hbegins⟩ := decides_printed hends hbefore hafter
  exact minLength?_eq_some_iff.2 ⟨value, hdecides, hbegins, hn⟩

/-- The greatest number of 32 bits, behind a line with another name that ends in this one, and
before a line with the name and another number. -/
theorem minLength?_decided_greatest :
    (4294967295 < 2 ^ 32) ∧
    (∀ line ∈ lines "maxrpids in minpinlen: 7\r\n\n".toList, ¬ Named line) ∧
    minLength? ("maxrpids in minpinlen: 7\r\n\n" ++ printed 4294967295 ++
      " (default)\nminpinlen: 4\n") = some 4294967295 := by
  have hbefore : ∀ line ∈ lines "maxrpids in minpinlen: 7\r\n\n".toList, ¬ Named line := by
    decide
  refine ⟨by decide, hbefore, minLength?_decided.2.2 _ _ _ (by decide) ?_ hbefore ?_⟩
  · exact .inr ⟨"maxrpids in minpinlen: 7\r\n", rfl⟩
  · intro c hc
    obtain rfl : ' ' = c := Option.some.inj hc
    rfl

end SecurityKey.PinPolicy
