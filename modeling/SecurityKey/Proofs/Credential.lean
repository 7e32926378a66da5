import Mathlib.Data.List.Forall2
import Mathlib.Tactic.Common
import SecurityKey.Credential
import SecurityKey.Proofs.Text.Blank
/-!
# Listings of passkeys

A line lists a passkey exactly if it has three words or more, and what it tells of the passkey is a
matter of the places of its words (`Listed`): the second word is the id, words three and four are
the user, and words five and six the mail address. If one of the user's words has an `@`, it is
these that are the mail address, and there is no user.

So the blanks in a line do not matter, nor do the first word and the words behind the sixth
(`ofLine?_congr`), and a listing gives one passkey for each line with three words or more, in the
order of the lines.

Main statement: `ofListing_by_words`.
-/

namespace SecurityKey

open Text

namespace Credential

variable {domain domain' : String} {line line' : List Char} {ws ws' : List (List Char)}
  {credential credential' : Credential}

/-! ## Places -/

/-- The words that tell of a passkey: the second to the sixth, as far as there are any. -/
def tellingWords (ws : List (List Char)) : List (List Char) :=
  (ws.drop 1).take 5

/-- The words that tell of its user: the third to the sixth. -/
def personWords (ws : List (List Char)) : List (List Char) :=
  (ws.drop 2).take 4

/-- The words of the user's name: the third, and the fourth if there is one. -/
def userWords (ws : List (List Char)) : List (List Char) :=
  (ws.drop 2).take 2

/-- The words of the mail address: the fifth and the sixth. -/
def mailWords (ws : List (List Char)) : List (List Char) :=
  (ws.drop 4).take 2

/-- The name that words give a user. The word `(null)` names nobody. -/
def nameOf (words : List (List Char)) : List Char :=
  if unwords words = "(null)".toList then [] else unwords words

/-- What is listed of a passkey by the words of its line. -/
structure Listed (domain : String) (ws : List (List Char)) (credential : Credential) : Prop where
  domain : credential.domain = domain
  id : ws[1]? = some credential.id.toList
  user_not_mail : '@' ∉ credential.user.toList
  user_ne_null : credential.user ≠ "(null)"
  /-- With an `@` in them, the words of the user are the mail address. -/
  addressed : (∃ w ∈ userWords ws, '@' ∈ w) →
    credential.user = "" ∧ credential.email.toList = unwords (userWords ws)
  /-- Without one they name the user, and the mail address stands behind them, if there are two
  words for it. -/
  named : (∀ w ∈ userWords ws, '@' ∉ w) →
    credential.user.toList = nameOf (userWords ws) ∧
    credential.email.toList = if 6 ≤ ws.length then unwords (mailWords ws) else []

theorem nameOf_ne_null (words : List (List Char)) : nameOf words ≠ "(null)".toList := by
  rw [nameOf]
  split_ifs with hnull
  · decide
  · exact hnull

/-- A name with an `@` is not `(null)`. -/
theorem nameOf_of_mem {words : List (List Char)} (h : ∃ w ∈ words, '@' ∈ w) :
    nameOf words = unwords words := by
  rw [nameOf, if_neg]
  intro hnull
  have hmem : '@' ∈ unwords words := (mem_unwords_iff (by decide)).2 h
  rw [hnull] at hmem
  exact absurd hmem (by decide)

theorem mem_nameOf_iff {words : List (List Char)} :
    '@' ∈ nameOf words ↔ ∃ w ∈ words, '@' ∈ w := by
  constructor
  · intro h
    refine (mem_unwords_iff (by decide)).1 ?_
    rw [nameOf] at h
    split_ifs at h
    · cases h
    · exact h
  · intro h
    rw [nameOf_of_mem h]
    exact (mem_unwords_iff (by decide)).2 h

section Words

variable {id : List Char} (hid : ws[1]? = some id)

include hid

theorem listed_addressed (h : ∃ w ∈ userWords ws, '@' ∈ w) : Listed domain ws
    ⟨domain, String.ofList id, "", String.ofList (nameOf (userWords ws))⟩ where
  domain := rfl
  id := by rw [hid, String.toList_ofList]
  user_not_mail := List.not_mem_nil
  user_ne_null heq := absurd heq (by decide : ("" : String) ≠ "(null)")
  addressed _ := ⟨rfl, String.toList_ofList.trans (nameOf_of_mem h)⟩
  named hnone := by
    obtain ⟨w, hw, hmail⟩ := h
    exact absurd hmail (hnone w hw)

theorem listed_named (h : ∀ w ∈ userWords ws, '@' ∉ w) : Listed domain ws
    ⟨domain, String.ofList id, String.ofList (nameOf (userWords ws)),
      String.ofList (if 6 ≤ ws.length then unwords (mailWords ws) else [])⟩ where
  domain := rfl
  id := by rw [hid, String.toList_ofList]
  user_not_mail := by
    rw [String.toList_ofList, mem_nameOf_iff]
    simpa using h
  user_ne_null heq := nameOf_ne_null (userWords ws) (by rw [← heq, String.toList_ofList])
  addressed hsome := by
    obtain ⟨w, hw, hmail⟩ := hsome
    exact absurd hmail (h w hw)
  named _ := ⟨String.toList_ofList, String.toList_ofList⟩

end Words

/-! ## One line -/

theorem ofLine?_eq_none (h : Spaced ws line) (hlen : ws.length < 3) :
    ofLine? domain line = none := by
  rw [ofLine?, h.words_eq]
  match ws, hlen with
  | [], _ => rfl
  | [_], _ => rfl
  | [_, _], _ => rfl

/-- What is read of a line with three words or more, by the places of its words. -/
theorem ofLine?_eq_some (h : Spaced ws line) (hlen : 3 ≤ ws.length) :
    ∃ id, ws[1]? = some id ∧ ofLine? domain line = some
      (if '@' ∈ nameOf (userWords ws) then
        ⟨domain, String.ofList id, "", String.ofList (nameOf (userWords ws))⟩
      else
        ⟨domain, String.ofList id, String.ofList (nameOf (userWords ws)),
          String.ofList (if 6 ≤ ws.length then unwords (mailWords ws) else [])⟩) := by
  match ws, hlen with
  | index :: id :: third :: more, _ =>
    have hmail : (if 6 ≤ (index :: id :: third :: more).length then
          unwords (mailWords (index :: id :: third :: more)) else []) =
        if more.length < 3 then [] else unwords ((more.drop 1).take 2) := by
      simp only [List.length_cons]
      by_cases hshort : more.length < 3
      · rw [if_pos hshort, if_neg (by omega)]
      · rw [if_neg hshort, if_pos (by omega)]
        rfl
    refine ⟨id, rfl, ?_⟩
    rw [ofLine?, h.words_eq, hmail]
    rfl

/-- A line with three words or more lists a passkey. -/
theorem exists_listed (domain : String) (h : Spaced ws line) (hlen : 3 ≤ ws.length) :
    ∃ credential, ofLine? domain line = some credential ∧ Listed domain ws credential := by
  obtain ⟨id, hid, hline⟩ := ofLine?_eq_some h hlen
  refine ⟨_, hline, ?_⟩
  by_cases hmail : ∃ w ∈ userWords ws, '@' ∈ w
  · rw [if_pos (mem_nameOf_iff.2 hmail)]
    exact listed_addressed hid hmail
  · rw [if_neg (mt mem_nameOf_iff.1 hmail)]
    exact listed_named hid (by simpa using hmail)

/-- A line lists a passkey, as its words tell, or has not enough words. -/
theorem line_cases (domain : String) (h : Spaced ws line) :
    (ws.length < 3 ∧ ofLine? domain line = none) ∨
      ∃ credential, 3 ≤ ws.length ∧ ofLine? domain line = some credential ∧
        Listed domain ws credential := by
  by_cases hlen : 3 ≤ ws.length
  · obtain ⟨credential, hline, hlisted⟩ := exists_listed domain h hlen
    exact .inr ⟨credential, hlen, hline, hlisted⟩
  · exact .inl ⟨by omega, ofLine?_eq_none h (by omega)⟩

theorem listed_of_ofLine? (h : Spaced ws line) (hline : ofLine? domain line = some credential) :
    Listed domain ws credential := by
  rcases line_cases domain h with ⟨_, hnone⟩ | ⟨listed, _, hsome, hlisted⟩
  · cases hnone.symm.trans hline
  · obtain rfl := Option.some.inj (hsome.symm.trans hline)
    exact hlisted

/-! ## What does not matter -/

theorem userWords_of_personWords (ws : List (List Char)) :
    userWords ws = (personWords ws).take 2 := by
  simp [userWords, personWords, List.take_take]

theorem mailWords_of_personWords (ws : List (List Char)) :
    mailWords ws = (personWords ws).drop 2 := by
  simp [mailWords, personWords, List.drop_take, List.drop_drop]

theorem six_le_length_iff (ws : List (List Char)) :
    6 ≤ ws.length ↔ (personWords ws).length = 4 := by
  rw [personWords, List.length_take, List.length_drop]
  omega

/-- The user and the mail address are told by the words three to six. -/
theorem Listed.same_person (h : Listed domain ws credential)
    (h' : Listed domain' ws' credential') (hwords : personWords ws = personWords ws') :
    credential.user = credential'.user ∧ credential.email = credential'.email := by
  have huser : userWords ws = userWords ws' := by
    rw [userWords_of_personWords, hwords, ← userWords_of_personWords]
  have hmail : mailWords ws = mailWords ws' := by
    rw [mailWords_of_personWords, hwords, ← mailWords_of_personWords]
  have hsix : 6 ≤ ws.length ↔ 6 ≤ ws'.length := by
    rw [six_le_length_iff, hwords, ← six_le_length_iff]
  by_cases haddressed : ∃ w ∈ userWords ws, '@' ∈ w
  · obtain ⟨hnobody, haddress⟩ := h.addressed haddressed
    obtain ⟨hnobody', haddress'⟩ := h'.addressed (huser ▸ haddressed)
    refine ⟨hnobody.trans hnobody'.symm, ?_⟩
    rw [← String.toList_inj, haddress, haddress', huser]
  · have hplain : ∀ w ∈ userWords ws, '@' ∉ w := by
      simpa using haddressed
    obtain ⟨hname, haddress⟩ := h.named hplain
    obtain ⟨hname', haddress'⟩ := h'.named (huser ▸ hplain)
    rw [← String.toList_inj, ← String.toList_inj, hname, hname', haddress, haddress', huser, hmail]
    simp only [hsix, and_self]

theorem personWords_of_tellingWords (ws : List (List Char)) :
    personWords ws = (tellingWords ws).drop 1 := by
  simp [personWords, tellingWords, List.drop_take]

theorem getElem?_one_of_tellingWords (ws : List (List Char)) :
    ws[1]? = (tellingWords ws)[0]? := by
  simp [tellingWords]

theorem three_le_length_iff (ws : List (List Char)) :
    3 ≤ ws.length ↔ 2 ≤ (tellingWords ws).length := by
  rw [tellingWords, List.length_take, List.length_drop]
  omega

/-- A line gives what its second to sixth words tell. -/
theorem ofLine?_congr (domain : String) (h : Spaced ws line) (h' : Spaced ws' line')
    (hwords : tellingWords ws = tellingWords ws') :
    ofLine? domain line = ofLine? domain line' := by
  have hthree : 3 ≤ ws.length ↔ 3 ≤ ws'.length := by
    rw [three_le_length_iff, hwords, ← three_le_length_iff]
  rcases line_cases domain h with ⟨hlen, hline⟩ | ⟨credential, hlen, hline, hlisted⟩
  · rw [hline, ofLine?_eq_none h' (by omega)]
  · obtain ⟨credential', hline', hlisted'⟩ := exists_listed domain h' (hthree.1 hlen)
    have hperson : personWords ws = personWords ws' := by
      rw [personWords_of_tellingWords, hwords, ← personWords_of_tellingWords]
    have hid : credential.id = credential'.id := by
      have hsecond : ws[1]? = ws'[1]? := by
        rw [getElem?_one_of_tellingWords, hwords, ← getElem?_one_of_tellingWords]
      rw [hlisted.id, hlisted'.id] at hsecond
      exact String.toList_inj.1 (Option.some.inj hsecond)
    obtain ⟨huser, hemail⟩ := hlisted.same_person hlisted' hperson
    have hdomain : credential.domain = credential'.domain :=
      hlisted.domain.trans hlisted'.domain.symm
    rw [hline, hline', Option.some_inj]
    cases credential
    cases credential'
    simp_all

end Credential

/-! ## Listings -/

namespace Site

variable {lined lined' : List (List Char)} {rows rows' : List (List (List Char))}

/-- All lines are put together from words. -/
theorem exists_rows (lined : List (List Char)) : ∃ rows, List.Forall₂ Spaced rows lined := by
  induction lined with
  | nil => exact ⟨[], .nil⟩
  | cons line lined ih =>
    obtain ⟨rows, hrows⟩ := ih
    exact ⟨words line :: rows, .cons (spaced_words line) hrows⟩

/-- The lines with three words or more list one passkey each. -/
theorem forall₂_listed (domain : String) (h : List.Forall₂ Spaced rows lined) :
    List.Forall₂ (Credential.Listed domain) (rows.filter (3 ≤ ·.length))
      (lined.filterMap (Credential.ofLine? domain)) := by
  induction h with
  | nil => exact .nil
  | @cons ws line rows lined hwords _ ih =>
    rcases Credential.line_cases domain hwords with
      ⟨hlen, hline⟩ | ⟨credential, hlen, hline, hlisted⟩
    · rw [List.filter_cons_of_neg (by simpa using hlen), List.filterMap_cons_none hline]
      exact ih
    · rw [List.filter_cons_of_pos (by simpa using hlen), List.filterMap_cons_some hline]
      exact .cons hlisted ih

/-- Lines that tell the same, one by one, list the same. -/
theorem filterMap_ofLine?_congr (domain : String) (h : List.Forall₂ Spaced rows lined)
    (h' : List.Forall₂ Spaced rows' lined')
    (hwords : rows.map Credential.tellingWords = rows'.map Credential.tellingWords) :
    lined.filterMap (Credential.ofLine? domain) = lined'.filterMap (Credential.ofLine? domain) := by
  induction h generalizing rows' lined' with
  | nil =>
    obtain rfl : rows' = [] := List.map_eq_nil_iff.1 hwords.symm
    cases h'
    rfl
  | @cons ws line rows lined hline _ ih =>
    cases h' with
    | nil => cases hwords
    | @cons ws' line' rows' lined' hline' hrest' =>
      obtain ⟨hfirst, hrest⟩ := List.cons.inj hwords
      rw [List.filterMap_cons, List.filterMap_cons, ih hrest' hrest,
        Credential.ofLine?_congr domain hline hline' hfirst]

/-- **Passkeys are listed by the places of words.** A listing gives one passkey for each of its
lines with three words or more, in the same order, and the words of the line tell what is listed of
it. The user and the mail address are told by the words three to six, and whatever else is done to
the lines makes no difference to what is listed: to the blanks in them, the first words, and the
words behind the sixth. -/
theorem ofListing_by_words :
    (∀ domain text, (ofListing domain text).domain = domain ∧
      ∃ rows, List.Forall₂ Spaced rows (lines text.toList) ∧
        List.Forall₂ (Credential.Listed domain) (rows.filter (3 ≤ ·.length))
          (ofListing domain text).credentials) ∧
    (∀ domain domain' ws ws' line line' credential credential',
      Spaced ws line → Credential.ofLine? domain line = some credential →
      Spaced ws' line' → Credential.ofLine? domain' line' = some credential' →
      Credential.personWords ws = Credential.personWords ws' →
      credential.user = credential'.user ∧ credential.email = credential'.email) ∧
    ∀ domain text text' rows rows', List.Forall₂ Spaced rows (lines text.toList) →
      List.Forall₂ Spaced rows' (lines text'.toList) →
      rows.map Credential.tellingWords = rows'.map Credential.tellingWords →
      ofListing domain text = ofListing domain text' := by
  refine ⟨fun domain text => ⟨rfl, ?_⟩, ?_, ?_⟩
  · obtain ⟨rows, hrows⟩ := exists_rows (lines text.toList)
    exact ⟨rows, hrows, forall₂_listed domain hrows⟩
  · intro domain domain' ws ws' line line' credential credential' hspaced hline hspaced' hline'
      hwords
    exact (Credential.listed_of_ofLine? hspaced hline).same_person
      (Credential.listed_of_ofLine? hspaced' hline') hwords
  · intro domain text text' rows rows' hrows hrows' hwords
    rw [ofListing, ofListing, filterMap_ofLine?_congr domain hrows hrows' hwords]

/-- Two passkeys, an empty line and one that lists nothing. -/
def passkeyListing : String :=
  "00: Zm9v Mary  Ann x m@a.test es256\r\n\n01: only\n02: YmFy bob@b.test"

/-- The same passkeys with other blanks, another number and more words behind the sixth. -/
def respacedListing : String :=
  "\t7: Zm9v Mary Ann x\u00a0m@a.test rs256 uv\n\n01: only \r\n02:  YmFy bob@b.test\n"

def passkeyRows : List (List (List Char)) :=
  [["00:", "Zm9v", "Mary", "Ann", "x", "m@a.test", "es256"], [], ["01:", "only"],
    ["02:", "YmFy", "bob@b.test"]].map (·.map String.toList)

def respacedRows : List (List (List Char)) :=
  [["7:", "Zm9v", "Mary", "Ann", "x", "m@a.test", "rs256", "uv"], [], ["01:", "only"],
    ["02:", "YmFy", "bob@b.test"]].map (·.map String.toList)

theorem ofListing_by_words_respaced :
    List.Forall₂ Spaced passkeyRows (lines passkeyListing.toList) ∧
    List.Forall₂ Spaced respacedRows (lines respacedListing.toList) ∧
    passkeyRows.map Credential.tellingWords = respacedRows.map Credential.tellingWords ∧
    ofListing "a.test" passkeyListing = ofListing "a.test" respacedListing ∧
    ∃ credential credential',
      Credential.ofLine? "a.test" "0: Zm9v Mary  Ann x m@a.test".toList = some credential ∧
      Credential.ofLine? "b.test" "1: YmFy Mary Ann x m@a.test uv".toList = some credential' ∧
      credential.id ≠ credential'.id ∧
      credential.user = credential'.user ∧ credential.email = credential'.email := by
  have hrows : List.Forall₂ Spaced passkeyRows (lines passkeyListing.toList) := by
    decide +kernel
  have hrespaced : List.Forall₂ Spaced respacedRows (lines respacedListing.toList) := by
    decide +kernel
  have hwords : passkeyRows.map Credential.tellingWords =
      respacedRows.map Credential.tellingWords := by
    decide +kernel
  have hone : Credential.ofLine? "a.test" "0: Zm9v Mary  Ann x m@a.test".toList =
      some ⟨"a.test", "Zm9v", "Mary Ann", "x m@a.test"⟩ := by decide
  have hother : Credential.ofLine? "b.test" "1: YmFy Mary Ann x m@a.test uv".toList =
      some ⟨"b.test", "YmFy", "Mary Ann", "x m@a.test"⟩ := by decide
  have hperson := ofListing_by_words.2.1 _ _ _ _ _ _ _ _ (spaced_words _) hone (spaced_words _)
    hother (by decide)
  exact ⟨hrows, hrespaced, hwords,
    ofListing_by_words.2.2 "a.test" passkeyListing respacedListing _ _ hrows hrespaced hwords,
    _, _, hone, hother, by decide, hperson⟩

end Site

end SecurityKey
