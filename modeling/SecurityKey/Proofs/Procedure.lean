import Mathlib.Tactic.Common
import SecurityKey.Procedure
/-!
# Walks through procedures

A walk through a composed procedure falls into walks through its parts (`walk_bind_iff`), also
where the first part can fail (`walk_attempt_bind`), and a walk through one request is that request
with its answer.

**Answers.** Nothing but the answers decides what is asked next and what comes out
(`Walk.unique`).

**All exchanges.** `Along` is what all exchanges have in common on any way through a procedure, and
`Says` what all texts have in common that are printed. One that is `Quiet` prints none.

**Tools.** A `Tool` answers every request as it likes, with regard to all that was asked and
answered before. What it makes of a procedure is one of the walks (`walk_follow`), so what holds of
every walk holds whatever the tool does, and there is a walk for every tool. What it makes of a
composed procedure is what it makes of the parts (`follow_bind`).
-/

namespace SecurityKey.Procedure

variable {α β ε : Type} {trace : List Exchange}

/-! ## One request -/

@[simp] theorem walk_pure {a result : α} :
    Walk (pure a) trace result ↔ trace = [] ∧ result = a := by
  constructor
  · intro h
    cases h
    exact ⟨rfl, rfl⟩
  · rintro ⟨rfl, rfl⟩
    exact .done _

@[simp] theorem walk_call {invocation : Invocation} {within : Nat} {answer : Except Failure Reply} :
    Walk (call invocation within) trace answer ↔ trace = [.ran invocation within answer] := by
  constructor
  · intro h
    cases h with
    | run answer h =>
      cases h
      rfl
  · rintro rfl
    exact .run answer (.done _)

@[simp] theorem walk_talk {invocation : Invocation} {dialog : Dialog}
    {answer : Except Failure PinOutcome} :
    Walk (talk invocation dialog) trace answer ↔
      DialogAnswer dialog answer ∧ trace = [.conversed invocation dialog answer] := by
  constructor
  · intro h
    cases h with
    | converse answer ha h =>
      cases h
      exact ⟨ha, rfl⟩
  · rintro ⟨ha, rfl⟩
    exact .converse answer ha (.done _)

@[simp] theorem walk_handOff {invocation : Invocation} {answer : Except Failure Unit} :
    Walk (handOff invocation) trace answer ↔ trace = [.launched invocation answer] := by
  constructor
  · intro h
    cases h with
    | launch answer h =>
      cases h
      rfl
  · rintro rfl
    exact .launch answer (.done _)

@[simp] theorem walk_print {text : String} {result : Unit} :
    Walk (print text) trace result ↔ trace = [.said text] := by
  constructor
  · intro h
    cases h with
    | say h =>
      cases h
      rfl
  · rintro rfl
    exact .say (.done _)

@[simp] theorem walk_holding {handle : String} {body : Procedure α} {result : α} :
    Walk (holding handle body) trace result ↔
      ∃ rest, trace = .acquired handle :: rest ∧ Walk body rest result := by
  constructor
  · intro h
    cases h with
    | acquire h => exact ⟨_, rfl, h⟩
  · rintro ⟨rest, rfl, h⟩
    exact .acquire h

/-! ## One after the other -/

theorem walk_bind_iff {p : Procedure α} {f : α → Procedure β} {result : β} :
    Walk (p >>= f) trace result ↔
      ∃ first second middle,
        Walk p first middle ∧ Walk (f middle) second result ∧ trace = first ++ second :=
  walk_bind

/-- A rest that asks for nothing only makes the result another one. -/
theorem walk_map_iff {p : Procedure α} {f : α → β} {result : β} :
    Walk (p >>= fun a => pure (f a)) trace result ↔ ∃ a, Walk p trace a ∧ result = f a := by
  rw [walk_bind_iff]
  constructor
  · rintro ⟨first, second, a, h, hrest, rfl⟩
    obtain ⟨rfl, rfl⟩ := walk_pure.1 hrest
    exact ⟨a, by rwa [List.append_nil], rfl⟩
  · rintro ⟨a, h, rfl⟩
    exact ⟨trace, [], a, h, walk_pure.2 ⟨rfl, rfl⟩, (List.append_nil trace).symm⟩

/-- A part that fails is the end of an attempt; one that does not is followed by the rest. -/
theorem walk_attempt_bind {p : ExceptT ε Procedure α} {f : α → ExceptT ε Procedure β}
    {result : Except ε β} :
    Walk (p >>= f).run trace result ↔
      (∃ failure, Walk p.run trace (.error failure) ∧ result = .error failure) ∨
      ∃ first second middle,
        Walk p.run first (.ok middle) ∧ Walk (f middle).run second result ∧
          trace = first ++ second := by
  rw [ExceptT.run_bind, walk_bind_iff]
  constructor
  · rintro ⟨first, second, middle, hfirst, hsecond, rfl⟩
    cases middle with
    | ok a => exact .inr ⟨first, second, a, hfirst, hsecond, rfl⟩
    | error failure =>
      obtain ⟨rfl, rfl⟩ := walk_pure.1 hsecond
      exact .inl ⟨failure, by rwa [List.append_nil], rfl⟩
  · rintro (⟨failure, h, rfl⟩ | ⟨first, second, a, hfirst, hsecond, rfl⟩)
    · exact ⟨trace, [], .error failure, h, walk_pure.2 ⟨rfl, rfl⟩, by rw [List.append_nil]⟩
    · exact ⟨first, second, .ok a, hfirst, hsecond, rfl⟩

@[simp] theorem walk_attempt_pure {a : α} {result : Except ε α} :
    Walk (pure a : ExceptT ε Procedure α).run trace result ↔ trace = [] ∧ result = .ok a :=
  walk_pure

@[simp] theorem walk_attempt_throw {failure : ε} {result : Except ε α} :
    Walk (throw failure : ExceptT ε Procedure α).run trace result ↔
      trace = [] ∧ result = .error failure :=
  walk_pure

/-- A part that asks for nothing decides at once whether there is a rest. -/
theorem walk_attempt_decided {decided : Except ε α} {f : α → ExceptT ε Procedure β}
    {result : Except ε β} :
    Walk (ExceptT.mk (pure decided) >>= f).run trace result ↔
      (∃ failure, decided = .error failure ∧ trace = [] ∧ result = .error failure) ∨
      ∃ a, decided = .ok a ∧ Walk (f a).run trace result := by
  cases decided with
  | error failure =>
    rw [show (ExceptT.mk (pure (.error failure)) >>= f).run = pure (.error failure) from rfl,
      walk_pure]
    simp
  | ok a =>
    rw [show (ExceptT.mk (pure (.ok a)) >>= f).run = (f a).run from rfl]
    simp

/-- A rest of an attempt that asks for nothing decides the result at once. -/
theorem walk_attempt_bind_decided {p : ExceptT ε Procedure α} {f : α → ExceptT ε Procedure β}
    {g : α → Except ε β} (hf : ∀ a, (f a).run = pure (g a)) {result : Except ε β} :
    Walk (p >>= f).run trace result ↔ ∃ inner, Walk p.run trace inner ∧ result = inner.bind g := by
  have hmap : (p >>= f).run = p.run >>= fun inner => pure (inner.bind g) := by
    rw [ExceptT.run_bind]
    congr 1
    funext inner
    cases inner with
    | error failure => rfl
    | ok a => exact hf a
  rw [hmap, walk_map_iff]

/-- If it cannot fail, it only makes the result another one. -/
theorem walk_attempt_map {p : ExceptT ε Procedure α} {f : α → β} {result : Except ε β} :
    Walk (p >>= fun a => pure (f a)).run trace result ↔
      ∃ inner, Walk p.run trace inner ∧ result = inner.map f := by
  have hmap : ∀ inner : Except ε α, (inner.bind fun a => .ok (f a)) = inner.map f := by
    intro inner
    cases inner <;> rfl
  have hdecided : ∀ a, (pure (f a) : ExceptT ε Procedure β).run = pure (.ok (f a)) := fun _ => rfl
  rw [walk_attempt_bind_decided hdecided]
  simp only [hmap]

/-! ## The answers decide -/

/-- Two ways through a procedure that begin alike are the same: what is asked next and what comes
out depend on the answers only. -/
theorem Walk.unique {p : Procedure α} {other more rest : List Exchange} {result result' : α}
    (h : Walk p trace result) (h' : Walk p other result') (heq : trace ++ more = other ++ rest) :
    trace = other ∧ result = result' := by
  induction h generalizing other with
  | done result =>
    cases h'
    exact ⟨rfl, rfl⟩
  | run answer h ih =>
    cases h' with
    | run answer' h' =>
      obtain ⟨hhead, htail⟩ := List.cons.inj heq
      cases hhead
      obtain ⟨rfl, rfl⟩ := ih h' htail
      exact ⟨rfl, rfl⟩
  | converse answer ha h ih =>
    cases h' with
    | converse answer' ha' h' =>
      obtain ⟨hhead, htail⟩ := List.cons.inj heq
      cases hhead
      obtain ⟨rfl, rfl⟩ := ih h' htail
      exact ⟨rfl, rfl⟩
  | launch answer h ih =>
    cases h' with
    | launch answer' h' =>
      obtain ⟨hhead, htail⟩ := List.cons.inj heq
      cases hhead
      obtain ⟨rfl, rfl⟩ := ih h' htail
      exact ⟨rfl, rfl⟩
  | acquire h ih =>
    cases h' with
    | acquire h' =>
      obtain ⟨rfl, rfl⟩ := ih h' (List.cons.inj heq).2
      exact ⟨rfl, rfl⟩
  | clock now h ih =>
    cases h' with
    | clock now' h' =>
      obtain ⟨hhead, htail⟩ := List.cons.inj heq
      cases hhead
      obtain ⟨rfl, rfl⟩ := ih h' htail
      exact ⟨rfl, rfl⟩
  | say h ih =>
    cases h' with
    | say h' =>
      obtain ⟨rfl, rfl⟩ := ih h' (List.cons.inj heq).2
      exact ⟨rfl, rfl⟩

/-! ## What all exchanges have in common -/

/-- Every exchange has a property, on any way through a procedure. -/
def Along (P : Exchange → Prop) (p : Procedure α) : Prop :=
  ∀ trace result, Walk p trace result → ∀ exchange ∈ trace, P exchange

section Along

variable {P : Exchange → Prop}

theorem along_pure (a : α) : Along P (pure a : Procedure α) := by
  intro trace result h exchange hmem
  obtain ⟨rfl, rfl⟩ := walk_pure.1 h
  cases hmem

theorem along_call {invocation : Invocation} {within : Nat}
    (h : ∀ answer, P (.ran invocation within answer)) : Along P (call invocation within) := by
  intro trace result hwalk exchange hmem
  rw [walk_call.1 hwalk] at hmem
  rw [List.mem_singleton.1 hmem]
  exact h result

theorem along_talk {invocation : Invocation} {dialog : Dialog}
    (h : ∀ answer, P (.conversed invocation dialog answer)) : Along P (talk invocation dialog) := by
  intro trace result hwalk exchange hmem
  rw [(walk_talk.1 hwalk).2] at hmem
  rw [List.mem_singleton.1 hmem]
  exact h result

theorem along_print {text : String} (h : P (.said text)) : Along P (print text) := by
  intro trace result hwalk exchange hmem
  rw [walk_print.1 hwalk] at hmem
  rw [List.mem_singleton.1 hmem]
  exact h

theorem Along.holding {handle : String} {body : Procedure α} (hlock : P (.acquired handle))
    (h : Along P body) : Along P (holding handle body) := by
  intro trace result hwalk
  obtain ⟨rest, rfl, hrest⟩ := walk_holding.1 hwalk
  exact List.forall_mem_cons.2 ⟨hlock, h rest result hrest⟩

theorem Along.bind {p : Procedure α} {f : α → Procedure β} (hp : Along P p)
    (hf : ∀ a, Along P (f a)) : Along P (p >>= f) := by
  intro trace result hwalk exchange hmem
  obtain ⟨first, second, middle, hfirst, hsecond, rfl⟩ := walk_bind_iff.1 hwalk
  rcases List.mem_append.1 hmem with hmem | hmem
  · exact hp first middle hfirst exchange hmem
  · exact hf middle second result hsecond exchange hmem

/-- What follows has the property only for what the first part can come to. -/
theorem Along.attempt_bind_of_walk {p : ExceptT ε Procedure α} {f : α → ExceptT ε Procedure β}
    (hp : Along P p.run) (hf : ∀ a first, Walk p.run first (.ok a) → Along P (f a).run) :
    Along P (p >>= f).run := by
  intro trace result hwalk exchange hmem
  rcases walk_attempt_bind.1 hwalk with ⟨failure, h, _⟩ | ⟨first, second, a, hfirst, hsecond, rfl⟩
  · exact hp trace _ h exchange hmem
  · rcases List.mem_append.1 hmem with hmem | hmem
    · exact hp first _ hfirst exchange hmem
    · exact hf a first hfirst second result hsecond exchange hmem

theorem Along.attempt_bind {p : ExceptT ε Procedure α} {f : α → ExceptT ε Procedure β}
    (hp : Along P p.run) (hf : ∀ a, Along P (f a).run) : Along P (p >>= f).run :=
  hp.attempt_bind_of_walk fun a _ _ => hf a

theorem along_forM {f : α → ExceptT ε Procedure Unit} {xs : List α}
    (hf : ∀ x, Along P (f x).run) : Along P (xs.forM f).run := by
  induction xs with
  | nil => exact along_pure _
  | cons x xs ih => exact Along.attempt_bind (hf x) fun _ => ih

end Along

/-! ## What is printed -/

/-- The texts that are printed on a way. -/
def saidIn (trace : List Exchange) : List String :=
  trace.filterMap fun
    | .said text => some text
    | _ => none

@[simp] theorem saidIn_append (first second : List Exchange) :
    saidIn (first ++ second) = saidIn first ++ saidIn second :=
  List.filterMap_append

/-- All texts that are printed, on any way through a procedure, have a property. -/
def Says (P : String → Prop) (p : Procedure α) : Prop :=
  ∀ trace result, Walk p trace result → ∀ text ∈ saidIn trace, P text

/-- Nothing is printed. -/
def Quiet (p : Procedure α) : Prop :=
  Says (fun _ => False) p

/-- A text has a property if an exchange prints it. -/
def Exchange.Prints (P : String → Prop) : Exchange → Prop
  | .said text => P text
  | _ => True

variable {P : String → Prop}

theorem forall_saidIn :
    (∀ text ∈ saidIn trace, P text) ↔ ∀ exchange ∈ trace, exchange.Prints P := by
  induction trace with
  | nil => simp [saidIn]
  | cons exchange trace ih =>
    rw [List.forall_mem_cons, ← ih]
    cases exchange <;> simp [saidIn, Exchange.Prints]

/-- A property of all texts is one of all exchanges. -/
theorem says_iff_along {p : Procedure α} : Says P p ↔ Along (Exchange.Prints P) p :=
  forall_congr' fun _ => forall_congr' fun _ => imp_congr_right fun _ => forall_saidIn

theorem Quiet.only {p : Procedure α} (h : Quiet p) : Says P p :=
  fun trace result hwalk text htext => (h trace result hwalk text htext).elim

theorem says_pure (a : α) : Says P (pure a : Procedure α) :=
  says_iff_along.2 (along_pure a)

theorem says_call (invocation : Invocation) (within : Nat) : Says P (call invocation within) :=
  says_iff_along.2 (along_call fun _ => trivial)

theorem says_print {text : String} (h : P text) : Says P (print text) :=
  says_iff_along.2 (along_print h)

theorem Says.holding {handle : String} {body : Procedure α} (h : Says P body) :
    Says P (holding handle body) :=
  says_iff_along.2 (Along.holding trivial (says_iff_along.1 h))

theorem Says.bind {p : Procedure α} {f : α → Procedure β} (hp : Says P p)
    (hf : ∀ a, Says P (f a)) : Says P (p >>= f) :=
  says_iff_along.2 ((says_iff_along.1 hp).bind fun a => says_iff_along.1 (hf a))

theorem Says.attempt_bind {p : ExceptT ε Procedure α} {f : α → ExceptT ε Procedure β}
    (hp : Says P p.run) (hf : ∀ a, Says P (f a).run) : Says P (p >>= f).run :=
  says_iff_along.2 ((says_iff_along.1 hp).attempt_bind fun a => says_iff_along.1 (hf a))

theorem says_forM {f : α → ExceptT ε Procedure Unit} {xs : List α}
    (hf : ∀ x, Says P (f x).run) : Says P (xs.forM f).run :=
  says_iff_along.2 (along_forM fun x => says_iff_along.1 (hf x))

/-! ## What cannot fail -/

/-- No way through an attempt ends in a failure. -/
def Unfailing (p : ExceptT ε Procedure α) : Prop :=
  ∀ trace failure, ¬ Walk p.run trace (.error failure)

theorem unfailing_pure (a : α) : Unfailing (pure a : ExceptT ε Procedure α) := by
  intro trace failure h
  cases (walk_attempt_pure.1 h).2

theorem Unfailing.bind {p : ExceptT ε Procedure α} {f : α → ExceptT ε Procedure β}
    (hp : Unfailing p) (hf : ∀ a, Unfailing (f a)) : Unfailing (p >>= f) := by
  intro trace failure h
  rcases walk_attempt_bind.1 h with ⟨inner, hfail, _⟩ | ⟨first, second, a, _, hrest, rfl⟩
  · exact hp trace inner hfail
  · exact hf a second failure hrest

theorem unfailing_forM {f : α → ExceptT ε Procedure Unit} {xs : List α}
    (hf : ∀ x, Unfailing (f x)) : Unfailing (xs.forM f) := by
  induction xs with
  | nil => exact unfailing_pure ()
  | cons x xs ih => exact Unfailing.bind (hf x) fun _ => ih

/-! ## Tools -/

/-- All answers to the requests of procedures, by what was asked and answered before. -/
structure Tool where
  run : List Exchange → Invocation → Nat → Except Failure Reply
  converse : List Exchange → Invocation → Dialog → Option Script
  notStarted : List Exchange → Failure
  launch : List Exchange → Invocation → Except Failure Unit
  clock : List Exchange → Int

namespace Tool

/-- The answer to a dialog: it was played with a script, or the tool could not be started. -/
def talk (tool : Tool) (past : List Exchange) (invocation : Invocation) (dialog : Dialog) :
    Except Failure PinOutcome :=
  match tool.converse past invocation dialog with
  | some script => (dialog.run script).1
  | none => .error (tool.notStarted past)

theorem dialogAnswer_talk (tool : Tool) (past : List Exchange) (invocation : Invocation)
    (dialog : Dialog) : DialogAnswer dialog (tool.talk past invocation dialog) := by
  rw [talk]
  split
  · exact .played _
  · exact .notStarted _

end Tool

/-- What a tool makes of a procedure, after all that has passed. -/
def follow (tool : Tool) : List Exchange → Procedure α → List Exchange × α
  | _, .done result => ([], result)
  | past, .run call within next =>
    let exchange : Exchange := .ran call within (tool.run past call within)
    let (trace, result) := follow tool (past ++ [exchange]) (next (tool.run past call within))
    (exchange :: trace, result)
  | past, .converse call dialog next =>
    let exchange : Exchange := .conversed call dialog (tool.talk past call dialog)
    let (trace, result) := follow tool (past ++ [exchange]) (next (tool.talk past call dialog))
    (exchange :: trace, result)
  | past, .launch call next =>
    let exchange : Exchange := .launched call (tool.launch past call)
    let (trace, result) := follow tool (past ++ [exchange]) (next (tool.launch past call))
    (exchange :: trace, result)
  | past, .acquire handle next =>
    let (trace, result) := follow tool (past ++ [.acquired handle]) next
    (.acquired handle :: trace, result)
  | past, .clock next =>
    let (trace, result) := follow tool (past ++ [.read (tool.clock past)]) (next (tool.clock past))
    (.read (tool.clock past) :: trace, result)
  | past, .say text next =>
    let (trace, result) := follow tool (past ++ [.said text]) next
    (.said text :: trace, result)

/-- **Every tool walks.** What a tool makes of a procedure is one of its walks. -/
theorem walk_follow (tool : Tool) (past : List Exchange) (p : Procedure α) :
    Walk p (follow tool past p).1 (follow tool past p).2 := by
  induction p generalizing past with
  | done result => exact .done result
  | run call within next ih => exact .run _ (ih _ _)
  | converse call dialog next ih => exact .converse _ (tool.dialogAnswer_talk ..) (ih _ _)
  | launch call next ih => exact .launch _ (ih _ _)
  | acquire handle next ih => exact .acquire (ih _)
  | clock next ih => exact .clock _ (ih _ _)
  | say text next ih => exact .say (ih _)

/-! ### One after the other -/

section Follow

variable {tool : Tool} {past first : List Exchange}

theorem follow_bind (tool : Tool) (past : List Exchange) (p : Procedure α) (f : α → Procedure β) :
    follow tool past (p >>= f) =
      let (first, a) := follow tool past p
      let (second, result) := follow tool (past ++ first) (f a)
      (first ++ second, result) := by
  show follow tool past (p.bind f) = _
  induction p generalizing past with
  | done a => simp [bind, follow]
  | run call within next ih => simp [bind, follow, ih]
  | converse call dialog next ih => simp [bind, follow, ih]
  | launch call next ih => simp [bind, follow, ih]
  | acquire handle next ih => simp [bind, follow, ih]
  | clock next ih => simp [bind, follow, ih]
  | say text next ih => simp [bind, follow, ih]

theorem follow_attempt_error {p : ExceptT ε Procedure α} (f : α → ExceptT ε Procedure β)
    {failure : ε} (h : follow tool past p.run = (first, .error failure)) :
    follow tool past (p >>= f).run = (first, .error failure) := by
  rw [ExceptT.run_bind, follow_bind, h]
  show (first ++ [], _) = _
  rw [List.append_nil]

theorem follow_attempt_ok {p : ExceptT ε Procedure α} (f : α → ExceptT ε Procedure β) {a : α}
    (h : follow tool past p.run = (first, .ok a)) :
    follow tool past (p >>= f).run =
      (first ++ (follow tool (past ++ first) (f a).run).1,
        (follow tool (past ++ first) (f a).run).2) := by
  rw [ExceptT.run_bind, follow_bind, h]

end Follow

end SecurityKey.Procedure
