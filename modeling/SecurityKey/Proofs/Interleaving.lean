import Mathlib.Logic.Function.Basic
import SecurityKey.Proofs.Guarding
import SecurityKey.Proofs.Locks
/-!
# Operations side by side

Any number of operations run beside each other, in any order. In a step one of them makes the
request that it is at, or gets an answer to it, or finishes, or is given up, whatever it is about at
that moment (`Step`). An operation gets the lock that it waits for once it holds it, and whoever
finishes or is given up drops its request. From a request to the tool to its answer the tool is at
work, and meanwhile everything else may happen.

**Invariant.** No operation asks for two locks, and each stands where its request for one allows
(`Orderly`). A step keeps this (`Orderly.step`), so a run does (`Orderly.run`). It follows that the
tool works on a handle only for whoever holds its lock (`Orderly.guarded`), and that a lock stays
with its holder until the operation is over (`Orderly.keeps_lock`).

**Waiting.** An operation gets its lock as soon as it is the first one in the queue of the handle
(`Orderly.gets_lock_iff`), and it is that once those ahead of it are over, also where they were
given up (`Orderly.obtainable`).

**One operation.** Seen from itself an operation only walks: what the others do is no more than time
that passes (`came_run`).
-/

namespace SecurityKey.Interleaving

open Procedure

variable {ι α : Type}

/-! ## Where operations stand -/

/-- Where an operation stands. -/
inductive Stand (α : Type)
  /-- It is about to make the request that it is at. -/
  | ready (rest : Procedure α)
  /-- It has made the request that it is at, and waits for the answer. -/
  | asked (rest : Procedure α)
  | finished (result : α)
  | givenUp

/-- What an operation has still to do, unless it is over. -/
def Stand.rest? : Stand α → Option (Procedure α)
  | .ready rest | .asked rest => some rest
  | .finished _ | .givenUp => none

/-- The operations and the locks at one moment. -/
structure State (ι α : Type) where
  stands : ι → Stand α
  locks : Locks ι

/-- All operations are about to begin. -/
def State.begin (operations : ι → Procedure α) : State ι α :=
  ⟨fun id => .ready (operations id), .empty⟩

variable {s t : State ι α} {id other : ι} {rest : Procedure α} {handle : String}

/-! ## The invariant -/

/-- An operation has the lock of a handle, or has asked for none. -/
def Has (locks : Locks ι) (id : ι) : Option String → Prop
  | none => ∀ handle, (id, handle) ∉ locks.requests
  | some handle => (id, handle) ∈ locks.granted

/-- Where an operation stands fits the requests for locks. -/
def Fits (locks : Locks ι) (id : ι) : Stand α → Prop
  | .ready rest => ∃ held, Has locks id held ∧ Guards Anything held rest
  | .asked rest => ∃ held, Guards Anything held rest ∧
    match rest.asks? with
    | some (.lock handle) => (id, handle) ∈ locks.requests
    | _ => Has locks id held
  | .finished _ | .givenUp => ∀ handle, (id, handle) ∉ locks.requests

/-- No operation has asked for two locks, and each stands where its request allows. -/
structure Orderly (s : State ι α) : Prop where
  single : s.locks.Single
  fits : ∀ id, Fits s.locks id (s.stands id)

theorem orderly_begin {operations : ι → Procedure α}
    (hguards : ∀ id, Guards Anything none (operations id)) : Orderly (State.begin operations) where
  single := Locks.single_empty
  fits id := ⟨none, fun _ => List.not_mem_nil, hguards id⟩

/-- An operation stands as well where others have asked for locks or dropped them. -/
theorem Fits.frame {locks locks' : Locks ι} {stand : Stand α} (h : Fits locks id stand)
    (hrequests : ∀ handle, (id, handle) ∈ locks'.requests ↔ (id, handle) ∈ locks.requests)
    (hgranted : ∀ handle, (id, handle) ∈ locks.granted → (id, handle) ∈ locks'.granted) :
    Fits locks' id stand := by
  have hhas : ∀ held, Has locks id held → Has locks' id held := by
    intro held hheld
    cases held with
    | none => exact fun handle hmem => hheld handle ((hrequests handle).1 hmem)
    | some handle => exact hgranted handle hheld
  cases stand with
  | ready rest =>
    obtain ⟨held, hheld, hguards⟩ := h
    exact ⟨held, hhas held hheld, hguards⟩
  | asked rest =>
    obtain ⟨held, hguards, hasked⟩ := h
    refine ⟨held, hguards, ?_⟩
    split at hasked
    · exact (hrequests _).2 hasked
    · exact hhas held hasked
  | finished result => exact fun handle hmem => h handle ((hrequests handle).1 hmem)
  | givenUp => exact fun handle hmem => h handle ((hrequests handle).1 hmem)

namespace Orderly

/-- Whoever asks for a lock has asked for none before. -/
theorem asks_once (h : Orderly s) (hstand : s.stands id = .ready rest)
    (hask : rest.asks? = some (.lock handle)) : id ∉ s.locks.requests.map Prod.fst := by
  have hfits := h.fits id
  rw [hstand] at hfits
  obtain ⟨held, hheld, hguards⟩ := hfits
  obtain rfl := hguards.lock hask
  intro hmem
  obtain ⟨⟨_, asked⟩, hrequest, rfl⟩ := List.mem_map.1 hmem
  exact hheld asked hrequest

/-- Whoever waits for a lock stands in the queue before it. -/
theorem waits_in_queue (h : Orderly s) (hstand : s.stands id = .asked rest)
    (hask : rest.asks? = some (.lock handle)) : (id, handle) ∈ s.locks.requests := by
  have hfits := h.fits id
  rw [hstand] at hfits
  obtain ⟨held, -, hasked⟩ := hfits
  rwa [hask] at hasked

/-- An operation that is over stands in no queue. -/
theorem live_of_mem (h : Orderly s) (hmem : (id, handle) ∈ s.locks.requests) :
    (s.stands id).rest?.isSome := by
  have hfits := h.fits id
  cases hstand : s.stands id with
  | ready rest => rfl
  | asked rest => rfl
  | finished result =>
    rw [hstand] at hfits
    exact absurd hmem (hfits handle)
  | givenUp =>
    rw [hstand] at hfits
    exact absurd hmem (hfits handle)

/-- Whoever stands in the queue before a lock holds it or waits for it. -/
theorem holds_or_waits (h : Orderly s)
    (hmem : (id, handle) ∈ s.locks.requests) :
    (id, handle) ∈ s.locks.granted ∨
      ∃ rest, s.stands id = .asked rest ∧ rest.asks? = some (.lock handle) := by
  have hfits := h.fits id
  -- Whatever it has, it has the lock that it asked for, since it asked for no other.
  have hhas : ∀ held, Has s.locks id held → (id, handle) ∈ s.locks.granted := by
    intro held hheld
    cases held with
    | none => exact absurd hmem (hheld handle)
    | some other =>
      obtain rfl := h.single.unique hmem (Locks.requested_of_granted hheld)
      exact hheld
  cases hstand : s.stands id with
  | ready rest =>
    rw [hstand] at hfits
    obtain ⟨held, hheld, -⟩ := hfits
    exact .inl (hhas held hheld)
  | asked rest =>
    rw [hstand] at hfits
    obtain ⟨held, -, hasked⟩ := hfits
    split at hasked
    · next other hask =>
      obtain rfl := h.single.unique hmem hasked
      exact .inr ⟨rest, rfl, hask⟩
    · exact .inl (hhas held hasked)
  | finished result =>
    rw [hstand] at hfits
    exact absurd hmem (hfits handle)
  | givenUp =>
    rw [hstand] at hfits
    exact absurd hmem (hfits handle)

/-- **Guarded.** While the tool works on a handle, the operation that it works for holds the lock of
the handle. -/
theorem guarded {call : Invocation} (h : Orderly s) (hstand : s.stands id = .asked rest)
    (hask : rest.asks? = some (.tool call)) (hhandle : call.handle? = some handle) :
    (id, handle) ∈ s.locks.granted := by
  have hfits := h.fits id
  rw [hstand] at hfits
  obtain ⟨held, hguards, hasked⟩ := hfits
  rw [hask, hguards.tool hask hhandle] at hasked
  exact hasked

end Orderly

/-! ## Steps -/

/-- What an operation does in a step. -/
inductive Move
  | asks (ask : Ask)
  | answered (exchange : Exchange)
  | finishes
  | givenUp

namespace Move

/-- The request that a move is about. -/
def ask? : Move → Option Ask
  | .asks ask => some ask
  | .answered exchange => some exchange.ask
  | .finishes | .givenUp => none

/-- The handle that the tool is asked to work on, or has worked on. -/
def handle? (move : Move) : Option String :=
  match move.ask? with
  | some (.tool call) => call.handle?
  | _ => none

theorem handle?_eq_some {move : Move} (h : move.handle? = some handle) :
    ∃ call, move.ask? = some (.tool call) ∧ call.handle? = some handle := by
  rw [handle?] at h
  split at h
  · next call hask => exact ⟨call, hask, h⟩
  · cases h

end Move

variable [DecidableEq ι] {move : Move} {log more : List (ι × Move)}

namespace State

/-- The state after one operation has moved on. -/
def put (s : State ι α) (id : ι) (stand : Stand α) (locks : Locks ι) : State ι α :=
  ⟨Function.update s.stands id stand, locks⟩

variable {stand : Stand α} {locks : Locks ι}

@[simp] theorem stands_put_self : (s.put id stand locks).stands id = stand :=
  Function.update_self ..

theorem stands_put_other (h : other ≠ id) : (s.put id stand locks).stands other = s.stands other :=
  Function.update_of_ne h ..

@[simp] theorem locks_put : (s.put id stand locks).locks = locks := rfl

end State

/-- What a request does to the locks. -/
def requestIn (locks : Locks ι) (id : ι) : Ask → Locks ι
  | .lock handle => locks.request id handle
  | _ => locks

/-- One operation does something, and the others stay where they are. -/
inductive Step : State ι α → ι × Move → State ι α → Prop
  | ask {s : State ι α} {id : ι} {rest : Procedure α} {ask : Ask} :
      s.stands id = .ready rest → rest.asks? = some ask →
      Step s (id, .asks ask) (s.put id (.asked rest) (requestIn s.locks id ask))
  | answer {s : State ι α} {id : ι} {rest next : Procedure α} {exchange : Exchange} :
      s.stands id = .asked rest → Answers rest exchange next →
      (∀ handle, exchange = .acquired handle → s.locks.holds id) →
      Step s (id, .answered exchange) (s.put id (.ready next) s.locks)
  | finish {s : State ι α} {id : ι} {result : α} : s.stands id = .ready (.done result) →
      Step s (id, .finishes) (s.put id (.finished result) (s.locks.drop id))
  | giveUp {s : State ι α} {id : ι} : (s.stands id).rest?.isSome →
      Step s (id, .givenUp) (s.put id .givenUp (s.locks.drop id))

/-- Steps one after the other, and what was done in them. -/
inductive Run : State ι α → List (ι × Move) → State ι α → Prop
  | nil (s : State ι α) : Run s [] s
  | cons {s t u : State ι α} {move : ι × Move} {log : List (ι × Move)} :
      Step s move t → Run t log u → Run s (move :: log) u

theorem run_append_iff :
    Run s (log ++ more) t ↔ ∃ middle, Run s log middle ∧ Run middle more t := by
  constructor
  · intro h
    induction log generalizing s with
    | nil => exact ⟨s, .nil s, h⟩
    | cons move log ih =>
      cases h with
      | cons hstep hrest =>
        obtain ⟨middle, hfirst, hsecond⟩ := ih hrest
        exact ⟨middle, .cons hstep hfirst, hsecond⟩
  · rintro ⟨middle, hfirst, hsecond⟩
    induction hfirst with
    | nil s => exact hsecond
    | cons hstep _ ih => exact .cons hstep (ih hsecond)

/-- The moment of one of the steps of a run. -/
theorem Run.at_step (h : Run s (log ++ (id, move) :: more) t) :
    ∃ before after, Run s log before ∧ Step before (id, move) after ∧ Run after more t := by
  obtain ⟨before, hfirst, hrest⟩ := run_append_iff.1 h
  cases hrest with
  | cons hstep hsecond => exact ⟨before, _, hfirst, hstep, hsecond⟩

/-- What holds at the beginning, and after a step where it held before, holds in every run. -/
theorem Run.invariant {P : List (ι × Move) → State ι α → Prop} (h : Run s log t) (hbegin : P [] s)
    (hstep : ∀ past s id move t, P past s → Step s (id, move) t → P (past ++ [(id, move)]) t) :
    P log t := by
  have hrun : ∀ past, P past s → P (past ++ log) t := by
    clear hbegin
    induction h with
    | nil s =>
      intro past hpast
      rwa [List.append_nil]
    | cons hfirst _ ih =>
      intro past hpast
      have hnext := ih _ (hstep past _ _ _ _ hpast hfirst)
      rwa [List.append_assoc] at hnext
  exact hrun [] hbegin

/-! ## What a step leaves as it is -/

theorem Step.stands_other (h : Step s (id, move) t) (hne : other ≠ id) :
    t.stands other = s.stands other := by
  cases h <;> exact State.stands_put_other hne

/-- Only an operation that is not over does something. -/
theorem Step.live (h : Step s (id, move) t) : (s.stands id).rest?.isSome := by
  cases h with
  | ask hstand _ => rw [hstand]; rfl
  | answer hstand _ _ => rw [hstand]; rfl
  | finish hstand => rw [hstand]; rfl
  | giveUp hlive => exact hlive

/-- An operation that is not over was not over before. -/
theorem Run.live (h : Run s log t) (hlive : (t.stands id).rest?.isSome) :
    (s.stands id).rest?.isSome := by
  induction h with
  | nil s => exact hlive
  | @cons s t u move log hstep hrest ih =>
    obtain ⟨actor, move⟩ := move
    by_cases hactor : id = actor
    · subst hactor
      exact hstep.live
    · rw [← hstep.stands_other hactor]
      exact ih hlive

namespace Orderly

/-- The others keep what they have asked for and what they hold. -/
theorem frame (h : Orderly s) (hstep : Step s (id, move) t) (hne : other ≠ id) (handle : String) :
    ((other, handle) ∈ t.locks.requests ↔ (other, handle) ∈ s.locks.requests) ∧
      ((other, handle) ∈ s.locks.granted → (other, handle) ∈ t.locks.granted) := by
  cases hstep with
  | @ask _ rest ask hstand hask =>
    cases ask with
    | lock asked =>
      have hnew := h.asks_once hstand hask
      refine ⟨?_, fun hgranted => Locks.granted_request hgranted hnew asked⟩
      show (other, handle) ∈ (s.locks.request id asked).requests ↔ _
      rw [Locks.mem_request hnew]
      simp [hne]
    | _ => exact ⟨Iff.rfl, fun hgranted => hgranted⟩
  | answer => exact ⟨Iff.rfl, fun hgranted => hgranted⟩
  | finish =>
    refine ⟨?_, fun hgranted => Locks.granted_drop hgranted hne⟩
    rw [State.locks_put, Locks.mem_drop]
    simp [hne]
  | giveUp =>
    refine ⟨?_, fun hgranted => Locks.granted_drop hgranted hne⟩
    rw [State.locks_put, Locks.mem_drop]
    simp [hne]

theorem single_step (h : Orderly s) (hstep : Step s (id, move) t) : t.locks.Single := by
  cases hstep with
  | @ask _ rest ask hstand hask =>
    cases ask with
    | lock asked => exact h.single.request (h.asks_once hstand hask) asked
    | _ => exact h.single
  | answer => exact h.single
  | finish => exact h.single.drop id
  | giveUp => exact h.single.drop id

/-- Whoever stands in the queue before a lock and holds one holds that one. -/
theorem granted_of_holds (h : Orderly s) (hrequest : (id, handle) ∈ s.locks.requests)
    (hholds : s.locks.holds id) : (id, handle) ∈ s.locks.granted := by
  obtain ⟨other, hgranted⟩ := Locks.holds_iff.1 hholds
  have hrequest' := Locks.requested_of_granted hgranted
  obtain rfl := h.single.unique hrequest hrequest'
  exact hgranted

/-- The operation that does something stands where its request allows, before and after. -/
theorem fits_step (h : Orderly s) (hstep : Step s (id, move) t) :
    Fits t.locks id (t.stands id) := by
  have hfits := h.fits id
  cases hstep with
  | @ask _ rest ask hstand hask =>
    rw [hstand] at hfits
    obtain ⟨held, hheld, hguards⟩ := hfits
    rw [State.stands_put_self, State.locks_put]
    refine ⟨held, hguards, ?_⟩
    cases ask with
    | lock asked =>
      simp only [hask]
      exact (Locks.mem_request (h.asks_once hstand hask)).2 (.inr ⟨rfl, rfl⟩)
    | _ =>
      simp only [hask]
      exact hheld
  | @answer _ rest next exchange hstand hanswer hholds =>
    rw [hstand] at hfits
    obtain ⟨held, hguards, hasked⟩ := hfits
    rw [State.stands_put_self, State.locks_put]
    refine ⟨exchange.heldAfter held, ?_, hguards.answers hanswer⟩
    rw [hanswer.asks?] at hasked
    cases exchange with
    | acquired asked => exact h.granted_of_holds hasked (hholds asked rfl)
    | _ => exact hasked
  | finish =>
    rw [State.stands_put_self, State.locks_put]
    exact fun handle hmem => (Locks.mem_drop.1 hmem).2 rfl
  | giveUp =>
    rw [State.stands_put_self, State.locks_put]
    exact fun handle hmem => (Locks.mem_drop.1 hmem).2 rfl

/-- **One step.** Every step keeps the operations orderly. -/
theorem step (h : Orderly s) (hstep : Step s (id, move) t) : Orderly t where
  single := h.single_step hstep
  fits other := by
    by_cases hne : other = id
    · subst hne
      exact h.fits_step hstep
    · rw [hstep.stands_other hne]
      exact (h.fits other).frame (fun handle => (h.frame hstep hne handle).1)
        fun handle => (h.frame hstep hne handle).2

/-- **A whole run.** -/
theorem run (h : Orderly s) (hrun : Run s log t) : Orderly t := by
  induction hrun with
  | nil s => exact h
  | cons hstep _ ih => exact ih (h.step hstep)

/-! ## The lock of an operation at work -/

/-- The tool is asked to work on a handle, and its answer is taken, only under the lock of the
handle. -/
theorem held_at_work (h : Orderly s) (hstep : Step s (id, move) t)
    (hhandle : move.handle? = some handle) :
    (id, handle) ∈ s.locks.granted ∧ (id, handle) ∈ t.locks.granted := by
  obtain ⟨call, hcall, hfor⟩ := Move.handle?_eq_some hhandle
  cases hstep with
  | @ask _ rest ask hstand hask =>
    obtain rfl := Option.some.inj hcall
    have hasked : (s.put id (.asked rest) s.locks).stands id = .asked rest := State.stands_put_self
    have hafter := (h.step (.ask hstand hask)).guarded hasked hask hfor
    exact ⟨hafter, hafter⟩
  | @answer _ rest next exchange hstand hanswer hholds =>
    have hask : rest.asks? = some (.tool call) := hanswer.asks?.trans hcall
    have hbefore := h.guarded hstand hask hfor
    exact ⟨hbefore, hbefore⟩
  | finish => cases hcall
  | giveUp => cases hcall

/-- A lock stays with its holder in a step after which the holder is not over. -/
theorem keeps_lock_step (h : Orderly s) (hgranted : (id, handle) ∈ s.locks.granted)
    (hstep : Step s (other, move) t) (hlive : (t.stands id).rest?.isSome) :
    (id, handle) ∈ t.locks.granted := by
  by_cases hother : id = other
  · subst hother
    cases hstep with
    | @ask _ rest ask hstand hask =>
      cases ask with
      | lock asked =>
        have hmem := List.mem_map_of_mem (f := Prod.fst) (Locks.requested_of_granted hgranted)
        exact absurd hmem (h.asks_once hstand hask)
      | _ => exact hgranted
    | answer => exact hgranted
    | finish =>
      rw [State.stands_put_self] at hlive
      cases hlive
    | giveUp =>
      rw [State.stands_put_self] at hlive
      cases hlive
  · exact (h.frame hstep hother handle).2 hgranted

/-- **Until it is over.** A lock stays with its holder as long as the holder is not over. -/
theorem keeps_lock (h : Orderly s) (hgranted : (id, handle) ∈ s.locks.granted)
    (hrun : Run s log t) (hlive : (t.stands id).rest?.isSome) : (id, handle) ∈ t.locks.granted := by
  induction hrun with
  | nil s => exact hgranted
  | @cons s _ _ move _ hstep hrest ih =>
    have hkept := h.keeps_lock_step hgranted hstep (hrest.live hlive)
    exact ih (h.step hstep) hkept hlive

/-- **Undivided.** From the first to the last use that one operation makes of the tool on a handle,
no other operation uses the tool on that handle. -/
theorem undivided (h : Orderly s) {middle after : List (ι × Move)} {first last : Move}
    (hrun : Run s (log ++ (id, first) :: (middle ++ (id, last) :: after)) t)
    (hfirst : first.handle? = some handle) (hmem : (other, move) ∈ middle)
    (hmove : move.handle? = some handle) : other = id := by
  obtain ⟨_, _, hbefore, hfirstStep, hrest⟩ := hrun.at_step
  have hstart := h.run hbefore
  have hgranted := (hstart.held_at_work hfirstStep hfirst).2
  obtain ⟨_, _, hmiddle, hlastStep, -⟩ := hrest.at_step
  obtain ⟨early, late, rfl⟩ := List.append_of_mem hmem
  obtain ⟨_, _, hearly, hmoveStep, hlate⟩ := hmiddle.at_step
  have horderly := (hstart.step hfirstStep).run hearly
  have hlive := (Run.cons hmoveStep hlate).live hlastStep.live
  have hkept := (hstart.step hfirstStep).keeps_lock hgranted hearly hlive
  exact Locks.granted_unique (horderly.held_at_work hmoveStep hmove).1 hkept

/-! ## Waiting -/

/-- **Not by others.** An operation that waits for the lock of a handle gets it exactly when it is
the first one in the queue of that handle. -/
theorem gets_lock_iff (h : Orderly s) (hstand : s.stands id = .asked rest)
    (hask : rest.asks? = some (.lock handle)) :
    (∃ t, Step s (id, .answered (.acquired handle)) t) ↔
      (s.locks.queue handle).head? = some id := by
  rw [← Locks.mem_granted]
  constructor
  · rintro ⟨t, hstep⟩
    cases hstep with
    | answer _ _ hholds =>
      exact h.granted_of_holds (h.waits_in_queue hstand hask) (hholds handle rfl)
  · intro hgranted
    cases rest with
    | acquire asked next =>
      obtain rfl := Ask.lock.inj (Option.some.inj hask)
      exact ⟨_, .answer hstand .acquire fun _ _ => Locks.holds_iff.2 ⟨asked, hgranted⟩⟩
    | _ => cases hask

/-- **Obtainable.** Once those are given up that stand ahead of it, a waiting operation gets its
lock. -/
theorem obtainable {ahead behind : List ι} (h : Orderly s) (hstand : s.stands id = .asked rest)
    (hask : rest.asks? = some (.lock handle))
    (hqueue : s.locks.queue handle = ahead ++ id :: behind) :
    ∃ t, Run s (ahead.map (·, .givenUp) ++ [(id, .answered (.acquired handle))]) t := by
  induction ahead generalizing s with
  | nil =>
    obtain ⟨t, hstep⟩ := (h.gets_lock_iff hstand hask).2 (by rw [hqueue]; rfl)
    exact ⟨t, .cons hstep (.nil t)⟩
  | cons first ahead ih =>
    have hnodup := h.single.nodup_queue handle
    rw [hqueue] at hnodup
    have hfirst : first ∉ ahead ++ id :: behind := (List.nodup_cons.1 hnodup).1
    have hne : id ≠ first := by
      rintro rfl
      exact hfirst (by simp)
    have hmem : (first, handle) ∈ s.locks.requests := Locks.mem_queue.1 (by simp [hqueue])
    have hstep : Step s (first, .givenUp) _ := .giveUp (h.live_of_mem hmem)
    obtain ⟨t, hrun⟩ := ih (h.step hstep) ((hstep.stands_other hne).trans hstand) (by
      rw [State.locks_put, Locks.queue_drop, hqueue, List.cons_append, List.filter_cons_of_neg
        (by simp), List.filter_eq_self.2]
      rintro task htask
      exact decide_eq_true fun heq => hfirst (heq ▸ htask))
    exact ⟨t, .cons hstep hrun⟩

end Orderly

/-! ## The requests in their order -/

/-- The locks that were asked for, in the order in which they were. -/
def lockAsks (log : List (ι × Move)) : List (ι × String) :=
  log.filterMap fun
    | (id, .asks (.lock handle)) => some (id, handle)
    | _ => none

/-- The queues hold requests in the order in which they were made. -/
theorem requests_sublist {operations : ι → Procedure α} (h : Run (State.begin operations) log t) :
    t.locks.requests.Sublist (lockAsks log) := by
  refine h.invariant (P := fun log t => t.locks.requests.Sublist (lockAsks log)) ?_ ?_
  · exact List.Sublist.refl []
  · intro past s id move t hpast hstep
    rw [lockAsks, List.filterMap_append]
    cases hstep with
    | @ask _ rest ask hstand hask =>
      cases ask with
      | lock handle =>
        show (s.locks.request id handle).requests.Sublist _
        rw [Locks.request]
        split_ifs
        · exact hpast.trans (List.sublist_append_left ..)
        · exact hpast.append_right _
      | _ => exact hpast.trans (List.sublist_append_left ..)
    | answer => exact hpast.trans (List.sublist_append_left ..)
    | finish => exact (List.filter_sublist.trans hpast).trans (List.sublist_append_left ..)
    | giveUp => exact (List.filter_sublist.trans hpast).trans (List.sublist_append_left ..)

/-! ## The locks in a table -/

/-- What a move does to a table of locks. -/
def tableAfterMove (table : LockTable ι) : ι × Move → LockTable ι
  | (id, .asks (.lock handle)) => table.ask id handle
  | (id, .finishes) | (id, .givenUp) => table.leave id
  | _ => table

/-- The table of the locks that were asked for. -/
def tableAfter (log : List (ι × Move)) : LockTable ι :=
  log.foldl tableAfterMove .empty

/-- A request makes the lock, if there was none. -/
theorem lock?_tableAfter_asks (before : List (ι × Move)) (id : ι) (handle : String) :
    ∃ place, (tableAfter (before ++ [(id, .asks (.lock handle))])).lock? handle = some place := by
  rw [tableAfter, List.foldl_append]
  exact LockTable.lock?_ask_self

/-- A lock that was made is found in the table ever after. -/
theorem lock?_tableAfter {place : Nat} (h : (tableAfter log).lock? handle = some place)
    (more : List (ι × Move)) : (tableAfter (log ++ more)).lock? handle = some place := by
  rw [tableAfter, List.foldl_append]
  change (more.foldl tableAfterMove (tableAfter log)).lock? handle = some place
  generalize tableAfter log = table at h ⊢
  induction more generalizing table with
  | nil => exact h
  | cons move more ih =>
    refine ih (tableAfterMove table move) ?_
    obtain ⟨id, move⟩ := move
    cases move with
    | asks ask =>
      cases ask with
      | lock asked => exact LockTable.lock?_ask h id asked
      | _ => exact h
    | answered exchange => exact h
    | finishes => exact LockTable.lock?_leave h id
    | givenUp => exact LockTable.lock?_leave h id

/-- The table has the queues of the list. -/
theorem queue_tableAfter {operations : ι → Procedure α}
    (hguards : ∀ id, Guards Anything none (operations id))
    (h : Run (State.begin operations) log t) :
    (tableAfter log).queue handle = t.locks.queue handle := by
  suffices hboth : Orderly t ∧ ∀ handle, (tableAfter log).queue handle = t.locks.queue handle from
    hboth.2 handle
  refine h.invariant (P := fun log t =>
    Orderly t ∧ ∀ handle, (tableAfter log).queue handle = t.locks.queue handle) ?_ ?_
  · exact ⟨orderly_begin hguards, fun handle => rfl⟩
  · rintro past s id move t ⟨horderly, hqueue⟩ hstep
    refine ⟨horderly.step hstep, fun handle => ?_⟩
    rw [tableAfter, List.foldl_append]
    change (tableAfterMove (tableAfter past) (id, move)).queue handle = _
    cases hstep with
    | @ask _ rest ask hstand hask =>
      cases ask with
      | lock asked =>
        have hnew := horderly.asks_once hstand hask
        exact (LockTable.queue_ask.trans (by rw [hqueue])).trans
          (Locks.queue_request hnew asked).symm
      | _ => exact hqueue handle
    | answer => exact hqueue handle
    | finish => exact (LockTable.queue_leave.trans (by rw [hqueue])).trans Locks.queue_drop.symm
    | giveUp => exact (LockTable.queue_leave.trans (by rw [hqueue])).trans Locks.queue_drop.symm

/-! ## One operation among the others -/

/-- The requests of an operation that were answered, with their answers. -/
def exchangesOf (id : ι) (log : List (ι × Move)) : List Exchange :=
  log.filterMap fun
    | (actor, .answered exchange) => if actor = id then some exchange else none
    | _ => none

/-- An operation stands where a way through it leads. -/
def Came (p : Procedure α) (trace : List Exchange) : Stand α → Prop
  | .ready rest | .asked rest => Path p trace rest
  | .finished result => Walk p trace result
  | .givenUp => ∃ rest, Path p trace rest

theorem Came.path {p : Procedure α} {trace : List Exchange} {stand : Stand α}
    (h : Came p trace stand) : ∃ rest, Path p trace rest := by
  cases stand with
  | ready rest => exact ⟨rest, h⟩
  | asked rest => exact ⟨rest, h⟩
  | finished result => exact ⟨_, walk_iff_path.1 h⟩
  | givenUp => exact h

theorem exchangesOf_append (first second : List (ι × Move)) :
    exchangesOf id (first ++ second) = exchangesOf id first ++ exchangesOf id second :=
  List.filterMap_append

/-- **Alone.** Whatever the others do, an operation goes a way through its own procedure. -/
theorem came_run {operations : ι → Procedure α} (h : Run (State.begin operations) log t) (id : ι) :
    Came (operations id) (exchangesOf id log) (t.stands id) := by
  refine h.invariant (P := fun log t => Came (operations id) (exchangesOf id log) (t.stands id))
    (Path.here _) ?_
  intro past s actor move t hpast hstep
  rw [exchangesOf_append]
  by_cases hactor : actor = id
  · subst hactor
    cases hstep with
    | @ask _ rest ask hstand hask =>
      rw [hstand] at hpast
      rw [State.stands_put_self]
      show Path _ (exchangesOf actor past ++ []) rest
      rwa [List.append_nil]
    | @answer _ rest next exchange hstand hanswer _ =>
      rw [hstand] at hpast
      rw [State.stands_put_self]
      have hlast : exchangesOf actor [(actor, .answered exchange)] = [exchange] := by
        simp [exchangesOf]
      rw [hlast]
      exact Path.snoc hpast hanswer
    | @finish _ result hstand =>
      rw [hstand] at hpast
      rw [State.stands_put_self]
      show Walk _ (exchangesOf actor past ++ []) result
      rw [List.append_nil]
      exact walk_iff_path.2 hpast
    | giveUp =>
      rw [State.stands_put_self]
      show ∃ rest, Path _ (exchangesOf actor past ++ []) rest
      rw [List.append_nil]
      exact hpast.path
  · have hnone : exchangesOf id [(actor, move)] = [] := by
      cases move with
      | answered exchange => simp [exchangesOf, hactor]
      | _ => rfl
    rw [hnone, List.append_nil, hstep.stands_other (Ne.symm hactor)]
    exact hpast

end SecurityKey.Interleaving
