import Mathlib.Data.List.Nodup
import Mathlib.Tactic.Common
import SecurityKey.Locks
/-!
# The queue before each lock

All requests stand in one list. Seen from one handle the list is a queue: whoever is first in it
holds the lock (`mem_granted`), the others wait in the order in which they asked, and no request for
another handle is in it.

**A table of locks.** The same queues come about when each handle has a lock of its own, which is
made when it is first asked for and found in a table from then on (`LockTable`). An entry is never
replaced, so two requests for one handle meet before the same lock, however many others were made
in between (`lock?_ask`, `lock?_leave`), and the queues are those of the list (`queue_ask`,
`queue_leave`).
-/

namespace SecurityKey

namespace Locks

variable {ι : Type} {locks : Locks ι} {id other : ι} {handle : String}

/-! ## Queues -/

/-- The tasks that have asked for the lock of a handle, first one first. -/
def queue (locks : Locks ι) (handle : String) : List ι :=
  (locks.requests.filter fun request => request.2 = handle).map Prod.fst

theorem mem_queue : id ∈ locks.queue handle ↔ (id, handle) ∈ locks.requests := by
  simp only [queue, List.mem_map, List.mem_filter, decide_eq_true_eq]
  constructor
  · rintro ⟨⟨_, _⟩, ⟨hmem, rfl⟩, rfl⟩
    exact hmem
  · intro hmem
    exact ⟨(id, handle), ⟨hmem, rfl⟩, rfl⟩

theorem queue_append (requests : List (ι × String)) (asked : String) :
    (⟨requests ++ [(id, asked)]⟩ : Locks ι).queue handle =
      (⟨requests⟩ : Locks ι).queue handle ++ if asked = handle then [id] else [] := by
  simp only [queue, List.filter_append, List.map_append, List.filter_cons, List.filter_nil]
  by_cases h : asked = handle
  · simp [h]
  · simp [h]

/-- Two tasks in one queue have asked in the order in which they stand. -/
theorem sublist_of_queue {ahead behind : List ι}
    (hqueue : locks.queue handle = ahead ++ id :: behind) (hmem : other ∈ ahead) :
    [(other, handle), (id, handle)].Sublist locks.requests := by
  have hhandle : ∀ request ∈ locks.requests.filter fun request => request.2 = handle,
      request.2 = handle :=
    fun request hrequest => of_decide_eq_true (List.mem_filter.1 hrequest).2
  obtain ⟨front, back, hfilter, rfl, hback⟩ := List.map_eq_append_iff.1 hqueue
  obtain ⟨own, rest, rfl, rfl, -⟩ := List.map_eq_cons_iff.1 hback
  obtain ⟨earlier, hearlier, rfl⟩ := List.mem_map.1 hmem
  rw [hfilter] at hhandle
  have hown : own = (own.1, handle) := Prod.ext rfl (hhandle own (by simp))
  have hother : earlier = (earlier.1, handle) := Prod.ext rfl (hhandle earlier (by simp [hearlier]))
  have hboth : [earlier, own].Sublist (front ++ own :: rest) :=
    (List.singleton_sublist.2 hearlier).append (List.singleton_sublist.2 List.mem_cons_self)
  rw [← hown, ← hother]
  exact (hfilter ▸ hboth).trans List.filter_sublist

/-! ## Who holds a lock -/

theorem mem_grantedAmong {taken : List String} {requests : List (ι × String)} :
    (id, handle) ∈ grantedAmong taken requests ↔
      handle ∉ taken ∧ ((⟨requests⟩ : Locks ι).queue handle).head? = some id := by
  induction requests generalizing taken with
  | nil => simp [grantedAmong, queue]
  | cons first requests ih =>
    obtain ⟨task, asked⟩ := first
    by_cases hasked : asked = handle
    · -- The queue of the handle begins here, so no later request for it can be granted.
      subst hasked
      have hqueue : (⟨(task, asked) :: requests⟩ : Locks ι).queue asked =
          task :: (⟨requests⟩ : Locks ι).queue asked := by simp [queue]
      rw [hqueue, grantedAmong]
      split_ifs with htaken
      · simp [ih, htaken]
      · simp [ih, htaken, eq_comm]
    · have hqueue : (⟨(task, asked) :: requests⟩ : Locks ι).queue handle =
          (⟨requests⟩ : Locks ι).queue handle := by simp [queue, hasked]
      rw [hqueue, grantedAmong]
      split_ifs with htaken
      · exact ih
      · simp [ih, Ne.symm hasked]

/-- **First come, first served.** A lock is held by the first one in its queue, and by nobody
else. -/
theorem mem_granted :
    (id, handle) ∈ locks.granted ↔ (locks.queue handle).head? = some id := by
  rw [granted, mem_grantedAmong]
  simp

/-- A lock is held by one task at most. -/
theorem granted_unique (h : (id, handle) ∈ locks.granted) (h' : (other, handle) ∈ locks.granted) :
    id = other := by
  rw [mem_granted] at h h'
  exact Option.some.inj (h.symm.trans h')

theorem requested_of_granted (h : (id, handle) ∈ locks.granted) :
    (id, handle) ∈ locks.requests :=
  mem_queue.1 (List.mem_of_mem_head? (mem_granted.1 h))

/-! ## One request a task -/

/-- No task has asked twice. -/
def Single (locks : Locks ι) : Prop :=
  (locks.requests.map Prod.fst).Nodup

theorem single_empty : (empty : Locks ι).Single :=
  List.nodup_nil

/-- A task is found with one handle only. -/
theorem Single.unique {handle' : String} (h : locks.Single)
    (hmem : (id, handle) ∈ locks.requests) (hmem' : (id, handle') ∈ locks.requests) :
    handle = handle' := by
  have hpair := List.inj_on_of_nodup_map h hmem hmem' rfl
  exact congrArg Prod.snd hpair

theorem Single.nodup_queue (h : locks.Single) (handle : String) : (locks.queue handle).Nodup :=
  (List.filter_sublist.map Prod.fst).nodup h

/-! ## Asking and dropping -/

variable [DecidableEq ι]

theorem holds_iff : locks.holds id ↔ ∃ handle, (id, handle) ∈ locks.granted := by
  rw [holds, decide_eq_true_eq, holding, List.mem_map]
  simp

theorem mem_request (hnew : id ∉ locks.requests.map Prod.fst) {asked : String} :
    (other, handle) ∈ (locks.request id asked).requests ↔
      (other, handle) ∈ locks.requests ∨ other = id ∧ handle = asked := by
  rw [request, if_neg hnew, List.mem_append, List.mem_singleton, Prod.mk.injEq]

theorem mem_drop :
    (other, handle) ∈ (locks.drop id).requests ↔ (other, handle) ∈ locks.requests ∧ other ≠ id := by
  rw [drop, List.mem_filter, decide_eq_true_eq]

/-- A new request goes to the end of its queue, and to no other. -/
theorem queue_request (hnew : id ∉ locks.requests.map Prod.fst) (asked : String) :
    (locks.request id asked).queue handle =
      locks.queue handle ++ if asked = handle then [id] else [] := by
  rw [request, if_neg hnew, queue_append]

/-- Whoever drops its request leaves every queue, and the others stay in their order. -/
theorem queue_drop : (locks.drop id).queue handle = (locks.queue handle).filter (· ≠ id) := by
  simp only [queue, drop, List.filter_filter, List.filter_map]
  congr 1
  refine List.filter_congr fun request _ => ?_
  simp [Bool.and_comm]

theorem Single.request (h : locks.Single) (hnew : id ∉ locks.requests.map Prod.fst)
    (asked : String) : (locks.request id asked).Single := by
  have hend : (locks.request id asked).requests.map Prod.fst =
      locks.requests.map Prod.fst ++ [id] := by
    rw [Locks.request, if_neg hnew, List.map_append, List.map_cons, List.map_nil]
  rw [Single, hend, ← List.concat_eq_append]
  exact List.Nodup.concat hnew h

theorem Single.drop (h : locks.Single) (id : ι) : (locks.drop id).Single :=
  (List.filter_sublist.map Prod.fst).nodup h

/-- A lock stays with its holder while others ask. -/
theorem granted_request (h : (id, handle) ∈ locks.granted)
    (hnew : other ∉ locks.requests.map Prod.fst) (asked : String) :
    (id, handle) ∈ (locks.request other asked).granted := by
  rw [mem_granted] at h ⊢
  rw [queue_request hnew, List.head?_append, h, Option.some_or]

/-- A lock stays with its holder while others drop what they have or wait for. -/
theorem granted_drop (h : (id, handle) ∈ locks.granted) (hne : id ≠ other) :
    (id, handle) ∈ (locks.drop other).granted := by
  rw [mem_granted] at h ⊢
  obtain ⟨rest, hqueue⟩ := List.head?_eq_some_iff.1 h
  rw [queue_drop, hqueue, List.filter_cons_of_pos (by simpa using hne), List.head?_cons]

end Locks

/-! ## A table of locks -/

/-- Locks that are made one by one: the place of each handle's lock, and the queue at each place. -/
structure LockTable (ι : Type) where
  entries : List (String × Nat)
  queues : List (List ι)
  /-- Every entry leads to a lock. -/
  inRange : ∀ entry ∈ entries, entry.2 < queues.length
  /-- No two entries lead to the same one. -/
  apart : (entries.map Prod.snd).Nodup

namespace LockTable

variable {ι : Type} {table : LockTable ι} {id : ι} {handle asked : String} {place : Nat}

/-- No lock was made. -/
def empty : LockTable ι := ⟨[], [], by simp, List.nodup_nil⟩

/-- The place of a handle's lock, if it was made. -/
def lock? (table : LockTable ι) (handle : String) : Option Nat :=
  table.entries.lookup handle

/-- The queue before a handle's lock. Nobody stands before one that was not made. -/
def queue (table : LockTable ι) (handle : String) : List ι :=
  ((table.lock? handle).bind (table.queues[·]?)).getD []

/-- The table with other queues. -/
def withQueues (table : LockTable ι) (queues : List (List ι))
    (h : queues.length = table.queues.length) : LockTable ι :=
  { table with queues, inRange := fun entry hentry => h ▸ table.inRange entry hentry }

/-- The table with a new lock for a handle, before which nobody stands. -/
def extend (table : LockTable ι) (handle : String) : LockTable ι where
  entries := table.entries ++ [(handle, table.queues.length)]
  queues := table.queues ++ [[]]
  inRange := by
    intro entry hentry
    rw [List.length_append, List.length_singleton]
    rcases List.mem_append.1 hentry with hold | hnew
    · exact Nat.lt_succ_of_lt (table.inRange entry hold)
    · obtain rfl := List.mem_singleton.1 hnew
      exact Nat.lt_succ_self _
  apart := by
    rw [List.map_append, List.map_singleton, ← List.concat_eq_append]
    refine List.Nodup.concat (fun hmem => ?_) table.apart
    obtain ⟨entry, hentry, hplace⟩ := List.mem_map.1 hmem
    exact absurd (table.inRange entry hentry) (by omega)

/-- Makes the lock of a handle unless there is one, and gives its place. -/
def find (table : LockTable ι) (handle : String) : LockTable ι × Nat :=
  match table.lock? handle with
  | some place => (table, place)
  | none => (table.extend handle, table.queues.length)

/-- Queues a task up before the lock of a handle. -/
def ask (table : LockTable ι) (id : ι) (handle : String) : LockTable ι :=
  let (table, place) := table.find handle
  table.withQueues (table.queues.modify place (· ++ [id])) (List.length_modify ..)

/-- Takes a task out of every queue. -/
def leave [DecidableEq ι] (table : LockTable ι) (id : ι) : LockTable ι :=
  table.withQueues (table.queues.map (List.filter (· ≠ id))) (List.length_map ..)

theorem lock?_lt (h : table.lock? handle = some place) : place < table.queues.length := by
  obtain ⟨before, after, hentries, -⟩ := List.lookup_eq_some_iff.1 h
  exact table.inRange (handle, place) (by simp [hentries])

/-- Different handles have different locks. -/
theorem lock?_inj (h : table.lock? handle = some place) (h' : table.lock? asked = some place) :
    handle = asked := by
  obtain ⟨_, _, hentries, -⟩ := List.lookup_eq_some_iff.1 h
  obtain ⟨_, _, hentries', -⟩ := List.lookup_eq_some_iff.1 h'
  have hmem : (handle, place) ∈ table.entries := by simp [hentries]
  have hmem' : (asked, place) ∈ table.entries := by simp [hentries']
  exact congrArg Prod.fst (List.inj_on_of_nodup_map table.apart hmem hmem' rfl)

theorem lock?_extend (hnone : table.lock? asked = none) :
    (table.extend asked).lock? handle =
      if handle = asked then some table.queues.length else table.lock? handle := by
  show (table.entries ++ [(asked, table.queues.length)]).lookup handle = _
  rw [List.lookup_append]
  by_cases h : handle = asked
  · subst h
    rw [show table.entries.lookup handle = none from hnone]
    simp
  · have hother : ([(asked, table.queues.length)] : List (String × Nat)).lookup handle = none := by
      rw [List.lookup_cons, beq_false_of_ne h]
      rfl
    rw [hother, Option.or_none, if_neg h, lock?]

theorem queue_extend (hnone : table.lock? asked = none) :
    (table.extend asked).queue handle = table.queue handle := by
  rw [queue, lock?_extend hnone, queue]
  by_cases h : handle = asked
  · subst h
    rw [if_pos rfl, hnone]
    simp [extend]
  · rw [if_neg h]
    cases hlock : table.lock? handle with
    | none => rfl
    | some place =>
      show ((table.queues ++ [[]])[place]?).getD [] = _
      rw [List.getElem?_append_left (lock?_lt hlock)]
      rfl

/-- The place that is found is the one in the table, which leads where it did. -/
theorem find_spec (table : LockTable ι) (asked : String) :
    (table.find asked).1.lock? asked = some (table.find asked).2 ∧
      (∀ handle, (table.find asked).1.queue handle = table.queue handle) ∧
      ∀ handle place, table.lock? handle = some place →
        (table.find asked).1.lock? handle = some place := by
  rw [find]
  cases hlock : table.lock? asked with
  | some place => exact ⟨hlock, fun _ => rfl, fun _ _ h => h⟩
  | none =>
    refine ⟨?_, fun handle => queue_extend hlock, fun handle place h => ?_⟩
    · rw [lock?_extend hlock, if_pos rfl]
    · have hne : handle ≠ asked := by
        rintro rfl
        rw [hlock] at h
        cases h
      rw [lock?_extend hlock, if_neg hne, h]

/-- A lock that was made is found again, whatever is asked for. -/
theorem lock?_ask (h : table.lock? handle = some place) (id : ι) (asked : String) :
    (table.ask id asked).lock? handle = some place :=
  (table.find_spec asked).2.2 handle place h

theorem lock?_ask_self : ∃ place, (table.ask id asked).lock? asked = some place :=
  ⟨_, (table.find_spec asked).1⟩

/-- A task that asks goes to the end of the handle's queue, and to no other. -/
theorem queue_ask :
    (table.ask id asked).queue handle =
      table.queue handle ++ if asked = handle then [id] else [] := by
  obtain ⟨hfound, hqueue, -⟩ := table.find_spec asked
  rw [← hqueue handle, queue, queue]
  show (((table.find asked).1.lock? handle).bind
    (((table.find asked).1.queues.modify (table.find asked).2 (· ++ [id]))[·]?)).getD [] = _
  by_cases h : asked = handle
  · subst h
    have hlt := lock?_lt hfound
    simp [hfound, List.getElem?_eq_getElem hlt]
  · cases hlock : (table.find asked).1.lock? handle with
    | none => simp [h]
    | some place =>
      have hne : (table.find asked).2 ≠ place := by
        rintro rfl
        exact h (lock?_inj hfound hlock)
      simp [h, List.getElem?_modify, hne]

variable [DecidableEq ι]

/-- A lock that was made is found again after anybody has left. -/
theorem lock?_leave (h : table.lock? handle = some place) (id : ι) :
    (table.leave id).lock? handle = some place :=
  h

/-- Whoever leaves is in no queue, and the others stay in their order. -/
theorem queue_leave : (table.leave id).queue handle = (table.queue handle).filter (· ≠ id) := by
  show ((table.lock? handle).bind ((table.queues.map (List.filter (· ≠ id)))[·]?)).getD [] = _
  rw [queue]
  cases table.lock? handle with
  | none => rfl
  | some place =>
    simp only [Option.bind_some, List.getElem?_map]
    cases table.queues[place]? with
    | none => rfl
    | some queue => rfl

end LockTable

end SecurityKey
