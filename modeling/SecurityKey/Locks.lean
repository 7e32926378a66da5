/-!
# One lock for each device

The tool and a device hold one conversation at a time, so whoever talks to a device first takes
the lock of its handle. A lock is granted in the order of requests, and the locks of different
handles have nothing to do with each other.

The state is the list of requests in the order they were made. A request is granted if no earlier
one is for the same handle, and waits otherwise; one that is dropped, granted or not, makes way for
the next.
-/

namespace SecurityKey

/-- The requests of tasks named by `ι` for handles, oldest first. -/
structure Locks (ι : Type) where
  requests : List (ι × String)

namespace Locks

variable {ι : Type} [DecidableEq ι]

/-- Nothing is requested. -/
def empty : Locks ι := ⟨[]⟩

/-- The requests that are granted when the handles in `taken` are not to be had. -/
def grantedAmong (taken : List String) : List (ι × String) → List (ι × String)
  | [] => []
  | (id, handle) :: requests =>
    if handle ∈ taken then grantedAmong taken requests
    else (id, handle) :: grantedAmong (handle :: taken) requests

/-- The requests that are granted. -/
def granted (locks : Locks ι) : List (ι × String) :=
  grantedAmong [] locks.requests

/-- The tasks that hold a lock. -/
def holding (locks : Locks ι) : List ι :=
  locks.granted.map Prod.fst

/-- The tasks that wait for a lock. -/
def waiting (locks : Locks ι) : List ι :=
  (locks.requests.map Prod.fst).filter fun id => id ∉ locks.holding

/-- Whether a task holds a lock. -/
def holds (locks : Locks ι) (id : ι) : Bool :=
  id ∈ locks.holding

/-- Asks for the lock of a handle, unless the task has asked for one already. -/
def request (locks : Locks ι) (id : ι) (handle : String) : Locks ι :=
  if id ∈ locks.requests.map Prod.fst then locks else ⟨locks.requests ++ [(id, handle)]⟩

/-- Drops the request of a task, granted or not. -/
def drop (locks : Locks ι) (id : ι) : Locks ι :=
  ⟨locks.requests.filter fun request => request.1 ≠ id⟩

/-- Drops the lock that a task holds, if it holds one. -/
def release (locks : Locks ι) (id : ι) : Locks ι :=
  if locks.holds id then locks.drop id else locks

/-- Stops the waiting of a task, if it waits. -/
def cancel (locks : Locks ι) (id : ι) : Locks ι :=
  if locks.holds id then locks else locks.drop id

/-- The tasks that hold a lock now and did not before. -/
def grantedSince (locks before : Locks ι) : List ι :=
  locks.holding.filter fun id => id ∉ before.holding

example : ((((empty : Locks Nat).request 1 "h").request 2 "h").release 1).holding = [2] := by
  decide

end Locks

end SecurityKey
