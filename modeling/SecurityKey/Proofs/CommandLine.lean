import Mathlib.Tactic.Common
import SecurityKey.CommandLine.Run
import SecurityKey.Proofs.Manager
/-!
# Walks through commands

A command prints lines between the operations that it uses. The operations themselves print
nothing, so what is printed on a way through a command is what the command says itself, and no line
that it says makes it fail.
-/

namespace SecurityKey.CommandLine

open Procedure

variable {α β : Type} {trace : List Exchange}

/-! ## Pieces -/

theorem walk_say {text : String} {result : Except Trouble Unit} :
    Walk (say text).run trace result ↔ trace = [.said text] ∧ result = .ok () := by
  rw [show (say text).run = Procedure.say text (pure (.ok ())) from rfl]
  constructor
  · intro h
    cases h with
    | say h =>
      obtain ⟨rfl, rfl⟩ := walk_pure.1 h
      exact ⟨rfl, rfl⟩
  · rintro ⟨rfl, rfl⟩
    exact .say (walk_pure.2 ⟨rfl, rfl⟩)

theorem walk_sayLine {line : String} {result : Except Trouble Unit} :
    Walk (sayLine line).run trace result ↔ trace = [.said (line ++ "\n")] ∧ result = .ok () :=
  walk_say

theorem walk_attempt {body : Attempt α} {result : Except Trouble α} :
    Walk (attempt body).run trace result ↔
      ∃ inner, Walk body.run trace inner ∧ result = inner.mapError .failed := by
  have hmap : (attempt body).run = body.run >>= fun inner => pure (inner.mapError .failed) := by
    rw [attempt, ExceptT.run_mk]
    congr 1
    funext inner
    cases inner <;> rfl
  rw [hmap, walk_map_iff]

/-! ## What all exchanges have in common -/

section Along

variable {P : Exchange → Prop}

theorem along_attempt {body : Attempt α} (h : Along P body.run) : Along P (attempt body).run := by
  refine Along.bind h fun inner => ?_
  cases inner <;> exact along_pure _

theorem along_onSession {body : Procedure (Session × Except Failure α)} (h : Along P body) :
    Along P (onSession body).run := by
  refine Along.bind h fun ⟨session, inner⟩ => ?_
  cases inner <;> exact along_pure _

end Along

/-! ## What is printed -/

variable {P : String → Prop}

theorem says_say {text : String} (h : P text) : Says P (say text).run :=
  (says_print h).bind fun _ => says_pure _

theorem says_sayLine {line : String} (h : P (line ++ "\n")) : Says P (sayLine line).run :=
  says_say h

theorem unfailing_sayLine (line : String) : Unfailing (sayLine line) := by
  intro trace failure h
  cases (walk_sayLine.1 h).2

theorem says_attempt {body : Attempt α} (h : Says P body.run) : Says P (attempt body).run :=
  says_iff_along.2 (along_attempt (says_iff_along.1 h))

theorem says_onSession {body : Procedure (Session × Except Failure α)} (h : Says P body) :
    Says P (onSession body).run :=
  says_iff_along.2 (along_onSession (says_iff_along.1 h))

/-- To open a session is to say which device it is on, to ask for a PIN, and to say how an old key
is limited. -/
theorem says_openSession {manager : Manager} {device : Nat} {pin : Option Pin}
    {input : List String} (hdevice : ∀ device : Device, P ("🔑 " ++ device.shown ++ "\n"))
    (hprompt : P pinPrompt) (hwarning : ∀ error : DeviceError, P ("⚠ " ++ error.message ++ "\n")) :
    Says P (openSession manager device pin input).run := by
  refine Says.attempt_bind ?_ fun session => Says.attempt_bind ?_ fun ⟨pin, _⟩ =>
    Says.attempt_bind ?_ fun ⟨session, warning⟩ => ?_
  · refine Says.attempt_bind (says_attempt ?_) fun session => Says.attempt_bind ?_ fun _ => ?_
    · exact (Manager.quiet_selectDevice manager device none).only
    · exact says_sayLine (hdevice session.device)
    · exact says_pure _
  · cases pin with
    | some pin => exact says_pure _
    | none =>
      exact Says.attempt_bind (says_say hprompt) fun _ => says_pure _
  · exact says_onSession (Manager.quiet_loadAttributes manager _).only
  · cases warning with
    | some error => exact Says.attempt_bind (says_sayLine (hwarning error)) fun _ => says_pure _
    | none => exact says_pure _

end SecurityKey.CommandLine
