/-
**Mutual exclusion.**

Threads stand at points of their programs; some of the points are inside a section that one mutex
protects.  The mutex is owned exactly by the thread that is inside.

Main definitions:

* `Exclusive` — who owns the mutex, and who is inside.

Main results:

* `Exclusive.owner_eq`, `Exclusive.outside` — who may be inside;
* `Exclusive.move`, `Exclusive.enter`, `Exclusive.leave` — what keeps the owner the one inside.
-/

import Mathlib.Logic.Function.Basic
import Mathlib.Tactic.Common

set_option relaxedAutoImplicit false
set_option autoImplicit false

variable {τ π : Type}

/-- The owner of the mutex is the thread whose point is inside, if there is one. -/
def Exclusive (inside : π → Bool) (owner : Option τ) (points : τ → π) : Prop :=
  ∀ t, owner = some t ↔ inside (points t) = true

namespace Exclusive

variable {inside : π → Bool} {owner : Option τ} {points : τ → π} {t : τ} {p : π}

/-- Nobody is inside. -/
theorem init (hp : inside p = false) : Exclusive inside (none : Option τ) fun _ => p := by
  intro t
  rw [hp]
  simp

theorem owner_eq (h : Exclusive inside owner points) (ht : inside (points t) = true) :
    owner = some t := (h t).2 ht

/-- While the mutex is free nobody is inside. -/
theorem outside (h : Exclusive inside none points) (t : τ) : inside (points t) = false := by
  cases hin : inside (points t) with
  | false => rfl
  | true => exact absurd (h.owner_eq hin) (Option.some_ne_none t).symm

variable [DecidableEq τ]

/-- A thread that stays inside, or outside. -/
theorem move (h : Exclusive inside owner points) (hp : inside p = inside (points t)) :
    Exclusive inside owner (Function.update points t p) := by
  refine (Function.forall_update_iff points fun u q => owner = some u ↔ inside q = true).2
    ⟨?_, fun u _ => h u⟩
  rw [hp]
  exact h t

theorem enter (h : Exclusive inside none points) (hp : inside p = true) :
    Exclusive inside (some t) (Function.update points t p) := by
  refine (Function.forall_update_iff points fun u q => some t = some u ↔ inside q = true).2
    ⟨iff_of_true rfl hp, fun u hu => ?_⟩
  rw [h.outside u]
  exact iff_of_false (fun heq => hu (Option.some_inj.1 heq).symm) Bool.false_ne_true

theorem leave (h : Exclusive inside (some t) points) (hp : inside p = false) :
    Exclusive inside none (Function.update points t p) := by
  refine (Function.forall_update_iff points fun u q => none = some u ↔ inside q = true).2
    ⟨?_, fun u hu => ?_⟩
  · rw [hp]
    simp
  · have hout : inside (points u) ≠ true := by
      intro hin
      exact hu (Option.some_inj.1 (h.owner_eq hin)).symm
    exact iff_of_false (Option.some_ne_none u).symm hout

end Exclusive
