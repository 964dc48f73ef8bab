/-
**Records of what several threads have done.**

A record is a list of pairs: who did it, and what was done.

Main definitions:

* `Record.of` — the entries of one thread.

Main results:

* `Record.of_append` — the entries of one thread after one more entry.
-/

import Mathlib.Data.List.Basic
import Mathlib.Tactic.Common

set_option relaxedAutoImplicit false
set_option autoImplicit false

namespace Record

variable {τ α : Type} [DecidableEq τ]

/-- The entries of one thread, in the order of the record. -/
def of (t : τ) (record : List (τ × α)) : List α :=
  (record.filter fun x => x.1 = t).map Prod.snd

@[simp] theorem of_nil (t : τ) : of t ([] : List (τ × α)) = [] := rfl

theorem of_append (t : τ) (record : List (τ × α)) (u : τ) (x : α) :
    of t (record ++ [(u, x)]) = of t record ++ (if u = t then [x] else []) := by
  unfold of
  rw [List.filter_append, List.map_append, List.filter_singleton]
  by_cases hu : u = t
  · simp [hu]
  · simp [hu]

end Record
