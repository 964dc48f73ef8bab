/-
**The lookup of a transition.**

`findLocaltime` looks a time up by a binary search, steps back where the search does not meet the
time exactly, and treats the times before the first transition and behind the last one apart.  What
it computes is what a look at every transition in turn would find: the last one that is not later
than the time.

Main definitions:

* `TimeZone.lastTransition` — the last transition that is not later than a time;
* `TimeZone.scanLocaltime` — the type of local time found by a look at all the transitions.

Main results:

* `TimeZone.Split.lastTransition_eq` — the place of a time among sorted transitions is behind that
  transition;
* `TimeZone.findLocaltime_scan` — **the lookup equals the linear scan**, its assertion holds, and
  the binary search in it has no choice.
-/

import G5.Base.TimeZone

set_option relaxedAutoImplicit false
set_option autoImplicit false

namespace G5

open BinarySearch

namespace TimeZone

/-- The last transition whose key is at most `time`. -/
def lastTransition (comp : Comp) (transitions : List Transition) (time : ℤ) : Option Transition :=
  (transitions.filter fun tr => comp.key tr ≤ time).getLast?

/-- The type of the last transition whose key is at most `time`, or the first type if there is
none. -/
def scanLocaltime (data : Data) (comp : Comp) (time : ℤ) : Option Localtime :=
  match lastTransition comp data.transitions time with
  | some tr => data.localtimes[tr.localtimeIdx.toNat]?
  | none => data.localtimes.head?

section

variable {comp : Comp} {transitions : List Transition} {time : ℤ} {k : ℕ}

/-- The transitions that are not later come first. -/
theorem Split.filter_eq (h : Split comp transitions time k) :
    (transitions.filter fun tr => comp.key tr ≤ time) = transitions.take k := by
  have htake : (transitions.take k).filter (fun tr => comp.key tr ≤ time) =
      transitions.take k := by
    refine List.filter_eq_self.2 fun tr htr => ?_
    obtain ⟨i, hi⟩ := List.getElem?_of_mem htr
    rw [List.getElem?_take] at hi
    split at hi
    · rename_i hlt
      exact decide_eq_true (h.low i tr hlt hi)
    · cases hi
  have hdrop : (transitions.drop k).filter (fun tr => comp.key tr ≤ time) = [] := by
    refine List.filter_eq_nil_iff.2 fun tr htr => ?_
    obtain ⟨i, hi⟩ := List.getElem?_of_mem htr
    rw [List.getElem?_drop] at hi
    have hlate := h.high (k + i) tr (Nat.le_add_right k i) hi
    simpa using hlate
  have hsplit := congrArg (List.filter fun tr => decide (comp.key tr ≤ time))
    (List.take_append_drop k transitions)
  rw [List.filter_append, htake, hdrop, List.append_nil] at hsplit
  exact hsplit.symm

/-- The place of a time is behind the last transition that is not later. -/
theorem Split.lastTransition_eq (h : Split comp transitions time k) :
    lastTransition comp transitions time =
      match k with
      | 0 => none
      | m + 1 => transitions[m]? := by
  have hlength := h.le_length
  rw [lastTransition, h.filter_eq]
  cases k with
  | zero => rfl
  | succ m =>
      have hlen : (transitions.take (m + 1)).length = m + 1 := by
        rw [List.length_take]
        omega
      rw [List.getLast?_eq_getElem?, hlen, Nat.add_sub_cancel,
        List.getElem?_take_of_lt (Nat.lt_succ_self m)]

/-- What is before a time in sorted transitions comes first. -/
theorem Sorted.partitioned (hsorted : Sorted comp transitions) (sentry : Transition) :
    Partitioned (fun tr => comp.before tr sentry) transitions := by
  intro i j tr tr' hij htr htr' hbefore
  have hlt := hsorted i j tr tr' hij htr htr'
  rw [Comp.before_iff] at hbefore ⊢
  exact hlt.trans hbefore

end

/-- **The lookup equals the linear scan**: it has a result, the type of the last transition that is
not later than the time, or the first type.  The search in it returns the only position that
`std::lower_bound` may return. -/
theorem findLocaltime_scan {data : Data} {comp : Comp} (hne : data.localtimes ≠ [])
    (hsorted : Sorted comp data.transitions)
    (hidx : ∀ tr ∈ data.transitions,
      0 ≤ tr.localtimeIdx ∧ tr.localtimeIdx < data.localtimes.length)
    (sentry : Transition) :
    (∃ type, findLocaltime data sentry comp = .ok type ∧
      scanLocaltime data comp (comp.key sentry) = some type) ∧
    ∀ r, IsLowerBound (fun tr => comp.before tr sentry) data.transitions r ↔
      r = lowerBound (fun tr => comp.before tr sentry) data.transitions := by
  refine ⟨?_, fun r => isLowerBound_iff (hsorted.partitioned sentry)⟩
  obtain ⟨k, hfind, hplace⟩ := findLocaltime_place data sentry comp
  have hsplit := hplace.split hsorted
  have hlength := hsplit.le_length
  have hlast := hsplit.lastTransition_eq
  rw [hfind, scanLocaltime, hlast]
  cases k with
  | zero =>
      obtain ⟨front, rest, hfront⟩ := List.exists_cons_of_ne_nil hne
      refine ⟨front, elementAt_natCast ?_, ?_⟩
      · rw [hfront]
        rfl
      · rw [hfront]
        rfl
  | succ m =>
      have hget := List.getElem?_eq_getElem (l := data.transitions) (i := m) (by omega)
      obtain ⟨hidx₀, hidx₁⟩ := hidx _ (List.mem_of_getElem? hget)
      obtain ⟨type, -, htype⟩ := elementAt_of_lt hidx₀ hidx₁
      refine ⟨type, (typeAt_succ hget).trans htype, ?_⟩
      simp only [hget]
      exact (elementAt_eq_ok.1 htype).2

/-- Two types and two transitions. -/
def twoTransitions : Data where
  transitions := [⟨10, 20, 0⟩, ⟨30, 35, 1⟩]
  localtimes := [⟨10, false, 0⟩, ⟨5, true, 0⟩]

/-- A time that meets the second transition exactly. -/
theorem findLocaltime_scan_demo :
    (∃ type, findLocaltime twoTransitions ⟨30, 0, 0⟩ ⟨true⟩ = .ok type ∧
      scanLocaltime twoTransitions ⟨true⟩ 30 = some type) ∧
    ∀ r, IsLowerBound (fun tr => Comp.before ⟨true⟩ tr ⟨30, 0, 0⟩) twoTransitions.transitions r ↔
      r = lowerBound (fun tr => Comp.before ⟨true⟩ tr ⟨30, 0, 0⟩) twoTransitions.transitions := by
  have hsorted : Sorted ⟨true⟩ twoTransitions.transitions := by
    intro i j tr tr' hij htr htr'
    have hlen : twoTransitions.transitions.length = 2 := rfl
    have hj := (List.getElem?_eq_some_iff.1 htr').1
    obtain ⟨rfl, rfl⟩ : i = 0 ∧ j = 1 := by omega
    cases htr
    cases htr'
    decide
  have hidx : ∀ tr ∈ twoTransitions.transitions,
      0 ≤ tr.localtimeIdx ∧ tr.localtimeIdx < twoTransitions.localtimes.length := by
    decide
  exact findLocaltime_scan (by decide) hsorted hidx ⟨30, 0, 0⟩

end TimeZone

end G5
