/-
**Runs of labelled transition functions.**

A system is a partial function `step : σ → ℓ → Option σ`: the label carries everything the
environment decides (the result of a system call, a clock reading, which thread moves), so that a
state and a label determine the next state, and `none` says that the label is not enabled.  A run
is a list of labels.

Main definitions:

* `Runs.exec` — the state a list of labels leads to;
* `Runs.EveryState`, `Runs.EveryStep` — a property of every state of a run, and of every state of
  a run together with the label taken there; `Runs.checkSteps` checks the latter.

Main results:

* `Runs.exec_invariant` — the invariant rule;
* `Runs.everyState_iff_everyStep` — **the exact condition rule**: if from a state that satisfies
  the property a step keeps it exactly when the step is good, then the property holds in every
  state of a run exactly when every step of the run is good.
-/

import Mathlib.Data.List.Infix

set_option relaxedAutoImplicit false
set_option autoImplicit false

namespace Runs

variable {σ ℓ : Type*}

/-! ### Execution -/

/-- The state a list of labels leads to, if each label is enabled where it is taken. -/
def exec (step : σ → ℓ → Option σ) : σ → List ℓ → Option σ
  | s, [] => some s
  | s, a :: as => (step s a).bind fun t => exec step t as

section

variable {step : σ → ℓ → Option σ}

@[simp] theorem exec_nil (s : σ) : exec step s [] = some s := rfl

theorem exec_cons (s : σ) (a : ℓ) (as : List ℓ) :
    exec step s (a :: as) = (step s a).bind fun t => exec step t as := rfl

theorem exec_cons_of_step {s t : σ} {a : ℓ} (h : step s a = some t) (as : List ℓ) :
    exec step s (a :: as) = exec step t as := by
  rw [exec_cons, h, Option.bind_some]

theorem exec_cons_eq_some {s u : σ} {a : ℓ} {as : List ℓ} :
    exec step s (a :: as) = some u ↔ ∃ t, step s a = some t ∧ exec step t as = some u := by
  rw [exec_cons, Option.bind_eq_some_iff]

theorem exec_append (s : σ) (as bs : List ℓ) :
    exec step s (as ++ bs) = (exec step s as).bind fun t => exec step t bs := by
  induction as generalizing s with
  | nil => rfl
  | cons a as ih =>
      rw [List.cons_append, exec_cons, exec_cons]
      cases step s a with
      | none => rfl
      | some t => exact ih t

theorem exec_append_eq_some {s u : σ} {as bs : List ℓ} :
    exec step s (as ++ bs) = some u ↔
      ∃ t, exec step s as = some t ∧ exec step t bs = some u := by
  rw [exec_append, Option.bind_eq_some_iff]

@[simp] theorem exec_singleton (s : σ) (a : ℓ) : exec step s [a] = step s a := by
  rw [exec_cons]
  cases step s a <;> rfl

end

/-! ### Invariants -/

/-- A property that no step leaves. -/
def Invariant (step : σ → ℓ → Option σ) (I : σ → Prop) : Prop :=
  ∀ s a t, I s → step s a = some t → I t

section

variable {step : σ → ℓ → Option σ} {I : σ → Prop}

/-- **The invariant rule**: what no step leaves holds at the end of every run. -/
theorem exec_invariant (hI : Invariant step I) {s t : σ} {as : List ℓ} (hs : I s)
    (h : exec step s as = some t) : I t := by
  induction as generalizing s with
  | nil =>
      rw [exec_nil, Option.some_inj] at h
      exact h ▸ hs
  | cons a as ih =>
      obtain ⟨u, hu, hut⟩ := exec_cons_eq_some.1 h
      exact ih (hI s a u hs hu) hut

end

/-! ### Properties of all the states, and of all the steps, of a run -/

/-- `P` holds in every state the run `as` from `s` passes through. -/
def EveryState (step : σ → ℓ → Option σ) (P : σ → Prop) (s : σ) (as : List ℓ) : Prop :=
  ∀ pre, pre <+: as → ∀ t, exec step s pre = some t → P t

/-- `G` holds of every label the run `as` from `s` takes, and of the state it is taken in. -/
def EveryStep (step : σ → ℓ → Option σ) (G : σ → ℓ → Prop) (s : σ) (as : List ℓ) : Prop :=
  ∀ pre a, pre ++ [a] <+: as → ∀ t, exec step s pre = some t → G t a

section

variable {step : σ → ℓ → Option σ} {I P : σ → Prop} {G : σ → ℓ → Prop}

theorem EveryState.head {s : σ} {as : List ℓ} (h : EveryState step P s as) : P s :=
  h [] List.nil_prefix s rfl

theorem EveryState.last {s t : σ} {as : List ℓ} (h : EveryState step P s as)
    (ht : exec step s as = some t) : P t :=
  h as (List.prefix_refl as) t ht

@[simp] theorem everyState_nil {s : σ} : EveryState step P s [] ↔ P s := by
  constructor
  · intro h
    exact h.head
  · intro h pre hpre t ht
    obtain rfl := List.prefix_nil.1 hpre
    rw [exec_nil, Option.some_inj] at ht
    exact ht ▸ h

@[simp] theorem everyStep_nil {s : σ} : EveryStep step G s [] := by
  intro pre a hpre
  simp at hpre

theorem everyState_cons {s t : σ} {a : ℓ} {as : List ℓ} (hst : step s a = some t) :
    EveryState step P s (a :: as) ↔ P s ∧ EveryState step P t as := by
  constructor
  · intro h
    refine ⟨h.head, ?_⟩
    intro pre hpre u hu
    exact h (a :: pre) (List.cons_prefix_cons.2 ⟨rfl, hpre⟩) u (by rwa [exec_cons_of_step hst])
  · rintro ⟨hs, h⟩ pre hpre u hu
    cases pre with
    | nil =>
        rw [exec_nil, Option.some_inj] at hu
        exact hu ▸ hs
    | cons b pre =>
        obtain ⟨rfl, htail⟩ := List.cons_prefix_cons.1 hpre
        rw [exec_cons_of_step hst] at hu
        exact h pre htail u hu

theorem everyStep_cons {s t : σ} {a : ℓ} {as : List ℓ} (hst : step s a = some t) :
    EveryStep step G s (a :: as) ↔ G s a ∧ EveryStep step G t as := by
  constructor
  · intro h
    refine ⟨h [] a (by simp) s rfl, ?_⟩
    intro pre b hpre u hu
    exact h (a :: pre) b (List.cons_prefix_cons.2 ⟨rfl, hpre⟩) u (by rwa [exec_cons_of_step hst])
  · rintro ⟨hs, h⟩ pre b hpre u hu
    cases pre with
    | nil =>
        rw [exec_nil, Option.some_inj] at hu
        obtain ⟨rfl, -⟩ := List.cons_prefix_cons.1 hpre
        exact hu ▸ hs
    | cons c pre =>
        obtain ⟨rfl, htail⟩ := List.cons_prefix_cons.1 hpre
        rw [exec_cons_of_step hst] at hu
        exact h pre b htail u hu

/-- A label that is not enabled is taken all the same. -/
theorem everyStep_cons_of_none {s : σ} {a : ℓ} {as : List ℓ} (hst : step s a = none) :
    EveryStep step G s (a :: as) ↔ G s a := by
  constructor
  · intro h
    exact h [] a (by simp) s rfl
  · intro hG pre b hpre t ht
    cases pre with
    | nil =>
        obtain ⟨rfl, -⟩ := List.cons_prefix_cons.1 hpre
        rw [exec_nil, Option.some_inj] at ht
        exact ht ▸ hG
    | cons c pre =>
        obtain ⟨rfl, -⟩ := List.cons_prefix_cons.1 hpre
        rw [exec_cons, hst] at ht
        cases ht

/-- **The exact condition rule.**  `I` is what is known of the states as long as the property `P`
holds; from such a state a step keeps `P` exactly when it is good.  Then `P` holds all along a run
exactly when all its steps are good. -/
theorem everyState_iff_everyStep
    (hI : ∀ s a t, I s → P s → step s a = some t → P t → I t)
    (hP : ∀ s a t, I s → P s → step s a = some t → (P t ↔ G s a))
    {s u : σ} {as : List ℓ} (hIs : I s) (hPs : P s) (h : exec step s as = some u) :
    EveryState step P s as ↔ EveryStep step G s as := by
  induction as generalizing s with
  | nil => simp [hPs]
  | cons a as ih =>
      obtain ⟨t, hst, htu⟩ := exec_cons_eq_some.1 h
      rw [everyState_cons hst, everyStep_cons hst, ← hP s a t hIs hPs hst]
      constructor
      · rintro ⟨-, h⟩
        exact ⟨h.head, (ih (hI s a t hIs hPs hst h.head) h.head htu).1 h⟩
      · rintro ⟨hPt, h⟩
        exact ⟨hPs, (ih (hI s a t hIs hPs hst hPt) hPt htu).2 h⟩

/-- What every good step keeps holds all along a run of good steps. -/
theorem EveryStep.everyState
    (hP : ∀ s a t, P s → step s a = some t → G s a → P t)
    {s u : σ} {as : List ℓ} (hPs : P s) (h : exec step s as = some u)
    (hG : EveryStep step G s as) : EveryState step P s as := by
  induction as generalizing s with
  | nil => simpa using hPs
  | cons a as ih =>
      obtain ⟨t, hst, htu⟩ := exec_cons_eq_some.1 h
      obtain ⟨hGs, hG⟩ := (everyStep_cons hst).1 hG
      exact (everyState_cons hst).2 ⟨hPs, ih (hP s a t hPs hst hGs) htu hG⟩

/-- A run of good steps in two parts. -/
theorem EveryStep.append {s t : σ} {as bs : List ℓ} (hG : EveryStep step G s (as ++ bs))
    (h : exec step s as = some t) : EveryStep step G s as ∧ EveryStep step G t bs := by
  constructor
  · intro pre a hpre
    exact hG pre a (hpre.trans (List.prefix_append as bs))
  · intro pre a hpre u hu
    refine hG (as ++ pre) a ?_ u (exec_append_eq_some.2 ⟨t, h, hu⟩)
    rw [List.append_assoc]
    exact (List.prefix_append_right_inj as).2 hpre

/-- What every step of a run satisfies may be replaced by what follows from it, as long as it keeps
an invariant. -/
theorem EveryStep.of_invariant {Q : σ → ℓ → Prop}
    (hI : ∀ s a t, I s → step s a = some t → G s a → I t)
    (hQ : ∀ s a t, I s → step s a = some t → G s a → Q s a)
    {s u : σ} {as : List ℓ} (hIs : I s) (h : exec step s as = some u)
    (hG : EveryStep step G s as) : EveryStep step Q s as := by
  induction as generalizing s with
  | nil => exact everyStep_nil
  | cons a as ih =>
      obtain ⟨t, hst, htu⟩ := exec_cons_eq_some.1 h
      obtain ⟨hGs, hG⟩ := (everyStep_cons hst).1 hG
      exact (everyStep_cons hst).2 ⟨hQ s a t hIs hst hGs, ih (hI s a t hIs hst hGs) htu hG⟩

/-- Two conditions on the steps that say the same where an invariant holds, which they keep, say the
same of a run, even of one that comes to a label that is not enabled. -/
theorem everyStep_congr {Q : σ → ℓ → Prop}
    (hI : ∀ s a t, I s → step s a = some t → G s a → I t)
    (hGQ : ∀ s a, I s → (G s a ↔ Q s a)) {s : σ} (hIs : I s) (as : List ℓ) :
    EveryStep step G s as ↔ EveryStep step Q s as := by
  induction as generalizing s with
  | nil => simp
  | cons a as ih =>
      cases hst : step s a with
      | none => rw [everyStep_cons_of_none hst, everyStep_cons_of_none hst, hGQ s a hIs]
      | some t =>
          rw [everyStep_cons hst, everyStep_cons hst, ← hGQ s a hIs]
          exact and_congr_right fun hG => ih (hI s a t hIs hst hG)

/-- A decidable condition, checked at each step of a run. -/
def checkSteps (step : σ → ℓ → Option σ) (G : σ → ℓ → Prop) [∀ s a, Decidable (G s a)] :
    σ → List ℓ → Bool
  | _, [] => true
  | s, a :: as =>
      decide (G s a) &&
        match step s a with
        | some t => checkSteps step G t as
        | none => true

theorem everyStep_of_checkSteps [∀ s a, Decidable (G s a)] {s : σ} {as : List ℓ}
    (h : checkSteps step G s as = true) : EveryStep step G s as := by
  induction as generalizing s with
  | nil => exact everyStep_nil
  | cons a as ih =>
      rw [checkSteps, Bool.and_eq_true, decide_eq_true_iff] at h
      obtain ⟨hG, htail⟩ := h
      cases hst : step s a with
      | some t =>
          rw [hst] at htail
          exact (everyStep_cons hst).2 ⟨hG, ih htail⟩
      | none => exact (everyStep_cons_of_none hst).2 hG

end

end Runs
