/-
**The pool of loops** (`src/net/EventLoopThreadPool.cc`).

`start` makes threads with loops, one after the other, and waits for each of them; the loops are
then given out in turns.  While `start` waits, the threads that it has started go on as they like.

Main definitions:

* `EventLoopThreadPool`, `EventLoopThreadPool.step` — the pool, its threads and its owner;
* `EventLoopThreadPool.getNextLoop`, `getLoopForHash`, `getAllLoops`;
* `EventLoopThreadPool.Ready` — what holds once `start` has returned.

Main results:

* `EventLoopThreadPool.step_moves` — what a step can do, said once;
* `EventLoopThreadPool.wellFormed_step` — **no step breaks the invariant**;
* `EventLoopThreadPool.poolReady_of_exec` — there are as many loops as were asked for, they are
  distinct and run, and every round of `getNextLoop` gives out each of them once;
* `EventLoopThreadPool.poolStarts_of_exec` — **`start` returns**, if the threads can be created.
-/

import G5.Basic
import G5.Lib.RoundRobin
import G5.Net.EventLoopThread
import Mathlib.Data.Fintype.EquivFin

set_option relaxedAutoImplicit false
set_option autoImplicit false

namespace G5

/-! ### The threads of a pool -/

namespace EventLoopThread

variable {F : Type}

/-- The address of the loop, once it has been made. -/
def FuncPc.loop? : FuncPc → Option ℕ
  | .calling l | .locking l | .publishing l | .notifying l | .unlocking l | .looping l => some l
  | .constructing | .relocking | .clearing | .done => none

theorem loop_of_published {func : FuncPc} {loop : ℕ} (h : func.published? = some loop) :
    func.loop? = some loop := by
  cases func <;> first | exact h | cases h

/-- The steps of a thread that a pool has started: its owner does not call its functions again. -/
def Op.isPooled : Op F → Bool
  | .startLoop | .destroy => false
  | .thread _ | .caller | .rouse | .construct _ | .func | .notify _ | .loop _ => true

/-- The address at which the loop is made. -/
def Op.constructs? : Op F → Option ℕ
  | .construct l => some l
  | _ => none

/-- What a step leaves of a thread in a pool. -/
structure Stays (s s' : EventLoopThread F) (op : Op F) : Prop where
  callback : s'.callback = s.callback
  returned : ∀ loop, s.caller = .returned loop → s'.caller = .returned loop
  held : s.caller ≠ .joining → s'.caller ≠ .joining
  loop : s'.func.loop? = s.func.loop? ∨ (s.func.loop? = none ∧ s'.func.loop? = op.constructs?)

theorem stays_step {s s' : EventLoopThread F} {op : Op F} (h : s.WellFormed)
    (hop : op.isPooled = true) (hstep : s.step op = some s') : Stays s s' op := by
  cases step_moves hstep with
  | startLoop | startTwice | destroy | join => cases hop
  | thread | rouse | loop => exact ⟨rfl, fun _ => id, id, Or.inl rfl⟩
  | started hcaller | lock hcaller | wait hcaller | pass hcaller | resume hcaller | leave hcaller
  | joined hcaller => exact ⟨rfl, by rw [hcaller]; nofun, fun _ => nofun, Or.inl rfl⟩
  | construct hfunc =>
      refine ⟨rfl, fun _ => id, id, Or.inr ⟨by rw [hfunc]; rfl, ?_⟩⟩
      by_cases hcallback : s.callback = true
      · rw [if_pos hcallback]
        rfl
      · rw [if_neg hcallback]
        rfl
  | callback hfunc | lockFunc hfunc | publish hfunc | notify hfunc | unlock hfunc =>
      exact ⟨rfl, fun _ => id, id, Or.inl (by rw [hfunc]; rfl)⟩
  | loopReturns hfunc hphase => exact absurd hphase h.eventLoop.2
  | relock hfunc => exact absurd hfunc h.alive.1
  | clear hfunc => exact absurd hfunc h.alive.2.1

end EventLoopThread

/-! ### The pool -/

namespace EventLoopThreadPool

/-- Where the owner of the pool is. -/
inductive Pc
  | idle
  /-- in `start`, at the test of the loop -/
  | testing (i : ℕ)
  /-- in `start`, in `t->startLoop()` -/
  | starting (i : ℕ)
  /-- in `start`, in `cb(baseLoop_)` -/
  | calling
  /-- `start` has returned -/
  | returned
  deriving DecidableEq, Repr

end EventLoopThreadPool

/-- The pool, with its threads; the last three fields record what has happened. -/
structure EventLoopThreadPool (F : Type) where
  baseLoop : ℕ
  started : Bool
  numThreads : ℤ
  next : ℕ
  threads : List (EventLoopThread F)
  loops : List ℕ
  /-- the argument of `start` is set -/
  callback : Bool
  pc : EventLoopThreadPool.Pc
  /-- the assertion of `start` has failed -/
  failed : Bool
  /-- the calls of the callback with the base loop -/
  called : List ℕ
  /-- what `getNextLoop` has returned -/
  given : List ℕ

namespace EventLoopThreadPool

/-- What may happen next. -/
inductive Op (F : Type)
  | setThreadNum (numThreads : ℤ)
  | start (callback : Bool)
  /-- the owner takes its next step in `start` -/
  | go
  /-- a step of a thread that has been started, or of its owner in `startLoop` -/
  | thread (k : ℕ) (op : EventLoopThread.Op F)
  | getNextLoop

/-- What `start` and the threads do by themselves until all the loops run. -/
def Op.isOwn {F : Type} : Op F → Bool
  | .go => true
  | .thread _ op => op.isOwn
  | .setThreadNum _ | .start _ | .getNextLoop => false

variable {F : Type}

/-! ### The functions -/

/-- The constructor. -/
def init (baseLoop : ℕ) : EventLoopThreadPool F where
  baseLoop := baseLoop
  started := false
  numThreads := 0
  next := 0
  threads := []
  loops := []
  callback := false
  pc := .idle
  failed := false
  called := []
  given := []

def getNextLoop (s : EventLoopThreadPool F) : Checked (ℕ × EventLoopThreadPool F) := do
  assertThat (s.started = true)
  if s.loops = [] then return (s.baseLoop, s)
  else
    match s.loops[s.next]? with
    | some loop =>
        return (loop, { s with next := if s.loops.length ≤ s.next + 1 then 0 else s.next + 1 })
    | none => throw .outOfRange

def getLoopForHash (s : EventLoopThreadPool F) (hashCode : ℕ) : Checked ℕ :=
  if s.loops = [] then return s.baseLoop
  else
    match s.loops[hashCode % s.loops.length]? with
    | some loop => return loop
    | none => throw .outOfRange

def getAllLoops (s : EventLoopThreadPool F) : Checked (List ℕ) := do
  assertThat (s.started = true)
  return if s.loops = [] then [s.baseLoop] else s.loops

/-- A loop is made where no other one is: on the stack of its thread. -/
def Fresh (s : EventLoopThreadPool F) (op : EventLoopThread.Op F) : Prop :=
  ∀ loop, op.constructs? = some loop → loop ≠ s.baseLoop ∧ ∀ t ∈ s.threads, t.func.loop? ≠ some loop

instance (s : EventLoopThreadPool F) (op : EventLoopThread.Op F) : Decidable (s.Fresh op) :=
  match h : op.constructs? with
  | none => isTrue fun loop hloop => by rw [h] at hloop; cases hloop
  | some l =>
      decidable_of_iff (l ≠ s.baseLoop ∧ ∀ t ∈ s.threads, t.func.loop? ≠ some l)
        ⟨fun hfresh loop hloop => by
          rw [h, Option.some_inj] at hloop
          exact hloop ▸ hfresh, fun hfresh => hfresh l h⟩

/-- The next statement of `start`. -/
def goOn (s : EventLoopThreadPool F) : Pc → Option (EventLoopThreadPool F)
  | .testing i =>
      if (i : ℤ) < s.numThreads then
        ((EventLoopThread.init s.callback).step .startLoop).map fun t =>
          { s with threads := s.threads ++ [t], pc := .starting i }
      else
        some { s with pc := if s.numThreads = 0 ∧ s.callback = true then .calling else .returned }
  | .starting i =>
      s.threads[i]?.bind fun t =>
        match t.caller with
        | .returned loop => some { s with loops := s.loops ++ [loop], pc := .testing (i + 1) }
        | _ => none
  | .calling => some { s with called := s.called ++ [s.baseLoop], pc := .returned }
  | .idle | .returned => none

/-- One step. -/
def step (s : EventLoopThreadPool F) : Op F → Option (EventLoopThreadPool F)
  | .setThreadNum n => if s.pc = .idle then some { s with numThreads := n } else none
  | .start callback =>
      if s.pc = .idle ∨ s.pc = .returned then
        if s.started then some { s with failed := true }
        else some { s with started := true, callback := callback, pc := .testing 0 }
      else none
  | .go => s.goOn s.pc
  | .thread k op =>
      if op.isPooled = true ∧ s.Fresh op then
        s.threads[k]?.bind fun t =>
          (t.step op).map fun t' => { s with threads := s.threads.set k t' }
      else none
  | .getNextLoop =>
      if s.pc = .returned then
        match s.getNextLoop with
        | .ok (loop, s') => some { s' with given := s'.given ++ [loop] }
        | .error _ => none
      else none

/-! ### What a step can do -/

/-- The steps, with their guards. -/
inductive Moves (s : EventLoopThreadPool F) : Op F → EventLoopThreadPool F → Prop
  | setThreadNum (n : ℤ) (hpc : s.pc = .idle) :
      Moves s (.setThreadNum n) { s with numThreads := n }
  | start (callback : Bool) (hpc : s.pc = .idle ∨ s.pc = .returned) (hstarted : s.started = false) :
      Moves s (.start callback) { s with started := true, callback := callback, pc := .testing 0 }
  | startTwice (callback : Bool) (hstarted : s.started = true) :
      Moves s (.start callback) { s with failed := true }
  | create {i : ℕ} {t : EventLoopThread F} (hpc : s.pc = .testing i)
      (hmore : (i : ℤ) < s.numThreads)
      (ht : (EventLoopThread.init s.callback).step .startLoop = some t) :
      Moves s .go { s with threads := s.threads ++ [t], pc := .starting i }
  | finish {i : ℕ} (hpc : s.pc = .testing i) (hdone : ¬(i : ℤ) < s.numThreads) :
      Moves s .go
        { s with pc := if s.numThreads = 0 ∧ s.callback = true then .calling else .returned }
  | started {i loop : ℕ} {t : EventLoopThread F} (hpc : s.pc = .starting i)
      (ht : s.threads[i]? = some t) (hreturned : t.caller = .returned loop) :
      Moves s .go { s with loops := s.loops ++ [loop], pc := .testing (i + 1) }
  | called (hpc : s.pc = .calling) :
      Moves s .go { s with called := s.called ++ [s.baseLoop], pc := .returned }
  | thread {k : ℕ} {op : EventLoopThread.Op F} {t t' : EventLoopThread F}
      (hop : op.isPooled = true) (hfresh : s.Fresh op) (ht : s.threads[k]? = some t)
      (hstep : t.step op = some t') :
      Moves s (.thread k op) { s with threads := s.threads.set k t' }
  | giveBase (hpc : s.pc = .returned) (hloops : s.loops = []) :
      Moves s .getNextLoop { s with given := s.given ++ [s.baseLoop] }
  | give {loop : ℕ} (hpc : s.pc = .returned) (hloops : s.loops ≠ [])
      (hloop : s.loops[s.next]? = some loop) :
      Moves s .getNextLoop
        { s with
          next := RoundRobin.advance s.loops.length s.next
          given := s.given ++ [loop] }

/-- **A step is one of these.** -/
theorem step_moves {s s' : EventLoopThreadPool F} {op : Op F} (h : s.step op = some s') :
    Moves s op s' := by
  cases op with
  | setThreadNum n =>
      simp only [step, Option.ite_none_right_eq_some, Option.some.injEq] at h
      obtain ⟨hpc, rfl⟩ := h
      exact .setThreadNum n hpc
  | start callback =>
      simp only [step, Option.ite_none_right_eq_some] at h
      obtain ⟨hpc, h⟩ := h
      split_ifs at h with hstarted <;> cases h
      · exact .startTwice callback hstarted
      · exact .start callback hpc (Bool.not_eq_true _ ▸ hstarted)
  | go =>
      simp only [step] at h
      cases hpc : s.pc with
      | testing i =>
          rw [hpc, goOn] at h
          by_cases hmore : (i : ℤ) < s.numThreads
          · rw [if_pos hmore] at h
            obtain ⟨t, ht, rfl⟩ := Option.map_eq_some_iff.1 h
            exact .create hpc hmore ht
          · rw [if_neg hmore] at h
            cases h
            exact .finish hpc hmore
      | starting i =>
          rw [hpc, goOn] at h
          obtain ⟨t, ht, h⟩ := Option.bind_eq_some_iff.1 h
          split at h
          · rename_i loop hreturned
            cases h
            exact .started hpc ht hreturned
          · cases h
      | calling =>
          rw [hpc] at h
          cases h
          exact .called hpc
      | idle | returned =>
          rw [hpc] at h
          cases h
  | thread k op =>
      simp only [step, Option.ite_none_right_eq_some] at h
      obtain ⟨⟨hop, hfresh⟩, h⟩ := h
      obtain ⟨t, ht, h⟩ := Option.bind_eq_some_iff.1 h
      obtain ⟨t', hstep, rfl⟩ := Option.map_eq_some_iff.1 h
      exact .thread hop hfresh ht hstep
  | getNextLoop =>
      simp only [step, Option.ite_none_right_eq_some] at h
      obtain ⟨hpc, h⟩ := h
      split at h
      · rename_i loop s' hnext
        cases h
        obtain ⟨-, -, hnext⟩ := bind_eq_ok.1 hnext
        by_cases hloops : s.loops = []
        · rw [if_pos hloops] at hnext
          cases hnext
          exact .giveBase hpc hloops
        · rw [if_neg hloops] at hnext
          split at hnext
          · rename_i l hl
            cases hnext
            exact .give hpc hloops hl
          · cases hnext
      · cases h

/-! ### The invariant -/

/-- How far the owner of the pool is: how many threads there are, and how many loops. -/
def Progress (pc : Pc) (numThreads : ℤ) (threads loops : ℕ) : Prop :=
  match pc with
  | .idle => threads = 0 ∧ loops = 0
  | .testing i => threads = i ∧ loops = i ∧ i ≤ numThreads.toNat
  | .starting i => threads = i + 1 ∧ loops = i ∧ i + 1 ≤ numThreads.toNat
  | .calling => threads = 0 ∧ loops = 0 ∧ numThreads = 0
  | .returned => threads = numThreads.toNat ∧ loops = numThreads.toNat

/-- The loops are those that the first threads have returned, no two threads have one in common, and
they are given out in turns. -/
structure WellFormed (s : EventLoopThreadPool F) : Prop where
  threads : ∀ t ∈ s.threads, t.WellFormed ∧ t.callback = s.callback
  held : ∀ t ∈ s.threads, t.caller ≠ .joining
  distinct : ∀ (j k : ℕ) (t u : EventLoopThread F) (l : ℕ), s.threads[j]? = some t →
    s.threads[k]? = some u → t.func.loop? = some l → u.func.loop? = some l → j = k
  notBase : ∀ t ∈ s.threads, t.func.loop? ≠ some s.baseLoop
  progress : Progress s.pc s.numThreads s.threads.length s.loops.length
  got : ∀ (k l : ℕ), s.loops[k]? = some l →
    ∃ t, s.threads[k]? = some t ∧ t.caller = .returned l
  started : s.started = true ↔ s.pc ≠ .idle
  called : s.called = if s.pc = .returned ∧ s.numThreads = 0 ∧ s.callback = true then [s.baseLoop]
    else []
  calling : s.pc = .calling → s.callback = true
  turns : s.loops ≠ [] → RoundRobin.Turns s.loops s.next s.given
  base : s.loops = [] → ∀ l ∈ s.given, l = s.baseLoop
  early : s.pc ≠ .returned → s.next = 0 ∧ s.given = []

theorem wellFormed_init (baseLoop : ℕ) : (init baseLoop : EventLoopThreadPool F).WellFormed where
  threads t ht := by cases ht
  held t ht := by cases ht
  distinct j k t u l ht := by simp [init] at ht
  notBase t ht := by cases ht
  progress := ⟨rfl, rfl⟩
  got k l h := by simp [init] at h
  started := by simp [init]
  called := rfl
  calling := nofun
  turns h := absurd rfl h
  base _ l hl := by cases hl
  early _ := ⟨rfl, rfl⟩

section

variable {s s' : EventLoopThreadPool F}

/-- The loops of a pool are distinct, and none is the base loop. -/
theorem WellFormed.loops_nodup (h : s.WellFormed) : s.loops.Nodup ∧ s.baseLoop ∉ s.loops := by
  have hloop : ∀ (k l : ℕ), s.loops[k]? = some l →
      ∃ t, s.threads[k]? = some t ∧ t.func.loop? = some l := by
    intro k l hl
    obtain ⟨t, ht, hreturned⟩ := h.got k l hl
    have hwell := (h.threads t (List.mem_of_getElem? ht)).1
    exact ⟨t, ht, EventLoopThread.loop_of_published (hwell.sound.returned l hreturned).2.1⟩
  constructor
  · rw [List.nodup_iff_getElem?_ne_getElem?]
    intro j k hjk hk heq
    have hl := List.getElem?_eq_getElem hk
    obtain ⟨u, hu, hul⟩ := hloop k _ hl
    obtain ⟨t, ht, htl⟩ := hloop j _ (heq.trans hl)
    exact absurd (h.distinct j k t u _ ht hu htl hul) (Nat.ne_of_lt hjk)
  · intro hmem
    obtain ⟨k, hk⟩ := List.mem_iff_getElem?.1 hmem
    obtain ⟨t, ht, htl⟩ := hloop k _ hk
    exact h.notBase t (List.mem_of_getElem? ht) htl

/-! ### The steps -/

/-- A thread goes on. -/
theorem WellFormed.thread (h : s.WellFormed) {k : ℕ} {op : EventLoopThread.Op F}
    {t t' : EventLoopThread F} (hop : op.isPooled = true) (hfresh : s.Fresh op)
    (ht : s.threads[k]? = some t) (hstep : t.step op = some t') :
    WellFormed { s with threads := s.threads.set k t' } := by
  obtain ⟨hwell, hcallback⟩ := h.threads t (List.mem_of_getElem? ht)
  have hstays := EventLoopThread.stays_step hwell hop hstep
  have hwell' := EventLoopThread.wellFormed_step t op t' hwell hstep
  have hget : ∀ (j : ℕ) (u : EventLoopThread F), (s.threads.set k t')[j]? = some u →
      (j = k ∧ u = t') ∨ s.threads[j]? = some u := by
    intro j u hu
    rw [List.getElem?_set] at hu
    split_ifs at hu with hjk hk
    · exact Or.inl ⟨hjk.symm, (Option.some_inj.1 hu).symm⟩
    · exact Or.inr hu
  -- a loop is an old one, or has just been made
  have hold : ∀ (j : ℕ) (u : EventLoopThread F) (l : ℕ), (s.threads.set k t')[j]? = some u →
      u.func.loop? = some l → (∃ v, s.threads[j]? = some v ∧ v.func.loop? = some l) ∨
        (j = k ∧ op.constructs? = some l) := by
    intro j u l hu hul
    rcases hget j u hu with ⟨rfl, rfl⟩ | hu
    · rcases hstays.loop with hsame | ⟨-, hnew⟩
      · exact Or.inl ⟨t, ht, hsame.symm.trans hul⟩
      · exact Or.inr ⟨rfl, hnew.symm.trans hul⟩
    · exact Or.inl ⟨u, hu, hul⟩
  refine { h with
    threads := ?_
    held := ?_
    distinct := ?_
    notBase := ?_
    progress := by rw [List.length_set]; exact h.progress
    got := ?_ }
  · intro u hu
    rcases List.mem_or_eq_of_mem_set hu with hu | rfl
    · exact h.threads u hu
    · exact ⟨hwell', hstays.callback.trans hcallback⟩
  · intro u hu
    rcases List.mem_or_eq_of_mem_set hu with hu | rfl
    · exact h.held u hu
    · exact hstays.held (h.held t (List.mem_of_getElem? ht))
  · intro i j u v l hu hv hul hvl
    rcases hold i u l hu hul with ⟨u', hu', hul'⟩ | ⟨rfl, hnew⟩
    · rcases hold j v l hv hvl with ⟨v', hv', hvl'⟩ | ⟨rfl, hnew⟩
      · exact h.distinct i j u' v' l hu' hv' hul' hvl'
      · exact absurd hul' ((hfresh l hnew).2 u' (List.mem_of_getElem? hu'))
    · rcases hold j v l hv hvl with ⟨v', hv', hvl'⟩ | ⟨rfl, -⟩
      · exact absurd hvl' ((hfresh l hnew).2 v' (List.mem_of_getElem? hv'))
      · rfl
  · intro u hu hbase
    obtain ⟨j, hj⟩ := List.mem_iff_getElem?.1 hu
    rcases hold j u _ hj hbase with ⟨u', hu', hul'⟩ | ⟨-, hnew⟩
    · exact h.notBase u' (List.mem_of_getElem? hu') hul'
    · exact (hfresh _ hnew).1 rfl
  · intro j l hl
    obtain ⟨u, hu, hreturned⟩ := h.got j l hl
    by_cases hjk : j = k
    · subst hjk
      rw [ht, Option.some_inj] at hu
      subst hu
      exact ⟨t', List.getElem?_set_self (List.getElem?_eq_some_iff.1 ht).1,
        hstays.returned l hreturned⟩
    · exact ⟨u, by rw [List.getElem?_set_ne (Ne.symm hjk)]; exact hu, hreturned⟩

/-- Another thread is made. -/
theorem WellFormed.create (h : s.WellFormed) {i : ℕ} {t : EventLoopThread F}
    (hpc : s.pc = .testing i) (hmore : (i : ℤ) < s.numThreads)
    (ht : (EventLoopThread.init s.callback).step .startLoop = some t) :
    WellFormed { s with threads := s.threads ++ [t], pc := .starting i } := by
  have hprogress := h.progress
  rw [hpc] at hprogress
  obtain ⟨hthreads, hloops, -⟩ := hprogress
  have hroom : i + 1 ≤ s.numThreads.toNat := by omega
  have hwell := EventLoopThread.wellFormed_step _ _ _
    (EventLoopThread.wellFormed_init s.callback) ht
  have hnew : t.callback = s.callback ∧ t.caller ≠ .joining ∧ t.func = .constructing := by
    cases EventLoopThread.step_moves ht with
    | startLoop | startTwice => exact ⟨rfl, nofun, rfl⟩
  have hnone : t.func.loop? = none := by rw [hnew.2.2]; rfl
  have hget : ∀ (j : ℕ) (u : EventLoopThread F) (l : ℕ), (s.threads ++ [t])[j]? = some u →
      u.func.loop? = some l → s.threads[j]? = some u := by
    intro j u l hu hul
    rw [List.getElem?_append] at hu
    split_ifs at hu with hj
    · exact hu
    · obtain rfl := List.mem_singleton.1 (List.mem_of_getElem? hu)
      rw [hnone] at hul
      cases hul
  refine ⟨?_, ?_, ?_, ?_, ?_, ?_, ?_, ?_, nofun, h.turns, h.base, ?_⟩
  · intro u hu
    rcases List.mem_append.1 hu with hu | hu
    · exact h.threads u hu
    · obtain rfl := List.mem_singleton.1 hu
      exact ⟨hwell, hnew.1⟩
  · intro u hu
    rcases List.mem_append.1 hu with hu | hu
    · exact h.held u hu
    · obtain rfl := List.mem_singleton.1 hu
      exact hnew.2.1
  · intro j k u v l hu hv hul hvl
    exact h.distinct j k u v l (hget j u l hu hul) (hget k v l hv hvl) hul hvl
  · intro u hu hbase
    obtain ⟨j, hj⟩ := List.mem_iff_getElem?.1 hu
    exact h.notBase u (List.mem_of_getElem? (hget j u _ hj hbase)) hbase
  · refine ⟨?_, hloops, hroom⟩
    rw [List.length_append, List.length_singleton, hthreads]
  · intro k l hl
    obtain ⟨u, hu, hreturned⟩ := h.got k l hl
    exact ⟨u, by rw [List.getElem?_append_left (List.getElem?_eq_some_iff.1 hu).1]; exact hu,
      hreturned⟩
  · exact iff_of_true (h.started.2 (by rw [hpc]; nofun)) nofun
  · have hcalled := h.called
    rw [hpc] at hcalled
    exact hcalled
  · exact fun _ => h.early (by rw [hpc]; nofun)

/-- The last thread's loop has been returned. -/
theorem WellFormed.gotLoop (h : s.WellFormed) {i loop : ℕ} {t : EventLoopThread F}
    (hpc : s.pc = .starting i) (ht : s.threads[i]? = some t)
    (hreturned : t.caller = .returned loop) :
    WellFormed { s with loops := s.loops ++ [loop], pc := .testing (i + 1) } := by
  have hprogress := h.progress
  rw [hpc] at hprogress
  obtain ⟨hthreads, hloops, hle⟩ := hprogress
  have hearly := h.early (by rw [hpc]; nofun)
  have hcalled := h.called
  rw [hpc] at hcalled
  refine { h with
    progress := ⟨hthreads, by rw [List.length_append, List.length_singleton, hloops], hle⟩
    got := ?_
    started := iff_of_true (h.started.2 (by rw [hpc]; nofun)) nofun
    called := hcalled
    calling := nofun
    turns := fun _ => by rw [hearly.1, hearly.2]; exact RoundRobin.turns_nil _
    base := fun hnil => absurd hnil (by simp)
    early := fun _ => hearly }
  intro k l hl
  rw [List.getElem?_append] at hl
  split_ifs at hl with hk
  · exact h.got k l hl
  · obtain ⟨hlt, -⟩ := List.getElem?_eq_some_iff.1 hl
    obtain rfl := List.mem_singleton.1 (List.mem_of_getElem? hl)
    rw [List.length_singleton] at hlt
    obtain rfl : k = i := by omega
    exact ⟨t, ht, hreturned⟩

/-- **No step breaks the invariant.** -/
theorem wellFormed_step : Runs.Invariant (step (F := F)) WellFormed := by
  intro s op s' h hstep
  have hprogress := h.progress
  have hcalled := h.called
  cases step_moves hstep with
  | setThreadNum n hpc =>
      rw [hpc] at hprogress hcalled
      exact { h with
        progress := by rw [hpc]; exact hprogress
        called := by rw [hpc]; exact hcalled }
  | start callback hpc hstarted =>
      have hidle : s.pc = .idle := by
        by_contra hnot
        rw [h.started.2 hnot] at hstarted
        cases hstarted
      rw [hidle] at hprogress hcalled
      have hempty : s.threads = [] := List.length_eq_zero_iff.1 hprogress.1
      exact { h with
        threads := fun t ht => by
          rw [hempty] at ht
          cases ht
        progress := ⟨hprogress.1, hprogress.2, Nat.zero_le _⟩
        started := iff_of_true rfl nofun
        called := hcalled
        calling := nofun
        early := fun _ => h.early (by rw [hidle]; nofun) }
  | startTwice callback hstarted => exact { h with }
  | create hpc hmore ht => exact h.create hpc hmore ht
  | @finish i hpc hdone =>
      rw [hpc] at hprogress hcalled
      obtain ⟨hthreads, hloops, hle⟩ := hprogress
      have hall : i = s.numThreads.toNat := by omega
      by_cases hbase : s.numThreads = 0 ∧ s.callback = true
      · rw [if_pos hbase]
        exact { h with
          progress := ⟨by rw [hthreads, hall, hbase.1]; rfl, by rw [hloops, hall, hbase.1]; rfl,
            hbase.1⟩
          started := iff_of_true (h.started.2 (by rw [hpc]; nofun)) nofun
          called := hcalled
          calling := fun _ => hbase.2
          early := fun _ => h.early (by rw [hpc]; nofun) }
      · rw [if_neg hbase]
        exact { h with
          progress := ⟨hthreads.trans hall, hloops.trans hall⟩
          started := iff_of_true (h.started.2 (by rw [hpc]; nofun)) nofun
          called := by
            rw [if_neg fun hand => hbase hand.2]
            exact hcalled
          calling := nofun
          early := fun hne => absurd rfl hne }
  | started hpc ht hreturned => exact h.gotLoop hpc ht hreturned
  | called hpc =>
      have hcallback := h.calling hpc
      rw [hpc] at hprogress hcalled
      obtain ⟨hthreads, hloops, hzero⟩ := hprogress
      have hnone : s.called = [] := hcalled
      exact { h with
        progress := ⟨by rw [hthreads, hzero]; rfl, by rw [hloops, hzero]; rfl⟩
        started := iff_of_true (h.started.2 (by rw [hpc]; nofun)) nofun
        called := by rw [hnone, if_pos ⟨rfl, hzero, hcallback⟩]; rfl
        calling := nofun
        early := fun hne => absurd rfl hne }
  | thread hop hfresh ht hthread => exact h.thread hop hfresh ht hthread
  | giveBase hpc hloops =>
      exact { h with
        turns := fun hne => absurd hloops hne
        base := fun _ l hl => by
          rcases List.mem_append.1 hl with hl | hl
          · exact h.base hloops l hl
          · exact List.mem_singleton.1 hl
        early := fun hne => absurd hpc hne }
  | give hpc hloops hloop =>
      exact { h with
        turns := fun _ => (h.turns hloops).take hloop
        base := fun hnil => absurd hnil hloops
        early := fun hne => absurd hpc hne }

/-! ### What holds once `start` has returned -/

/-- There are as many loops as threads were asked for, all distinct and none the base loop; each of
them runs in the thread of its place, behind a callback of its own, and the base loop gets the
callback only if no threads were asked for.  Every window of calls of `getNextLoop` that is as long
as there are loops gives out each of them once; and a call returns a loop of `getAllLoops`, as does
`getLoopForHash`. -/
structure Ready (s : EventLoopThreadPool F) : Prop where
  length : s.loops.length = s.numThreads.toNat
  nodup : s.loops.Nodup ∧ s.baseLoop ∉ s.loops
  runs : ∀ (k l : ℕ), s.loops[k]? = some l → ∃ t, s.threads[k]? = some t ∧
    t.func.published? = some l ∧ t.called = if s.callback then [l] else []
  called : s.called = if s.numThreads = 0 ∧ s.callback = true then [s.baseLoop] else []
  rounds : s.loops ≠ [] → ∀ start, start + s.loops.length ≤ s.given.length →
    ((s.given.drop start).take s.loops.length).Perm s.loops
  base : s.loops = [] → ∀ l ∈ s.given, l = s.baseLoop
  answers : ∃ all, s.getAllLoops = .ok all ∧ (∃ l s', s.getNextLoop = .ok (l, s') ∧ l ∈ all) ∧
    ∀ hashCode, ∃ l, s.getLoopForHash hashCode = .ok l ∧ l ∈ all

/-- The functions of the owner return. -/
theorem WellFormed.answers (h : s.WellFormed) (hpc : s.pc = .returned) :
    ∃ all, s.getAllLoops = .ok all ∧ (∃ l s', s.getNextLoop = .ok (l, s') ∧ l ∈ all) ∧
      ∀ hashCode, ∃ l, s.getLoopForHash hashCode = .ok l ∧ l ∈ all := by
  have hstarted : s.started = true := h.started.2 (by rw [hpc]; nofun)
  by_cases hloops : s.loops = []
  · refine ⟨[s.baseLoop], ?_, ⟨s.baseLoop, s, ?_, List.mem_cons_self⟩, fun hashCode =>
      ⟨s.baseLoop, ?_, List.mem_cons_self⟩⟩
    · rw [getAllLoops, assertThat_pos hstarted, ok_bind, if_pos hloops]
      rfl
    · rw [getNextLoop, assertThat_pos hstarted, ok_bind, if_pos hloops]
      rfl
    · rw [getLoopForHash, if_pos hloops]
      rfl
  · have hget : ∀ k < s.loops.length, ∃ l, s.loops[k]? = some l ∧ l ∈ s.loops := fun k hk =>
      ⟨_, List.getElem?_eq_getElem hk, List.getElem_mem hk⟩
    refine ⟨s.loops, ?_, ?_, fun hashCode => ?_⟩
    · rw [getAllLoops, assertThat_pos hstarted, ok_bind, if_neg hloops]
      rfl
    · obtain ⟨l, hl, hmem⟩ := hget _ ((h.turns hloops).next_lt hloops)
      refine ⟨l, { s with next := RoundRobin.advance s.loops.length s.next }, ?_, hmem⟩
      rw [getNextLoop, assertThat_pos hstarted, ok_bind, if_neg hloops]
      simp only [hl]
      rfl
    · obtain ⟨l, hl, hmem⟩ :=
        hget _ (Nat.mod_lt hashCode (List.length_pos_iff.2 hloops))
      refine ⟨l, ?_, hmem⟩
      rw [getLoopForHash, if_neg hloops]
      simp only [hl]
      rfl

theorem WellFormed.ready (h : s.WellFormed) (hpc : s.pc = .returned) : s.Ready where
  length := by
    have hprogress := h.progress
    rw [hpc] at hprogress
    exact hprogress.2
  nodup := h.loops_nodup
  runs k l hl := by
    obtain ⟨t, ht, hreturned⟩ := h.got k l hl
    obtain ⟨hwell, hcallback⟩ := h.threads t (List.mem_of_getElem? ht)
    obtain ⟨-, hpublished, -, hcalled⟩ := hwell.sound.returned l hreturned
    exact ⟨t, ht, hpublished, by rw [hcalled, hcallback]⟩
  called := by
    rw [h.called]
    simp [hpc]
  rounds hloops start hwindow := (h.turns hloops).window_perm hwindow
  base := h.base
  answers := h.answers hpc

/-- **The pool is ready once `start` has returned**, whatever the order in which its threads and its
owner went on, and however often `getNextLoop` has been called. -/
theorem poolReady_of_exec {baseLoop : ℕ} {ops : List (Op F)}
    (h : Runs.exec step (init baseLoop) ops = some s) (hpc : s.pc = .returned) : s.Ready :=
  (Runs.exec_invariant wellFormed_step (wellFormed_init baseLoop) h).ready hpc

/-! ### `start` returns -/

/-- How many steps of `start`, and of the threads that it will make, are left. -/
def Pc.weight (numThreads : ℕ) : Pc → ℕ
  | .testing i => (numThreads - i) * 40 + 2
  | .starting i => (numThreads - (i + 1)) * 40 + 3
  | .calling => 1
  | .idle | .returned => 0

/-- What is left to do of `start`, and of the threads until their loops run. -/
def rank (s : EventLoopThreadPool F) : ℕ :=
  s.pc.weight s.numThreads.toNat + (s.threads.map EventLoopThread.rank).sum

theorem rank_startLoop {callback : Bool} {t : EventLoopThread F}
    (ht : (EventLoopThread.init callback).step .startLoop = some t) : t.rank = 34 := by
  cases ht
  rfl

theorem rank_step (h : s.WellFormed) {op : Op F} (hop : op.isOwn = true)
    (hstep : s.step op = some s') : s'.rank < s.rank := by
  cases step_moves hstep with
  | @create i t hpc hmore ht =>
      have hthread := rank_startLoop ht
      have hweight : s.numThreads.toNat - i = s.numThreads.toNat - (i + 1) + 1 := by omega
      simp only [rank, hpc, Pc.weight, List.map_append, List.sum_append, List.map_cons,
        List.map_nil, List.sum_singleton, hthread, hweight]
      omega
  | finish hpc hdone =>
      simp only [rank, hpc]
      split_ifs <;> simp only [Pc.weight] <;> omega
  | started hpc =>
      simp only [rank, hpc, Pc.weight]
      omega
  | called hpc =>
      simp only [rank, hpc, Pc.weight]
      omega
  | @thread k op t t' hpooled hfresh ht hthread =>
      have hlt := EventLoopThread.rank_step (h.threads t (List.mem_of_getElem? ht)).1 hop hthread
      have hk : (s.threads.map EventLoopThread.rank)[k]? = some t.rank := by
        rw [List.getElem?_map, ht]
        rfl
      have hsum := Runs.list_sum_set_lt hk hlt
      simp only [rank, List.map_set]
      omega
  | setThreadNum | start | startTwice | giveBase | give => cases hop

/-- There is always room for another loop. -/
theorem exists_fresh (s : EventLoopThreadPool F) : ∃ l, s.Fresh (.construct l) := by
  obtain ⟨l, hl⟩ := Infinite.exists_notMem_finset
    (insert s.baseLoop (s.threads.filterMap fun t => t.func.loop?).toFinset)
  rw [Finset.mem_insert, List.mem_toFinset, not_or] at hl
  refine ⟨l, fun m hm => ?_⟩
  rw [EventLoopThread.Op.constructs?, Option.some_inj] at hm
  subst hm
  exact ⟨hl.1, fun t ht hloop => hl.2 (List.mem_filterMap.2 ⟨t, ht, hloop⟩)⟩

/-- Where a pool cannot go on, none of its threads can. -/
theorem thread_stuck (hstuck : ∀ op : Op F, op.isOwn = true → s.step op = none) {k : ℕ}
    {t : EventLoopThread F} (ht : s.threads[k]? = some t) (op : EventLoopThread.Op F)
    (hop : op.isOwn = true) : t.step op = none := by
  have hpooled : op.isPooled = true := by
    cases op with
    | startLoop | destroy => cases hop
    | thread | caller | rouse | construct | func | notify | loop => rfl
  have hfresh : ∀ a : EventLoopThread.Op F, a.isOwn = true → a.isPooled = true → s.Fresh a →
      t.step a = none := by
    intro a ha hpooled hfresh
    have hnone := hstuck (.thread k a) ha
    rw [step, if_pos ⟨hpooled, hfresh⟩, ht, Option.bind_some, Option.map_eq_none_iff] at hnone
    exact hnone
  cases op with
  | construct l =>
      -- the loop may be made at one place as well as at another one
      obtain ⟨l', hl'⟩ := s.exists_fresh
      have hnone := hfresh (.construct l') rfl rfl hl'
      simp only [EventLoopThread.step, ite_eq_right_iff] at hnone ⊢
      exact fun hcan => absurd (hnone hcan) (Option.some_ne_none _)
  | thread | caller | func | notify => exact hfresh _ hop hpooled (fun l hl => by cases hl)
  | startLoop | rouse | loop | destroy => cases hop

/-- `start` has not been called or has returned; or it waits for a thread that could not be
created. -/
def Settled (s : EventLoopThreadPool F) : Prop :=
  s.pc = .idle ∨ s.pc = .returned ∨ ∃ t ∈ s.threads, t.thread.created = 0

/-- **Where nothing can go on, `start` has returned**, if the threads could be created. -/
theorem settled_of_stuck (h : s.WellFormed)
    (hstuck : ∀ op : Op F, op.isOwn = true → s.step op = none) : s.Settled := by
  have hgo := hstuck .go rfl
  simp only [step] at hgo
  cases hpc : s.pc with
  | idle => exact Or.inl hpc
  | returned => exact Or.inr (Or.inl hpc)
  | calling =>
      rw [hpc] at hgo
      cases hgo
  | testing i =>
      rw [hpc, goOn] at hgo
      by_cases hmore : (i : ℤ) < s.numThreads
      · rw [if_pos hmore] at hgo
        cases hgo
      · rw [if_neg hmore] at hgo
        cases hgo
  | starting i =>
      have hprogress := h.progress
      rw [hpc] at hprogress
      have hlt : i < s.threads.length := by
        rw [hprogress.1]
        exact Nat.lt_succ_self i
      have ht := List.getElem?_eq_getElem hlt
      have hmem := List.mem_of_getElem? ht
      obtain ⟨hwell, -⟩ := h.threads _ hmem
      rcases EventLoopThread.settled_of_stuck hwell (thread_stuck hstuck ht) with
        hcreated | hjoining | ⟨l, hreturned, -⟩
      · exact Or.inr (Or.inr ⟨_, hmem, hcreated⟩)
      · exact absurd hjoining (h.held _ hmem)
      · rw [hpc, goOn, ht, Option.bind_some, hreturned] at hgo
        cases hgo

/-- **`start` returns.**  From every state of every run a bounded number of steps is left, if nobody
wakes for no reason any more and the callbacks return; and where none can be taken `start` has
returned, unless a thread could not be created. -/
theorem poolStarts_of_exec {baseLoop : ℕ} {ops : List (Op F)}
    (h : Runs.exec step (init baseLoop) ops = some s) :
    Runs.Settles (Runs.only step Op.isOwn) Settled s.rank s := by
  have hs := Runs.exec_invariant wellFormed_step (wellFormed_init baseLoop) h
  refine Runs.settles_of_rank (I := WellFormed) wellFormed_step.only ?_ ?_ hs
  · intro s op s' h hstep
    obtain ⟨hop, hstep⟩ := Runs.only_eq_some.1 hstep
    exact rank_step h hop hstep
  · intro s h hstuck
    exact settled_of_stuck h fun op => Runs.stuck_only hstuck

/-- A thread is started, from the call of `startLoop` until its loop runs. -/
def startOps (k loop : ℕ) : List (Op Unit) :=
  .go :: (EventLoopThread.demoOps.tail.map fun op =>
    match op with
    | .construct _ => .thread k (.construct loop)
    | op => .thread k op) ++ [.go]

/-- Two threads are started, and their loops are given out five times. -/
def demoOps : List (Op Unit) :=
  [.setThreadNum 2, .start true] ++ startOps 0 40 ++ startOps 1 50 ++
    [.go, .getNextLoop, .getNextLoop, .getNextLoop, .getNextLoop, .getNextLoop]

theorem poolReady_of_exec_demoOps :
    ∃ s : EventLoopThreadPool Unit, Runs.exec step (init 30) demoOps = some s ∧
      s.given = [40, 50, 40, 50, 40] ∧ s.Ready := by
  have hdemo : (Runs.exec step (init 30 : EventLoopThreadPool Unit) demoOps).map
      (fun s => (s.given, s.pc)) = some ([40, 50, 40, 50, 40], .returned) := by
    decide +kernel
  obtain ⟨s, hs, hview⟩ := Option.map_eq_some_iff.1 hdemo
  obtain ⟨hgiven, hpc⟩ := Prod.mk.inj hview
  exact ⟨s, hs, hgiven, poolReady_of_exec hs hpc⟩

/-- The theorem where `start` waits for the second thread. -/
theorem poolStarts_of_exec_demoOps :
    ∃ s : EventLoopThreadPool Unit, Runs.exec step (init 30) (demoOps.take 32) = some s ∧
      s.pc = .starting 1 ∧ Runs.Settles (Runs.only step Op.isOwn) Settled s.rank s := by
  have hdemo : (Runs.exec step (init 30 : EventLoopThreadPool Unit) (demoOps.take 32)).map
      (·.pc) = some (.starting 1) := by
    decide +kernel
  obtain ⟨s, hs, hpc⟩ := Option.map_eq_some_iff.1 hdemo
  exact ⟨s, hs, hpc, poolStarts_of_exec hs⟩

end

end EventLoopThreadPool

end G5
