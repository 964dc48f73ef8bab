/-
**What is in the file when the logger has stopped.**

`stop` clears `running_` and waits for the writing thread, which leaves its loop at the next test.
Whether the lines that have been appended by then reach the file depends on where the thread is.

Main definitions:

* `AsyncLogging.pendingLines` — the lines that the writing thread has not taken away.

Main results:

* `AsyncLogging.stop_drains_iff` — they are all written exactly if the thread is between the test of
  its loop and the taking of the buffers, or nothing is pending.
-/

import G5.Base.LoggerStream

set_option relaxedAutoImplicit false
set_option autoImplicit false

namespace G5

namespace AsyncLogging

/-- The lines in `buffers_` and `currentBuffer_`. -/
def pendingLines (s : AsyncLogging) : List ℕ := s.linesIn (s.buffers ++ s.currentBuffer.toList)

/-- No test of `running_` will succeed any more. -/
def Stopped (s : AsyncLogging) : Prop :=
  s.failed ≠ none ∨ s.running = false ∧ s.started = true

/-- The thread has passed the test of its loop, and has not taken the buffers away. -/
def AboutToTake (s : AsyncLogging) : Prop := s.pc = .lock ∨ s.pc = .waiting

instance (s : AsyncLogging) : Decidable s.AboutToTake := inferInstanceAs (Decidable (_ ∨ _))

/-! ### What a step does to the pending lines -/

theorem linesIn_waiting (s : AsyncLogging) :
    s.linesIn s.waiting = s.linesIn s.unwritten ++ s.pendingLines := by
  rw [waiting, List.append_assoc, linesIn, List.flatMap_append]
  rfl

theorem mem_waiting_of_pending {s : AsyncLogging} {b : ℕ}
    (hb : b ∈ s.buffers ++ s.currentBuffer.toList) : b ∈ s.waiting := by
  rw [waiting, List.append_assoc]
  exact List.mem_append_right _ hb

/-- The same buffers with the same content. -/
theorem pendingLines_congr {s t : AsyncLogging}
    (hplaces : t.buffers ++ t.currentBuffer.toList = s.buffers ++ s.currentBuffer.toList)
    (hheap : ∀ b ∈ s.buffers ++ s.currentBuffer.toList, t.heap b = s.heap b) :
    t.pendingLines = s.pendingLines := by
  rw [pendingLines, hplaces, linesIn, pendingLines, linesIn]
  exact List.flatMap_congr fun b hb => by rw [hheap b hb]

theorem pendingLines_append {s : AsyncLogging} (ho : s.Owned) {logline : List Byte}
    (hlen : logline.length < kLargeBuffer) :
    (s.append logline).pendingLines = s.pendingLines ++ [s.appended.length] ∧
      (s.append logline).pc = s.pc := by
  obtain ⟨s', b, extra, heq, ho', hb, -, hrec, hcontrol, -, hplaces, hheap, hextra⟩ :=
    ho.append_eq hlen
  have hbuffers := (ho'.current_not_mem hb).2.1
  have happended : s'.appended = s.appended := congrArg (fun r => r.2.1) hrec
  have hpending : s'.linesIn (s'.buffers ++ [b]) = s.pendingLines := by
    rw [hb, Option.toList_some] at hplaces
    have hold : (s.buffers ++ s.currentBuffer.toList).flatMap (fun c => (s'.heap c).lines) =
        s.pendingLines :=
      List.flatMap_congr fun c hc => by rw [hheap c (mem_waiting_of_pending hc)]
    have hnew : extra.flatMap (fun c => (s'.heap c).lines) = [] :=
      List.flatMap_eq_nil_iff.2 fun c hc => by rw [hextra c hc]
    rw [hplaces, linesIn, List.flatMap_append, hold, hnew, List.append_nil]
  have hfill := s'.linesIn_fill hbuffers logline
  rw [hpending, happended] at hfill
  rw [heq]
  refine ⟨?_, congrArg (fun c => c.2.2) hcontrol⟩
  change (s'.fill b logline).linesIn (s'.buffers ++ s'.currentBuffer.toList) = _
  rw [hb]
  exact hfill

theorem start_eq_or (s : AsyncLogging) :
    s.start.pendingLines = s.pendingLines ∧ s.start.pc = s.pc := by
  unfold start
  split <;> exact ⟨rfl, rfl⟩

theorem stop_eq_or (s : AsyncLogging) :
    s.stop.pendingLines = s.pendingLines ∧ s.stop.pc = s.pc ∧ s.stop.Stopped ∧
      s.stop.appended = s.appended := by
  unfold stop
  split
  · rename_i hstarted
    exact ⟨rfl, rfl, Or.inr ⟨rfl, hstarted.1⟩, rfl⟩
  · exact ⟨rfl, rfl, Or.inl (by simp [fail]), rfl⟩

/-- When the thread takes the buffers away, nothing is left pending. -/
theorem pendingLines_take {s : AsyncLogging} (ho : s.Owned) (hpc : s.AboutToTake) :
    s.take.pendingLines = [] := by
  obtain ⟨hnew1, -, hwrite⟩ := ho.spares_of_take hpc
  obtain ⟨b, hb⟩ := Option.ne_none_iff_exists'.1 ho.current
  obtain ⟨n, hn⟩ := Option.ne_none_iff_exists'.1 hnew1
  have hempty := ho.spare n (Or.inr (Or.inl hn))
  simp only [take, hb]
  split <;> simp [pendingLines, linesIn, hwrite, hn, hempty]

/-- A step of a thread that is not about to take the buffers leaves the pending lines pending, and
adds only new ones; and if the logger has been stopped, the thread will not take the buffers. -/
theorem step_of_not_aboutToTake {s t : AsyncLogging} {op : LogOp} (ho : s.Owned)
    (hpc : ¬s.AboutToTake) (hst : s.step op = some t) :
    (∃ new, t.pendingLines = s.pendingLines ++ new ∧ ∀ k ∈ new, s.appended.length ≤ k) ∧
      (s.Stopped → ¬t.AboutToTake) := by
  have hsame : ∀ u : AsyncLogging, u.pendingLines = s.pendingLines →
      ∃ new, u.pendingLines = s.pendingLines ++ new ∧ ∀ k ∈ new, s.appended.length ≤ k :=
    fun u hu => ⟨[], by rw [hu, List.append_nil], by simp⟩
  have hstay : ∀ u : AsyncLogging, u.pc = s.pc → s.Stopped → ¬u.AboutToTake :=
    fun u hu _ => by rwa [AboutToTake, hu]
  obtain ⟨hfailed, hmoves⟩ := step_moves hst
  have hnot : s.running = true → ¬s.Stopped := by
    rintro hrunning (hstopped | hstopped)
    · exact hstopped hfailed
    · rw [hstopped.1] at hrunning
      cases hrunning
  cases hmoves with
  | start => exact ⟨hsame _ s.start_eq_or.1, hstay _ s.start_eq_or.2⟩
  | append logline hlen =>
      obtain ⟨hpending, hpc'⟩ := pendingLines_append ho hlen
      exact ⟨⟨_, hpending, by simp⟩, hstay _ hpc'⟩
  | stop => exact ⟨hsame _ s.stop_eq_or.1, hstay _ s.stop_eq_or.2.1⟩
  | enter hcreated =>
      unfold enter
      split
      · rename_i hrunning
        refine ⟨hsame _ (pendingLines_congr rfl fun b hb => ?_),
          fun hstopped => absurd hstopped (hnot hrunning)⟩
        have := ho.allocated b (waiting_subset_slots s (mem_waiting_of_pending hb))
        refine (Function.update_of_ne ?_ _ _).trans (Function.update_of_ne ?_ _ _) <;> omega
      · exact ⟨hsame _ rfl, hstay _ rfl⟩
  | test htest =>
      unfold test
      split
      · rename_i hrunning
        split <;> exact ⟨hsame _ rfl, fun hstopped => absurd hstopped (hnot hrunning)⟩
      · exact ⟨hsame _ rfl, fun _ => by simp [AboutToTake]⟩
  | lock hlock => exact absurd (Or.inl hlock) hpc
  | wake hwaiting => exact absurd (Or.inr hwaiting) hpc
  | trim htaken =>
      simp only [trim]
      split
      · exact ⟨hsame _ rfl, hstay _ rfl⟩
      · exact ⟨hsame _ rfl, fun _ => by simp [AboutToTake]⟩
  | write i b hwrite hb => exact ⟨hsame _ rfl, fun _ => by simp [AboutToTake, write]⟩
  | recycle i hwrite hend =>
      obtain ⟨heap, spare1, spare2, heq, hheap, -⟩ := ho.recycle_eq hwrite
      rw [heq]
      refine ⟨hsame _ (pendingLines_congr rfl fun b hb => hheap b fun hmem => ?_),
        fun _ => by simp [AboutToTake]⟩
      obtain ⟨hcurrent, -, hbuffers, -⟩ := ho.taken_not_mem hmem
      rw [List.mem_append, Option.mem_toList] at hb
      exact hb.elim hbuffers hcurrent

/-- A thread that is about to take the buffers stays so until it has taken them. -/
theorem taken_of_aboutToTake {s t : AsyncLogging} {op : LogOp} {n : ℕ} (ho : s.Owned)
    (hpc : s.AboutToTake) (hst : s.step op = some t) :
    t.AboutToTake ∨ ∀ k ∈ t.pendingLines, n ≤ k := by
  have hstay : ∀ u : AsyncLogging, u.pc = s.pc → u.AboutToTake ∨ ∀ k ∈ u.pendingLines, n ≤ k :=
    fun u hu => Or.inl (by rwa [AboutToTake, hu])
  have htake : s.take.AboutToTake ∨ ∀ k ∈ s.take.pendingLines, n ≤ k :=
    Or.inr (by simp [pendingLines_take ho hpc])
  have helsewhere : ∀ pc : LoggerPc, pc ≠ .lock → pc ≠ .waiting → s.pc ≠ pc := by
    intro pc hlock hwaiting heq
    rw [AboutToTake, heq] at hpc
    exact hpc.elim hlock hwaiting
  cases (step_moves hst).2 with
  | start => exact hstay _ s.start_eq_or.2
  | append logline hlen => exact hstay _ (pendingLines_append ho hlen).2
  | stop => exact hstay _ s.stop_eq_or.2.1
  | lock hlock =>
      unfold lock
      split
      · exact Or.inl (Or.inr rfl)
      · exact htake
  | wake hwaiting => exact htake
  | enter hcreated => exact absurd hcreated (helsewhere _ nofun nofun)
  | test htest => exact absurd htest (helsewhere _ nofun nofun)
  | trim htaken => exact absurd htaken (helsewhere _ nofun nofun)
  | write i b hwrite hb => exact absurd hwrite (helsewhere _ nofun nofun)
  | recycle i hwrite hend => exact absurd hwrite (helsewhere _ nofun nofun)

theorem frame_take (s : AsyncLogging) :
    (s.Stopped → s.take.Stopped) ∧ s.appended.length ≤ s.take.appended.length := by
  simp only [take]
  split
  · exact ⟨fun _ => Or.inl (by simp [fail]), Nat.le_refl _⟩
  · split <;> exact ⟨fun hs => hs, Nat.le_refl _⟩

/-- Only `start` and `stop` touch the flags, and only `append` appends. -/
theorem frame_step {s t : AsyncLogging} {op : LogOp} (ho : s.Owned) (hst : s.step op = some t) :
    (s.Stopped → t.Stopped) ∧ s.appended.length ≤ t.appended.length := by
  have hflags : ∀ u : AsyncLogging, u.running = s.running → u.started = s.started →
      u.failed = s.failed → s.Stopped → u.Stopped := by
    intro u hrunning hstarted hfailed hs
    rwa [Stopped, hfailed, hrunning, hstarted]
  have hfail : ∀ (u : AsyncLogging) (fault : LogFault), (u.fail fault).Stopped :=
    fun u fault => Or.inl (by simp [fail])
  obtain ⟨hfailed, hmoves⟩ := step_moves hst
  have hstopped : s.Stopped → s.running = false ∧ s.started = true :=
    fun hs => hs.resolve_left (not_not.2 hfailed)
  cases hmoves with
  | start =>
      unfold start
      split
      · exact ⟨fun _ => hfail _ _, Nat.le_refl _⟩
      · rename_i hnot
        exact ⟨fun hs => absurd (hstopped hs).2 hnot, Nat.le_refl _⟩
  | append logline hlen =>
      obtain ⟨s', b, extra, heq, -, -, -, hrec, hcontrol, -⟩ := ho.append_eq hlen
      simp only [Prod.mk.injEq] at hcontrol
      have happended : s'.appended = s.appended := congrArg (fun r => r.2.1) hrec
      rw [heq]
      refine ⟨fun hs => ?_, ?_⟩
      · exact Or.inr ⟨hcontrol.1.trans (hstopped hs).1, hcontrol.2.1.trans (hstopped hs).2⟩
      · simp [fill, happended]
  | stop => exact ⟨fun _ => s.stop_eq_or.2.2.1, by rw [s.stop_eq_or.2.2.2]⟩
  | enter hcreated =>
      unfold enter
      split
      · exact ⟨hflags _ rfl rfl rfl, Nat.le_refl _⟩
      · exact ⟨fun _ => hfail _ _, Nat.le_refl _⟩
  | test htest =>
      unfold test
      split
      · split
        · exact ⟨hflags _ rfl rfl rfl, Nat.le_refl _⟩
        · exact ⟨fun _ => hfail _ _, Nat.le_refl _⟩
      · exact ⟨hflags _ rfl rfl rfl, Nat.le_refl _⟩
  | lock hlock =>
      unfold lock
      split
      · exact ⟨hflags _ rfl rfl rfl, Nat.le_refl _⟩
      · exact frame_take s
  | wake hwaiting => exact frame_take s
  | trim htaken =>
      simp only [trim]
      split
      · exact ⟨fun _ => hfail _ _, Nat.le_refl _⟩
      · exact ⟨hflags _ rfl rfl rfl, Nat.le_refl _⟩
  | write i b hwrite hb => exact ⟨hflags _ rfl rfl rfl, Nat.le_refl _⟩
  | recycle i hwrite hend =>
      obtain ⟨heap, spare1, spare2, heq, -⟩ := ho.recycle_eq hwrite
      rw [heq]
      exact ⟨hflags _ rfl rfl rfl, Nat.le_refl _⟩

/-! ### Runs after `stop` -/

/-- The first `n` lines are not pending, or the thread is about to take them. -/
structure Drains (n : ℕ) (s : AsyncLogging) : Prop where
  stopped : s.Stopped
  le : n ≤ s.appended.length
  taken : s.AboutToTake ∨ ∀ k ∈ s.pendingLines, n ≤ k

theorem Drains.step {n : ℕ} {s t : AsyncLogging} {op : LogOp} (h : s.Drains n) (ho : s.Owned)
    (hst : s.step op = some t) : t.Drains n := by
  obtain ⟨hstopped, hle⟩ := frame_step ho hst
  refine ⟨hstopped h.stopped, Nat.le_trans h.le hle, ?_⟩
  by_cases hpc : s.AboutToTake
  · exact taken_of_aboutToTake ho hpc hst
  · obtain ⟨⟨new, hnew, hnew_le⟩, -⟩ := step_of_not_aboutToTake ho hpc hst
    refine Or.inr ?_
    intro k hk
    rw [hnew, List.mem_append] at hk
    rcases hk with hk | hk
    · exact h.taken.resolve_left hpc k hk
    · exact Nat.le_trans h.le (hnew_le k hk)

/-- The line `k` is pending, and the thread will not take it. -/
structure Strands (k : ℕ) (s : AsyncLogging) : Prop where
  stopped : s.Stopped
  pc : ¬s.AboutToTake
  pending : k ∈ s.pendingLines

theorem Strands.step {k : ℕ} {s t : AsyncLogging} {op : LogOp} (h : s.Strands k) (ho : s.Owned)
    (hst : s.step op = some t) : t.Strands k := by
  obtain ⟨⟨new, hnew, -⟩, hpc⟩ := step_of_not_aboutToTake ho h.pc hst
  refine ⟨(frame_step ho hst).1 h.stopped, hpc h.stopped, ?_⟩
  rw [hnew]
  exact List.mem_append_left _ h.pending

/-- A stranded line is neither written nor dropped. -/
theorem Intact.not_mem_of_pending {s : AsyncLogging} (h : s.Intact) {k : ℕ}
    (hk : k ∈ s.pendingLines) : k ∉ s.passed ∧ k ∉ s.dropped := by
  have hnumbers := h.numbers
  rw [linesIn_waiting, ← List.append_assoc] at hnumbers
  have hnodup : (s.passed ++ s.linesIn s.unwritten ++ s.pendingLines).Nodup := by
    rw [hnumbers]
    exact List.nodup_range.filter _
  constructor
  · exact fun hp => (List.nodup_append.1 hnodup).2.2 k (List.mem_append_left _ hp) k hk rfl
  · have hmem : k ∈ s.keptLines := by
      rw [← hnumbers]
      exact List.mem_append_right _ hk
    simpa using (List.mem_filter.1 hmem).2

/-- When the thread has returned, a line that is not dropped has been written, unless it is
pending. -/
theorem Intact.passed_of_returned {s : AsyncLogging} (h : s.Intact) (ho : s.Owned)
    (hpc : s.pc = .returned) {k : ℕ} (hk : k < s.appended.length) (hdropped : k ∉ s.dropped) :
    k ∈ s.passed ∨ k ∈ s.pendingLines := by
  have hthread := ho.thread
  rw [ThreadOk, hpc] at hthread
  have hunwritten : s.unwritten = [] := by simp only [unwritten, hpc, hthread]
  have hmem : k ∈ s.keptLines := List.mem_filter.2 ⟨List.mem_range.2 hk, by simpa using hdropped⟩
  rwa [← h.numbers, linesIn_waiting, hunwritten, linesIn, List.flatMap_nil, List.nil_append,
    List.mem_append] at hmem

/-- **What `stop` leaves unwritten.**  Let `stop` be called in the state `s` of some run, and let
the writing thread have returned in a later state `t`.  Then every line that had been appended
before `stop`, and was not dropped by the overload rule, has been given to the file if and only if,
when `stop` was called, the thread was between the test of its loop and the taking of the buffers,
or no line was in `buffers_` or `currentBuffer_`. -/
theorem stop_drains_iff {before after : List LogOp} {s s' t : AsyncLogging}
    (hbefore : Runs.exec step init before = some s) (hstop : s.step .stop = some s')
    (hafter : Runs.exec step s' after = some t) (hreturned : t.pc = .returned) :
    (∀ k, k < s.appended.length → k ∉ t.dropped → k ∈ t.passed) ↔
      s.AboutToTake ∨ s.pendingLines = [] := by
  obtain ⟨ho, h⟩ := owned_intact_of_exec owned_init intact_init hbefore
  have ho' := owned_step _ _ _ ho hstop
  have h' := intact_step h ho hstop
  obtain ⟨hot, ht⟩ := owned_intact_of_exec ho' h' hafter
  have hs' : s' = s.stop := by
    simp only [step] at hstop
    split at hstop
    · cases hstop
    · exact (Option.some_inj.1 hstop).symm
  obtain ⟨hpending, hpc, hstopped, happended⟩ := s.stop_eq_or
  rw [← hs'] at hpending hpc hstopped happended
  have htake : s'.AboutToTake ↔ s.AboutToTake := by rw [AboutToTake, AboutToTake, hpc]
  constructor
  · intro hall
    by_contra hnot
    rw [not_or] at hnot
    obtain ⟨k, hk⟩ := List.exists_mem_of_ne_nil _ hnot.2
    have hlt : k < s.appended.length :=
      h.lt_of_mem (Or.inr (by rw [linesIn_waiting]; exact List.mem_append_right _ hk))
    have hstrand : t.Strands k ∧ t.Owned :=
      Runs.exec_invariant (I := fun u => u.Strands k ∧ u.Owned)
        (fun _ _ _ hu hst => ⟨hu.1.step hu.2 hst, owned_step _ _ _ hu.2 hst⟩)
        ⟨⟨hstopped, mt htake.1 hnot.1, hpending ▸ hk⟩, ho'⟩ hafter
    obtain ⟨hpassed, hdropped⟩ := ht.not_mem_of_pending hstrand.1.pending
    exact hpassed (hall k hlt hdropped)
  · intro hcond k hk hdropped
    have hdrain : t.Drains s.appended.length ∧ t.Owned := by
      refine Runs.exec_invariant (I := fun u => u.Drains s.appended.length ∧ u.Owned)
        (fun _ _ _ hu hst => ⟨hu.1.step hu.2 hst, owned_step _ _ _ hu.2 hst⟩)
        ⟨⟨hstopped, by rw [happended], ?_⟩, ho'⟩ hafter
      rcases hcond with hcond | hcond
      · exact Or.inl (htake.2 hcond)
      · exact Or.inr (by simp [hpending, hcond])
    have hlt : k < t.appended.length := Nat.lt_of_lt_of_le hk hdrain.1.le
    rcases ht.passed_of_returned hot hreturned hlt hdropped with hpassed | hp
    · exact hpassed
    · have hnot : ¬t.AboutToTake := by simp [AboutToTake, hreturned]
      have := hdrain.1.taken.resolve_left hnot k hp
      omega

/-- The theorem on a run in which `stop` finds the thread waiting. -/
theorem stop_drains_demo :
    ∃ s s' t, Runs.exec step init [.start, .enter, .test, .lock, .append [97]] = some s ∧
      s.step .stop = some s' ∧ Runs.exec step s' [.wake, .trim, .write, .recycle, .test] = some t ∧
      ((∀ k, k < s.appended.length → k ∉ t.dropped → k ∈ t.passed) ↔
        s.AboutToTake ∨ s.pendingLines = []) := by
  have h : (Runs.exec step init ([.start, .enter, .test, .lock, .append [97]] ++
      .stop :: [.wake, .trim, .write, .recycle, .test])).map pc = some .returned := by
    decide +kernel
  obtain ⟨t, ht, hreturned⟩ := Option.map_eq_some_iff.1 h
  obtain ⟨s, hs, hrest⟩ := Runs.exec_append_eq_some.1 ht
  obtain ⟨s', hs', hafter⟩ := Runs.exec_cons_eq_some.1 hrest
  exact ⟨s, s', t, hs, hs', hafter, stop_drains_iff hs hs' hafter hreturned⟩

/-- A line that is appended while the thread writes, just before `stop`, never reaches the file. -/
theorem exists_line_lost :
    ∃ t, Runs.exec step init
        [.start, .enter, .test, .lock, .wake, .trim, .write, .append [97], .stop, .recycle,
          .test] = some t ∧
      t.pc = .returned ∧ t.appended = [[97]] ∧ t.dropped = [] ∧ t.passed = [] ∧ t.output = [] := by
  have h : (Runs.exec step init
      [.start, .enter, .test, .lock, .wake, .trim, .write, .append [97], .stop, .recycle,
        .test]).map (fun t => (t.pc, t.appended, t.dropped, t.passed, t.output)) =
      some (.returned, [[97]], [], [], []) := by
    decide +kernel
  obtain ⟨t, ht, hview⟩ := Option.map_eq_some_iff.1 h
  simp only [Prod.mk.injEq] at hview
  exact ⟨t, ht, hview⟩

end AsyncLogging

end G5
