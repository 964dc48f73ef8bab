/-
**What of the log is on the disk** (`src/base/AsyncLogging.cc`, `LogFile.cc`, `FileUtil.cc`).

The writing thread of the logger makes a `LogFile`, gives it the buffers of a batch one after the
other, and flushes it when the batch is written and when it returns.  What has been given to the
file since the last flush is in the buffer of the stream, and a crash loses it, like what waits in
the buffers of the logger.

Main definitions:

* `LoggerFile`, `LoggerFile.step` — the logger together with its file;
* `LoggerFile.disk`, `LoggerFile.inFlight` — what has been flushed, and what has not;
* `LoggerFile.Durable` — what a crash can lose.

Main results:

* `AppendFile.flushed_append` — appending flushes nothing;
* `LoggerFile.wellFormed_step` — **no step breaks the invariant**;
* `LoggerFile.durable_of_exec` — between two batches the disk has every line that was written,
  whole, and while a batch is written it lacks at most what has been written of this batch.
-/

import G5.Base.LogFile
import G5.Base.LoggerStream

set_option relaxedAutoImplicit false
set_option autoImplicit false

namespace G5

/-! ### Appending does not flush -/

namespace AppendFile

variable {f f' : AppendFile} {logline : List Byte} {len n : ℕ}

@[simp] theorem flushed_fail : f.fail.flushed = f.flushed := by
  rw [fail]
  split <;> rfl

theorem flushed_write {size : ℕ} {x : Fin (size + 1)}
    (h : f.write logline n size = .ok (f', x)) : f'.flushed = f.flushed := by
  unfold write at h
  split at h
  · cases h
    rfl
  · cases h

theorem flushed_appendLoop (h : f.appendLoop logline len n = .ok f') :
    f'.flushed = f.flushed := by
  -- the recursion of the loop
  fun_induction appendLoop f logline len n with
  | case1 f n hleft ih =>
      obtain ⟨⟨f₁, x⟩, hwrite, h⟩ := bind_eq_ok.1 h
      simp only at h
      split at h
      · cases h
        rw [flushed_fail, flushed_write hwrite]
      · rw [ih f₁ x ‹_› h, flushed_write hwrite]
  | case2 f n hleft =>
      cases h
      rfl

theorem flushed_append (h : f.append logline len = .ok f') : f'.flushed = f.flushed := by
  obtain ⟨⟨f₁, x⟩, hwrite, h⟩ := bind_eq_ok.1 h
  rw [flushed_appendLoop h, flushed_write hwrite]

end AppendFile

namespace LogFile

open Region

variable {l l' : LogFile} {line : List Byte}

/-- A line is appended: whole unless a call has returned zero; and then nothing or everything is
flushed. -/
theorem step_append_spec (hline : line.length < 2 ^ 31) :
    ∃ l' reqs, l.step (.append line) = .ok l' ∧
      l'.file.requests = l.file.requests ++ reqs ∧
      l.file.content <+: l'.file.content ∧
      (Unrefused reqs → l'.file.content = l.file.content ++ line) ∧
      (l'.file.flushed = l.file.flushed ∨ l'.file.flushed = l'.file.content.length) := by
  have hsize : toSizeT line.length = line.length :=
    toSizeT_natCast (Nat.lt_trans hline (by decide))
  obtain ⟨file, reqs, k, happend, hhands⟩ :=
    l.file.append_spec (le_refl line.length) (Nat.lt_trans hline (by decide))
  have hprefix : l.file.content <+: file.content := ⟨_, hhands.content_eq.symm⟩
  have hcontent : Unrefused reqs → file.content = l.file.content ++ line := by
    intro hreqs
    rcases hhands.whole with hk | ⟨q, hq, hpos, hzero⟩
    · rw [hhands.content_eq, hk, slice_length, List.drop_zero]
    · exact absurd hzero (hreqs q hq hpos)
  rw [step, append, appendUnlocked, hsize, happend, ok_bind]
  split
  · exact ⟨_, reqs, rfl, hhands.requests_eq, hprefix, hcontent, Or.inr rfl⟩
  · exact ⟨_, reqs, rfl, hhands.requests_eq, hprefix, hcontent,
      Or.inl (AppendFile.flushed_append happend)⟩

end LogFile

/-! ### The logger and its file -/

/-- The logger, and the `LogFile` of its writing thread. -/
structure LoggerFile where
  logger : AsyncLogging
  output : LogFile

namespace LoggerFile

open AsyncLogging LogFile

/-- Nothing has been given to the file since it was opened. -/
def init (flushEveryN : ℤ) (fp : Stream) : LoggerFile where
  logger := AsyncLogging.init
  output := ⟨flushEveryN, 0, ⟨fp, [], [], 0, []⟩⟩

/-- What the writing thread calls in the step from `s` to `t`: `output.append` for a buffer of the
batch, and `output.flush` behind the batch and behind the loop. -/
def calls (s t : AsyncLogging) : LogOp → List LogFile.Call
  | .write =>
      match s.pc with
      | .write i => (s.buffersToWrite[i]?).toList.map fun b => .append (s.heap b).buffer.data
      | _ => []
  | .recycle => if t.failed = none then [.flush] else []
  | .test => if t.pc = .returned then [.flush] else []
  | _ => []

/-- One step, with the calls it makes. -/
def step (s : LoggerFile) (op : LogOp) : Option LoggerFile :=
  (s.logger.step op).bind fun logger =>
    (s.output.run (calls s.logger logger op)).toOption.map fun output => ⟨logger, output⟩

/-- What is on the disk. -/
def disk (s : LoggerFile) : List Byte := s.output.file.content.take s.output.file.flushed

/-- What is in the buffer of the stream. -/
def inFlight (s : LoggerFile) : List Byte := s.output.file.content.drop s.output.file.flushed

/-- What has been written of the batch under way. -/
def batchBytes (s : AsyncLogging) : List Byte :=
  match s.pc with
  | .write i => s.bytesIn (s.buffersToWrite.take i)
  | _ => []

/-- No batch is under way. -/
def BetweenBatches (s : AsyncLogging) : Prop := ∀ i, s.pc ≠ .write i

/-- What a crash can lose, if `fwrite_unlocked` has refused nothing: the disk, the buffer of the
stream and the buffers of the logger make up the lines that the overload rule has kept; the buffer
of the stream holds no more than what has been written of the batch under way, and nothing between
two batches; and then the disk has whole lines. -/
structure Durable (s : LoggerFile) : Prop where
  accounted : Unrefused s.output.file.requests →
    s.disk ++ s.inFlight ++ s.logger.bytesIn s.logger.waiting =
      s.logger.keptLines.flatMap s.logger.line
  bounded : Unrefused s.output.file.requests → s.inFlight <:+ batchBytes s.logger
  flushed : BetweenBatches s.logger → s.inFlight = []
  whole : Unrefused s.output.file.requests → BetweenBatches s.logger →
    s.disk = s.logger.passed.flatMap s.logger.line

/-! ### The invariant -/

/-- No buffer is full. -/
def Bounded (s : AsyncLogging) : Prop := ∀ b, (s.heap b).buffer.length < kLargeBuffer

structure WellFormed (s : LoggerFile) : Prop where
  owned : s.logger.Owned
  intact : s.logger.Intact
  room : Bounded s.logger
  content : Unrefused s.output.file.requests → s.output.file.content = s.logger.output
  batch : Unrefused s.output.file.requests → s.inFlight <:+ batchBytes s.logger
  le_length : s.output.file.flushed ≤ s.output.file.content.length
  flushed : BetweenBatches s.logger → s.output.file.flushed = s.output.file.content.length

theorem length_new : (FixedBuffer.new : FixedBuffer kLargeBuffer).length < kLargeBuffer := by decide

theorem wellFormed_init (flushEveryN : ℤ) (fp : Stream) : (init flushEveryN fp).WellFormed where
  owned := owned_init
  intact := intact_init
  room _ := length_new
  content _ := rfl
  batch _ := List.suffix_refl _
  le_length := le_rfl
  flushed _ := rfl

theorem WellFormed.durable {s : LoggerFile} (h : s.WellFormed) : s.Durable where
  accounted hreqs := by
    rw [disk, inFlight, List.take_append_drop, h.content hreqs]
    exact h.intact.bytes
  bounded := h.batch
  flushed hbetween := by
    rw [inFlight, h.flushed hbetween, List.drop_length]
  whole hreqs hbetween := by
    rw [disk, h.flushed hbetween, List.take_length, h.content hreqs, h.intact.output]

/-! ### The buffers -/

theorem length_append_lt {SIZE : ℕ} {b : FixedBuffer SIZE} {buf : List Byte}
    (hsize : SIZE < 2 ^ 31) (hlen : buf.length < 2 ^ 31) (h : b.length < SIZE) :
    (b.append buf).length < SIZE := by
  unfold FixedBuffer.length at h ⊢
  have hbuf : toInt32 buf.length = buf.length := toInt32_eq (by omega) (by omega)
  have havail : b.avail = SIZE - b.data.length := toInt32_eq
    (by unfold FixedBuffer.length; omega) (by unfold FixedBuffer.length; omega)
  rw [FixedBuffer.append, hbuf, havail]
  split_ifs with hroom
  · simp only [List.length_append]
    omega
  · exact h

section

variable {s t : AsyncLogging}

theorem Bounded.update {heap : ℕ → Slot} (h : ∀ b, (heap b).buffer.length < kLargeBuffer) (c : ℕ)
    {slot : Slot} (hslot : slot.buffer.length < kLargeBuffer) (b : ℕ) :
    (Function.update heap c slot b).buffer.length < kLargeBuffer := by
  by_cases hb : b = c
  · rw [hb, Function.update_self]
    exact hslot
  · rw [Function.update_of_ne hb]
    exact h b

theorem Bounded.fill (h : Bounded s) (b : ℕ) {logline : List Byte}
    (hlen : logline.length < kLargeBuffer) : Bounded (s.fill b logline) :=
  have hbig : kLargeBuffer < 2 ^ 31 := by decide
  Bounded.update h b (length_append_lt hbig (by omega) (h b))

theorem Bounded.append (h : Bounded s) {logline : List Byte}
    (hlen : logline.length < kLargeBuffer) : Bounded (s.append logline) := by
  unfold AsyncLogging.append
  split
  · exact h
  · split
    · exact h.fill _ hlen
    · simp only
      split
      · exact Bounded.fill (s := { s with
          buffers := _, currentBuffer := _, nextBuffer := _ }) h _ hlen
      · exact Bounded.fill (s := { s with
          buffers := _, currentBuffer := _, heap := _, fresh := _ })
          (Bounded.update h _ length_new) _ hlen

theorem Bounded.take (h : Bounded s) : Bounded s.take := by
  unfold AsyncLogging.take
  split
  · exact h
  · simp only
    split <;> exact h

theorem Bounded.refill {spare : Option ℕ} {written written' : List ℕ} {heap heap' : ℕ → Slot}
    {b : ℕ} (h : ∀ c, (heap c).buffer.length < kLargeBuffer)
    (hrefill : AsyncLogging.refill spare written heap = some (b, written', heap')) (c : ℕ) :
    (heap' c).buffer.length < kLargeBuffer := by
  unfold AsyncLogging.refill at hrefill
  split at hrefill
  · cases hrefill
    exact h c
  · obtain ⟨d, -, hd⟩ := Option.map_eq_some_iff.1 hrefill
    cases hd
    exact Bounded.update h _ length_new c

theorem Bounded.recycle (h : Bounded s) : Bounded s.recycle := by
  simp only [AsyncLogging.recycle]
  split
  · exact h
  · rename_i hfirst
    split
    · exact h
    · rename_i hsecond
      exact Bounded.refill (Bounded.refill h hfirst) hsecond

/-- **No buffer is ever full.** -/
theorem Bounded.moves (h : Bounded s) (hmoves : Moves s t) : Bounded t := by
  cases hmoves with
  | append logline hlen => exact h.append hlen
  | wake hpc => exact h.take
  | recycle i hpc hend => exact h.recycle
  | write i b hpc hb => exact h
  | lock hpc =>
      unfold AsyncLogging.lock
      split
      · exact h
      · exact h.take
  | enter hpc =>
      unfold AsyncLogging.enter
      split
      · exact Bounded.update (Bounded.update h _ length_new) _ length_new
      · exact h
  | start =>
      unfold AsyncLogging.start
      split <;> exact h
  | stop =>
      unfold AsyncLogging.stop
      split <;> exact h
  | test hpc =>
      unfold AsyncLogging.test
      split
      · split <;> exact h
      · exact h
  | trim hpc =>
      simp only [AsyncLogging.trim]
      split <;> exact h

/-- A line that is appended goes to no buffer of the batch. -/
theorem heap_append (ho : s.Owned) (logline : List Byte) :
    (s.append logline).pc = s.pc ∧ (s.append logline).output = s.output ∧
      (s.append logline).buffersToWrite = s.buffersToWrite ∧
      ∀ c ∈ s.buffersToWrite, (s.append logline).heap c = s.heap c := by
  obtain ⟨b, hb⟩ := Option.ne_none_iff_exists'.1 ho.current
  simp only [AsyncLogging.append, hb]
  split
  · refine ⟨rfl, rfl, rfl, fun c hc => Function.update_of_ne ?_ _ _⟩
    rintro rfl
    exact (ho.current_not_mem hb).2.2.1 hc
  · cases hnext : s.nextBuffer with
    | some next =>
        refine ⟨rfl, rfl, rfl, fun c hc => Function.update_of_ne ?_ _ _⟩
        rintro rfl
        exact ((ho.useNext hb hnext).current_not_mem rfl).2.2.1 hc
    | none =>
        refine ⟨rfl, rfl, rfl, fun c hc => ?_⟩
        have hlt := ho.allocated c (by simp [slots, hc])
        exact (Function.update_of_ne (by omega) _ _).trans (Function.update_of_ne (by omega) _ _)

end

/-! ### The steps -/

section

variable {s : LoggerFile} {logger : AsyncLogging} {output : LogFile}

/-- A step in which the file is not touched: the batch under way is the same, or there is none. -/
theorem WellFormed.silent (h : s.WellFormed) (howned : logger.Owned) (hintact : logger.Intact)
    (hroom : Bounded logger) (houtput : logger.output = s.logger.output)
    (hbatch : BetweenBatches s.logger ∨
      logger.pc = s.logger.pc ∧ batchBytes logger = batchBytes s.logger) :
    WellFormed ⟨logger, s.output⟩ where
  owned := howned
  intact := hintact
  room := hroom
  content hreqs := (h.content hreqs).trans houtput.symm
  batch hreqs := by
    change s.inFlight <:+ batchBytes logger
    rcases hbatch with hbetween | ⟨-, hsame⟩
    · rw [h.durable.flushed hbetween]
      exact List.nil_suffix
    · rw [hsame]
      exact h.batch hreqs
  le_length := h.le_length
  flushed hbetween := by
    rcases hbatch with hbefore | ⟨hpc, -⟩
    · exact h.flushed hbefore
    · exact h.flushed fun i hi => hbetween i (hpc.trans hi)

/-- The file is flushed. -/
theorem WellFormed.flush (h : s.WellFormed) (howned : logger.Owned) (hintact : logger.Intact)
    (hroom : Bounded logger) (houtput : logger.output = s.logger.output) :
    WellFormed ⟨logger, s.output.flush⟩ where
  owned := howned
  intact := hintact
  room := hroom
  content hreqs := (h.content hreqs).trans houtput.symm
  batch _ := by
    have hnone : (⟨logger, s.output.flush⟩ : LoggerFile).inFlight = [] := List.drop_length
    rw [hnone]
    exact List.nil_suffix
  le_length := le_rfl
  flushed _ := rfl

/-- The buffer at the head of the unwritten ones is written. -/
theorem WellFormed.write (h : s.WellFormed) {i b : ℕ} (hpc : s.logger.pc = .write i)
    (hb : s.logger.buffersToWrite[i]? = some b) (howned : (s.logger.write i b).Owned)
    (hintact : (s.logger.write i b).Intact) (hroom : Bounded (s.logger.write i b))
    (hrun : s.output.step (.append (s.logger.heap b).buffer.data) = .ok output) :
    WellFormed ⟨s.logger.write i b, output⟩ := by
  have hline : (s.logger.heap b).buffer.data.length < 2 ^ 31 :=
    Nat.lt_trans (h.room b) (by decide)
  obtain ⟨output', reqs, hrun', hrequests, hprefix, hcontent, hflushed⟩ :=
    step_append_spec (l := s.output) hline
  obtain rfl : output' = output := Except.ok.inj (hrun'.symm.trans hrun)
  have hunrefused : Unrefused output'.file.requests →
      Unrefused s.output.file.requests ∧ Unrefused reqs := by
    intro hreqs
    rw [hrequests] at hreqs
    exact ⟨fun q hq => hreqs q (List.mem_append_left _ hq),
      fun q hq => hreqs q (List.mem_append_right _ hq)⟩
  have hlonger := hprefix.length_le
  have hle := h.le_length
  refine ⟨howned, hintact, hroom, ?_, ?_, ?_, fun hbetween => absurd rfl (hbetween (i + 1))⟩
  · intro hreqs
    obtain ⟨hold, hnew⟩ := hunrefused hreqs
    change output'.file.content = s.logger.output ++ _
    rw [hcontent hnew, h.content hold]
  · intro hreqs
    obtain ⟨hold, hnew⟩ := hunrefused hreqs
    have hbatch : batchBytes (s.logger.write i b) =
        batchBytes s.logger ++ (s.logger.heap b).buffer.data := by
      simp only [batchBytes, hpc, AsyncLogging.write, bytesIn]
      rw [List.take_add_one, hb, Option.toList_some, List.flatMap_append, List.flatMap_singleton]
    change output'.file.content.drop output'.file.flushed <:+ _
    rw [hbatch]
    rcases hflushed with hsame | hall
    · rw [hsame, hcontent hnew, List.drop_append_of_le_length hle]
      obtain ⟨earlier, hearlier⟩ := h.batch hold
      exact ⟨earlier, by rw [← hearlier, List.append_assoc]; rfl⟩
    · rw [hall, List.drop_length]
      exact List.nil_suffix
  · rcases hflushed with hsame | hall
    · change output'.file.flushed ≤ output'.file.content.length
      omega
    · exact hall.le

/-- The functions that do not write leave what was written. -/
theorem output_take (s : AsyncLogging) : s.take.output = s.output := by
  unfold AsyncLogging.take
  split
  · rfl
  · simp only
    split <;> rfl

theorem frame_start (s : AsyncLogging) :
    s.start.output = s.output ∧ s.start.pc = s.pc ∧ batchBytes s.start = batchBytes s := by
  unfold AsyncLogging.start
  split <;> exact ⟨rfl, rfl, rfl⟩

theorem frame_stop (s : AsyncLogging) :
    s.stop.output = s.output ∧ s.stop.pc = s.pc ∧ batchBytes s.stop = batchBytes s := by
  unfold AsyncLogging.stop
  split <;> exact ⟨rfl, rfl, rfl⟩

theorem betweenBatches_of_eq {s : AsyncLogging} {pc : LoggerPc} (hpc : s.pc = pc)
    (hwrite : ∀ i, pc ≠ .write i) : BetweenBatches s :=
  fun i hi => hwrite i (hpc.symm.trans hi)

/-- **No step breaks the invariant.** -/
theorem wellFormed_step : Runs.Invariant step WellFormed := by
  intro s op t h hstep
  obtain ⟨logger, hlogger, hrest⟩ := Option.bind_eq_some_iff.1 hstep
  obtain ⟨output, hrun, rfl⟩ := Option.map_eq_some_iff.1 hrest
  have howned := owned_step _ _ _ h.owned hlogger
  have hintact := intact_step h.intact h.owned hlogger
  have hroom := h.room.moves (step_moves hlogger).2
  have hquiet : calls s.logger logger op = [] → logger.output = s.logger.output →
      BetweenBatches s.logger ∨
        logger.pc = s.logger.pc ∧ batchBytes logger = batchBytes s.logger →
      WellFormed ⟨logger, output⟩ := by
    intro hnone houtput hbatch
    rw [hnone] at hrun
    obtain rfl : s.output = output := Option.some.inj hrun
    exact h.silent howned hintact hroom houtput hbatch
  have hflush : calls s.logger logger op = [.flush] → logger.output = s.logger.output →
      WellFormed ⟨logger, output⟩ := by
    intro hcalls houtput
    rw [hcalls] at hrun
    obtain rfl : s.output.flush = output := Option.some.inj hrun
    exact h.flush howned hintact hroom houtput
  simp only [AsyncLogging.step, Option.ite_none_left_eq_some] at hlogger
  obtain ⟨hfailed, hlogger⟩ := hlogger
  cases op with
  | start =>
      obtain rfl := Option.some.inj hlogger
      exact hquiet rfl (frame_start s.logger).1 (Or.inr (frame_start s.logger).2)
  | stop =>
      obtain rfl := Option.some.inj hlogger
      exact hquiet rfl (frame_stop s.logger).1 (Or.inr (frame_stop s.logger).2)
  | append logline =>
      obtain ⟨-, rfl⟩ := (Option.ite_none_right_eq_some.1 hlogger).imp_right Option.some.inj
      obtain ⟨hpc, houtput, hbuffers, hheap⟩ := heap_append h.owned logline
      refine hquiet rfl houtput (Or.inr ⟨hpc, ?_⟩)
      unfold batchBytes
      rw [hpc, hbuffers]
      split
      · exact List.flatMap_congr fun c hc => by rw [hheap c (List.mem_of_mem_take hc)]
      · rfl
  | enter =>
      obtain ⟨hpc, rfl⟩ := (Option.ite_none_right_eq_some.1 hlogger).imp_right Option.some.inj
      refine hquiet rfl ?_ (Or.inl (betweenBatches_of_eq hpc.1 (by simp)))
      unfold AsyncLogging.enter
      split <;> rfl
  | lock =>
      obtain ⟨hpc, rfl⟩ := (Option.ite_none_right_eq_some.1 hlogger).imp_right Option.some.inj
      refine hquiet rfl ?_ (Or.inl (betweenBatches_of_eq hpc (by simp)))
      unfold AsyncLogging.lock
      split
      · rfl
      · exact output_take s.logger
  | wake =>
      obtain ⟨hpc, rfl⟩ := (Option.ite_none_right_eq_some.1 hlogger).imp_right Option.some.inj
      exact hquiet rfl (output_take s.logger) (Or.inl (betweenBatches_of_eq hpc (by simp)))
  | trim =>
      obtain ⟨hpc, rfl⟩ := (Option.ite_none_right_eq_some.1 hlogger).imp_right Option.some.inj
      refine hquiet rfl ?_ (Or.inl (betweenBatches_of_eq hpc (by simp)))
      simp only [AsyncLogging.trim]
      split <;> rfl
  | test =>
      obtain ⟨hpc, rfl⟩ := (Option.ite_none_right_eq_some.1 hlogger).imp_right Option.some.inj
      have houtput : s.logger.test.output = s.logger.output := by
        unfold AsyncLogging.test
        split
        · split <;> rfl
        · rfl
      by_cases hend : s.logger.test.pc = .returned
      · exact hflush (if_pos hend) houtput
      · exact hquiet (if_neg hend) houtput (Or.inl (betweenBatches_of_eq hpc (by simp)))
  | write =>
      simp only at hlogger
      split at hlogger
      · rename_i i hpc
        obtain ⟨b, hb, rfl⟩ := Option.map_eq_some_iff.1 hlogger
        simp only [calls, hpc, hb, Option.toList_some, List.map_singleton] at hrun
        cases happend : s.output.step (.append (s.logger.heap b).buffer.data) with
        | error e =>
            rw [LogFile.run, happend] at hrun
            cases hrun
        | ok output' =>
            rw [LogFile.run, happend] at hrun
            obtain rfl : output' = output := Option.some.inj hrun
            exact h.write hpc hb howned hintact hroom happend
      · cases hlogger
  | recycle =>
      simp only at hlogger
      split at hlogger
      · rename_i i hpc
        obtain ⟨-, rfl⟩ := (Option.ite_none_right_eq_some.1 hlogger).imp_right Option.some.inj
        obtain ⟨heap, spare1, spare2, heq, -⟩ := h.owned.recycle_eq hpc
        refine hflush (if_pos ?_) (by rw [heq])
        rw [heq]
        exact not_not.1 hfailed
      · cases hlogger

/-! ### Runs -/

/-- What is given to the file is shorter than a buffer. -/
theorem length_line_calls {s t : AsyncLogging} (h : Bounded s) (op : LogOp) :
    ∀ c ∈ calls s t op, c.line.length < 2 ^ 31 := by
  intro c hc
  cases op with
  | write =>
      simp only [calls] at hc
      split at hc
      · obtain ⟨b, -, rfl⟩ := List.mem_map.1 hc
        exact Nat.lt_trans (h b) (by decide)
      · cases hc
  | recycle | test =>
      simp only [calls] at hc
      split at hc
      · obtain rfl := List.mem_singleton.1 hc
        exact Nat.two_pow_pos 31
      · cases hc
  | start | append | stop | enter | lock | wake | trim => cases hc

/-- The file keeps the logger from nothing. -/
theorem WellFormed.exists_step (h : s.WellFormed) {op : LogOp}
    (hlogger : s.logger.step op = some logger) : ∃ t, s.step op = some t ∧ t.logger = logger := by
  obtain ⟨output, -, hrun, -⟩ :=
    run_spec (l := s.output) (length_line_calls (t := logger) h.room op)
  exact ⟨⟨logger, output⟩, by rw [step, hlogger, Option.bind_some, hrun]; rfl, rfl⟩

/-- **What a crash can lose**, in every state of every run of the logger, whatever the calls of
`fwrite_unlocked` return. -/
theorem durable_of_exec (flushEveryN : ℤ) (fp : Stream) {ops : List LogOp}
    (h : Runs.exec AsyncLogging.step AsyncLogging.init ops = some logger) :
    ∃ s, Runs.exec step (init flushEveryN fp) ops = some s ∧ s.logger = logger ∧ s.Durable := by
  have hall : ∀ s : LoggerFile, s.WellFormed →
      Runs.exec AsyncLogging.step s.logger ops = some logger →
      ∃ t, Runs.exec step s ops = some t ∧ t.logger = logger ∧ t.WellFormed := by
    clear h
    -- induction on the run
    induction ops with
    | nil =>
        intro s hs hrun
        exact ⟨s, rfl, Option.some.inj hrun, hs⟩
    | cons op ops ih =>
        intro s hs hrun
        obtain ⟨next, hnext, hrest⟩ := Runs.exec_cons_eq_some.1 hrun
        obtain ⟨t, hstep, rfl⟩ := hs.exists_step hnext
        obtain ⟨u, hu, hlast⟩ := ih t (wellFormed_step _ _ _ hs hstep) hrest
        exact ⟨u, Runs.exec_cons_eq_some.2 ⟨t, hstep, hu⟩, hlast⟩
  obtain ⟨s, hs, hlogger, hwf⟩ := hall _ (wellFormed_init flushEveryN fp) h
  exact ⟨s, hs, hlogger, hwf.durable⟩

/-- A buffer has been written, in two calls, and not flushed; behind the batch it is on the disk. -/
theorem durable_of_exec_demo :
    ∃ logger s, Runs.exec AsyncLogging.step AsyncLogging.init
        [.start, .enter, .append [97, 98], .test, .lock, .wake, .trim, .write] = some logger ∧
      Runs.exec step (init 1024 halving)
        [.start, .enter, .append [97, 98], .test, .lock, .wake, .trim, .write] = some s ∧
      s.logger = logger ∧ s.Durable ∧ s.disk = [] ∧ s.inFlight = [97, 98] := by
  have hlogger : (Runs.exec AsyncLogging.step AsyncLogging.init
      [.start, .enter, .append [97, 98], .test, .lock, .wake, .trim, .write]).isSome = true := by
    decide +kernel
  have hview : (Runs.exec step (init 1024 halving)
      [.start, .enter, .append [97, 98], .test, .lock, .wake, .trim, .write]).map
        (fun s => (s.disk, s.inFlight)) = some ([], [97, 98]) := by
    decide +kernel
  obtain ⟨logger, hrun⟩ := Option.isSome_iff_exists.1 hlogger
  obtain ⟨s, hs, hsame, hdurable⟩ := durable_of_exec 1024 halving hrun
  rw [hs, Option.map_some, Option.some_inj, Prod.mk.injEq] at hview
  exact ⟨logger, s, hrun, hs, hsame, hdurable, hview⟩

end

end LoggerFile

end G5
