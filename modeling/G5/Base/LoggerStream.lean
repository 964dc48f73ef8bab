/-
**The logger loses, repeats and reorders nothing except by its overload rule.**

Main definitions:

* `AsyncLogging.waiting` — the buffers whose content has not been written yet, the oldest first;
* `AsyncLogging.Intact` — what has been written, followed by what waits, is what was appended in the
  order of the lock, minus the lines of the buffers that the overload rule erased; and every line is
  whole in one buffer.

Main results:

* `AsyncLogging.intact_of_exec` — every state of every run is intact.
-/

import G5.Base.LoggerBuffers

set_option relaxedAutoImplicit false
set_option autoImplicit false

namespace G5

namespace AsyncLogging

/-! ### What waits -/

/-- The buffers of the batch that have not been written. -/
def unwritten (s : AsyncLogging) : List ℕ :=
  match s.pc with
  | .write i => s.buffersToWrite.drop i
  | _ => s.buffersToWrite

/-- The buffers whose content has not been written. -/
def waiting (s : AsyncLogging) : List ℕ := s.unwritten ++ s.buffers ++ s.currentBuffer.toList

/-- The lines in some buffers. -/
def linesIn (s : AsyncLogging) (bs : List ℕ) : List ℕ := bs.flatMap fun b => (s.heap b).lines

/-- The bytes in some buffers. -/
def bytesIn (s : AsyncLogging) (bs : List ℕ) : List Byte :=
  bs.flatMap fun b => (s.heap b).buffer.data

/-- The line with the number `k`. -/
def line (s : AsyncLogging) (k : ℕ) : List Byte := s.appended.getD k []

/-- The lines that a batch loses by the overload rule: if it has more than 25 buffers, those in the
buffers from the third on. -/
def overload (batch : List (List ℕ)) : List ℕ :=
  if 25 < batch.length then (batch.drop 2).flatten else []

/-- The numbers of the lines that have not been dropped. -/
def keptLines (s : AsyncLogging) : List ℕ :=
  (List.range s.appended.length).filter fun k => k ∉ s.dropped

/-- Nothing is lost, repeated or reordered except by the overload rule, and no line is split. -/
structure Intact (s : AsyncLogging) : Prop where
  numbers : s.passed ++ s.linesIn s.waiting = s.keptLines
  whole : ∀ b ∈ s.waiting, (s.heap b).buffer.data = (s.heap b).lines.flatMap s.line
  output : s.output = s.passed.flatMap s.line
  dropped : s.dropped = s.batches.flatMap overload
  dropped_lt : ∀ k ∈ s.dropped, k < s.appended.length

/-- What has been recorded, apart from what the buffers hold. -/
def records (s : AsyncLogging) :
    List Byte × List (List Byte) × List ℕ × List ℕ × List (List (List ℕ)) :=
  (s.output, s.appended, s.passed, s.dropped, s.batches)

theorem waiting_subset_slots (s : AsyncLogging) : s.waiting ⊆ s.slots := by
  have hunwritten : s.unwritten ⊆ s.buffersToWrite := by
    unfold unwritten
    split
    · exact List.drop_subset _ _
    · exact List.Subset.refl _
  intro b hb
  simp only [waiting, slots, List.mem_append] at hb ⊢
  rcases hb with (hb | hb) | hb
  · exact Or.inl (Or.inl (Or.inr (hunwritten hb)))
  · exact Or.inl (Or.inl (Or.inl (Or.inr hb)))
  · exact Or.inl (Or.inl (Or.inl (Or.inl (Or.inl hb))))

/-- What has been written, then what waits, byte for byte. -/
theorem Intact.bytes {s : AsyncLogging} (h : s.Intact) :
    s.output ++ s.bytesIn s.waiting = s.keptLines.flatMap s.line := by
  have hbytes : s.bytesIn s.waiting = (s.linesIn s.waiting).flatMap s.line := by
    rw [linesIn, List.flatMap_assoc, bytesIn]
    exact List.flatMap_congr fun b hb => h.whole b hb
  rw [h.output, hbytes, ← List.flatMap_append, h.numbers]

theorem intact_init : init.Intact where
  numbers := by decide
  whole := by decide
  output := rfl
  dropped := rfl
  dropped_lt := by simp [init]

/-- No record is made, and at most empty buffers are added to the waiting ones. -/
theorem Intact.move {s t : AsyncLogging} (h : s.Intact) (hrec : t.records = s.records)
    (extra : List ℕ) (hwaiting : t.waiting = s.waiting ++ extra)
    (hheap : ∀ b ∈ s.waiting, t.heap b = s.heap b)
    (hextra : ∀ b ∈ extra, t.heap b = ⟨.new, []⟩) : t.Intact := by
  simp only [records, Prod.mk.injEq] at hrec
  obtain ⟨houtput, happended, hpassed, hdropped, hbatches⟩ := hrec
  have hline : t.line = s.line := by
    funext k
    rw [line, happended, line]
  have hlines : t.linesIn t.waiting = s.linesIn s.waiting := by
    have hold : s.waiting.flatMap (fun b => (t.heap b).lines) = s.linesIn s.waiting :=
      List.flatMap_congr fun b hb => by rw [hheap b hb]
    have hnew : extra.flatMap (fun b => (t.heap b).lines) = [] :=
      List.flatMap_eq_nil_iff.2 fun b hb => by rw [hextra b hb]
    rw [linesIn, hwaiting, List.flatMap_append, hold, hnew, List.append_nil]
  constructor
  · rw [hpassed, hlines, h.numbers, keptLines, keptLines, happended, hdropped]
  · intro b hb
    rw [hline]
    rw [hwaiting, List.mem_append] at hb
    rcases hb with hb | hb
    · rw [hheap b hb]
      exact h.whole b hb
    · rw [hextra b hb]
      rfl
  · rw [houtput, hpassed, hline]
    exact h.output
  · rw [hdropped, hbatches]
    exact h.dropped
  · rw [hdropped, happended]
    exact h.dropped_lt

/-- Nothing that is recorded or waits has changed. -/
theorem Intact.of_eq {s t : AsyncLogging} (h : s.Intact) (hrec : t.records = s.records)
    (hwaiting : t.waiting = s.waiting) (hheap : ∀ b ∈ s.waiting, t.heap b = s.heap b) :
    t.Intact :=
  h.move hrec [] (hwaiting.trans (List.append_nil _).symm) hheap (by simp)

/-! ### The functions keep it -/

/-- The numbers of the waiting lines have been given out. -/
theorem Intact.lt_of_mem {s : AsyncLogging} (h : s.Intact) {k : ℕ}
    (hk : k ∈ s.passed ∨ k ∈ s.linesIn s.waiting) : k < s.appended.length := by
  have hmem : k ∈ s.keptLines := by
    rw [← h.numbers, List.mem_append]
    exact hk
  exact List.mem_range.1 (List.mem_filter.1 hmem).1

/-- The lines in the current buffer and in others, after one has been added. -/
theorem linesIn_fill (s : AsyncLogging) {b : ℕ} {front : List ℕ} (hb : b ∉ front)
    (logline : List Byte) :
    (s.fill b logline).linesIn (front ++ [b]) =
      s.linesIn (front ++ [b]) ++ [s.appended.length] := by
  have hself : (s.fill b logline).heap b =
      ⟨(s.heap b).buffer.append logline, (s.heap b).lines ++ [s.appended.length]⟩ :=
    Function.update_self ..
  have hsame : front.flatMap (fun c => ((s.fill b logline).heap c).lines) =
      front.flatMap fun c => (s.heap c).lines := by
    refine List.flatMap_congr ?_
    intro c hc
    have hne : c ≠ b := fun heq => hb (heq ▸ hc)
    simp only [AsyncLogging.fill, Function.update_of_ne hne]
  rw [linesIn, linesIn, List.flatMap_append, List.flatMap_append, hsame, List.flatMap_singleton,
    List.flatMap_singleton, hself, ← List.append_assoc]

/-- The lines that were there keep their numbers. -/
theorem flatMap_line_fill {s : AsyncLogging} (b : ℕ) (logline : List Byte) {ks : List ℕ}
    (hks : ∀ k ∈ ks, k < s.appended.length) :
    ks.flatMap (s.fill b logline).line = ks.flatMap s.line := by
  refine List.flatMap_congr ?_
  intro k hk
  simp [line, AsyncLogging.fill, List.getElem?_append_left (hks k hk)]

/-- The line that has been added has the next number. -/
theorem line_fill_new (s : AsyncLogging) (b : ℕ) (logline : List Byte) :
    (s.fill b logline).line s.appended.length = logline := by
  simp [line, AsyncLogging.fill]

/-- The number of the line that has been added is not among the dropped ones. -/
theorem Intact.keptLines_fill {s : AsyncLogging} (h : s.Intact) (b : ℕ) (logline : List Byte) :
    (s.fill b logline).keptLines = s.keptLines ++ [s.appended.length] := by
  have hnot : s.appended.length ∉ s.dropped := fun hd => Nat.lt_irrefl _ (h.dropped_lt _ hd)
  have happended : (s.fill b logline).appended.length = s.appended.length + 1 := by
    simp [AsyncLogging.fill]
  have hdropped : (s.fill b logline).dropped = s.dropped := rfl
  have hlast : [s.appended.length].filter (fun k => k ∉ s.dropped) = [s.appended.length] := by
    simp [hnot]
  rw [keptLines, keptLines, happended, hdropped, List.range_succ, List.filter_append, hlast]

/-- The current buffer is none of the others that wait. -/
theorem Owned.current_not_mem_waiting {s : AsyncLogging} (ho : s.Owned) {b : ℕ}
    (hb : s.currentBuffer = some b) : b ∉ s.unwritten ++ s.buffers := by
  obtain ⟨-, hbuffers, hwrite, -, -⟩ := ho.current_not_mem hb
  rw [List.mem_append, unwritten]
  rintro (hmem | hmem)
  · split at hmem
    · exact hwrite (List.mem_of_mem_drop hmem)
    · exact hwrite hmem
  · exact hbuffers hmem

/-- A line is appended to the current buffer, which has room for it. -/
theorem Intact.fill {s : AsyncLogging} (h : s.Intact) (ho : s.Owned) {b : ℕ}
    (hb : s.currentBuffer = some b) {logline : List Byte}
    (hroom : logline.length < (s.heap b).buffer.avail) (hlen : logline.length < kLargeBuffer) :
    (s.fill b logline).Intact := by
  have hbefore := ho.current_not_mem_waiting hb
  have hwaiting : s.waiting = s.unwritten ++ s.buffers ++ [b] := by
    rw [waiting, hb, Option.toList_some]
  have hself : (s.fill b logline).heap b =
      ⟨(s.heap b).buffer.append logline, (s.heap b).lines ++ [s.appended.length]⟩ :=
    Function.update_self ..
  have hlines := s.linesIn_fill hbefore logline
  rw [← hwaiting] at hlines
  have hmem : ∀ c ∈ s.waiting, ∀ k ∈ (s.heap c).lines, k < s.appended.length := by
    intro c hc k hk
    exact h.lt_of_mem (Or.inr (List.mem_flatMap.2 ⟨c, hc, hk⟩))
  constructor
  · change s.passed ++ (s.fill b logline).linesIn s.waiting = _
    rw [hlines, ← List.append_assoc, h.numbers, h.keptLines_fill]
  · intro c hc
    change c ∈ s.waiting at hc
    by_cases hcb : c = b
    · subst hcb
      have hbig : kLargeBuffer < 2 ^ 31 := by decide
      rw [hself]
      simp only
      rw [FixedBuffer.append_of_lt (by omega) hroom, List.flatMap_append,
        flatMap_line_fill c logline (hmem c hc), h.whole c hc, List.flatMap_singleton,
        line_fill_new]
    · have hother : (s.fill b logline).heap c = s.heap c := Function.update_of_ne hcb _ _
      rw [hother, flatMap_line_fill b logline (hmem c hc)]
      exact h.whole c hc
  · change s.output = s.passed.flatMap _
    rw [flatMap_line_fill b logline fun k hk => h.lt_of_mem (Or.inl hk)]
    exact h.output
  · exact h.dropped
  · intro k hk
    have := h.dropped_lt k hk
    simp only [AsyncLogging.fill, List.length_append, List.length_singleton]
    omega

/-- An empty buffer has room for every line. -/
theorem lt_avail_new {logline : List Byte} (hlen : logline.length < kLargeBuffer) :
    logline.length < (FixedBuffer.new : FixedBuffer kLargeBuffer).avail := by
  have havail : (FixedBuffer.new : FixedBuffer kLargeBuffer).avail = kLargeBuffer := by decide
  rw [havail]
  exact_mod_cast hlen

/-- `append` fills a current buffer that has room, after it has put an empty buffer in the place of
one that has not. -/
theorem Owned.append_eq {s : AsyncLogging} (ho : s.Owned) {logline : List Byte}
    (hlen : logline.length < kLargeBuffer) :
    ∃ (s' : AsyncLogging) (b : ℕ) (extra : List ℕ), s.append logline = s'.fill b logline ∧
      s'.Owned ∧ s'.currentBuffer = some b ∧
      logline.length < (s'.heap b).buffer.avail ∧ s'.records = s.records ∧
      (s'.running, s'.started, s'.pc) = (s.running, s.started, s.pc) ∧
      s'.buffersToWrite = s.buffersToWrite ∧
      s'.buffers ++ s'.currentBuffer.toList = s.buffers ++ s.currentBuffer.toList ++ extra ∧
      (∀ c ∈ s.waiting, s'.heap c = s.heap c) ∧ ∀ c ∈ extra, s'.heap c = ⟨.new, []⟩ := by
  have hroom := lt_avail_new hlen
  obtain ⟨b, hb⟩ := Option.ne_none_iff_exists'.1 ho.current
  simp only [AsyncLogging.append, hb]
  split
  · rename_i havail
    refine ⟨s, b, [], rfl, ho, hb, havail, rfl, rfl, rfl, ?_, fun _ _ => rfl, by simp⟩
    rw [hb, List.append_nil]
  · cases hnext : s.nextBuffer with
    | some next =>
        have hempty := ho.spare next (Or.inl hnext)
        refine ⟨_, next, [next], rfl, ho.useNext hb hnext, rfl, ?_, rfl, rfl, rfl, ?_,
          fun _ _ => rfl, by simpa using hempty⟩
        · simpa only [hempty] using hroom
        · simp only [Option.toList_some]
    | none =>
        refine ⟨_, s.fresh, [s.fresh], rfl, hnext ▸ ho.useFresh hb, rfl, ?_, rfl, rfl, rfl, ?_,
          ?_, by simp⟩
        · simpa using hroom
        · simp only [Option.toList_some]
        · intro c hc
          have := ho.allocated c (waiting_subset_slots s hc)
          exact Function.update_of_ne (by omega) _ _

theorem Intact.append {s : AsyncLogging} (h : s.Intact) (ho : s.Owned) {logline : List Byte}
    (hlen : logline.length < kLargeBuffer) : (s.append logline).Intact := by
  obtain ⟨s', b, extra, heq, ho', hb, hroom, hrec, hcontrol, hwrite, hplaces, hheap, hextra⟩ :=
    ho.append_eq hlen
  have hunwritten : s'.unwritten = s.unwritten := by
    have hpc : s'.pc = s.pc := congrArg (fun c => c.2.2) hcontrol
    rw [unwritten, unwritten, hpc, hwrite]
  have hwaiting : s'.waiting = s.waiting ++ extra := by
    rw [waiting, waiting, hunwritten, List.append_assoc, hplaces, List.append_assoc,
      List.append_assoc, List.append_assoc]
  rw [heq]
  exact (h.move hrec extra hwaiting hheap hextra).fill ho' hb hroom hlen

theorem Intact.start {s : AsyncLogging} (h : s.Intact) : s.start.Intact := by
  unfold AsyncLogging.start
  split <;> exact h.of_eq rfl rfl fun _ _ => rfl

theorem Intact.stop {s : AsyncLogging} (h : s.Intact) : s.stop.Intact := by
  unfold AsyncLogging.stop
  split <;> exact h.of_eq rfl rfl fun _ _ => rfl

theorem Intact.enter {s : AsyncLogging} (h : s.Intact) (ho : s.Owned) (hpc : s.pc = .created) :
    s.enter.Intact := by
  unfold AsyncLogging.enter
  split
  · refine h.of_eq rfl ?_ fun c hc => ?_
    · simp only [waiting, unwritten, hpc]
    · have := ho.allocated c (waiting_subset_slots s hc)
      refine (Function.update_of_ne ?_ _ _).trans (Function.update_of_ne ?_ _ _) <;> omega
  · exact h.of_eq rfl rfl fun _ _ => rfl

theorem Intact.test {s : AsyncLogging} (h : s.Intact) (hpc : s.pc = .test) : s.test.Intact := by
  unfold AsyncLogging.test
  split
  · split
    · exact h.of_eq rfl (by simp only [waiting, unwritten, hpc]) fun _ _ => rfl
    · exact h.of_eq rfl rfl fun _ _ => rfl
  · exact h.of_eq rfl (by simp only [waiting, unwritten, hpc]) fun _ _ => rfl

/-- The buffers taken are the ones that waited, and an empty one becomes the current one. -/
theorem Intact.take {s : AsyncLogging} (h : s.Intact) (ho : s.Owned)
    (hpc : s.pc = .lock ∨ s.pc = .waiting) : s.take.Intact := by
  obtain ⟨hnew1, -, hwrite⟩ := ho.spares_of_take hpc
  obtain ⟨b, hb⟩ := Option.ne_none_iff_exists'.1 ho.current
  obtain ⟨n, hn⟩ := Option.ne_none_iff_exists'.1 hnew1
  have hempty := ho.spare n (Or.inr (Or.inl hn))
  have hunwritten : s.unwritten = [] := by
    rcases hpc with hpc | hpc <;> simp only [unwritten, hpc, hwrite]
  have hwaiting : s.waiting = s.buffers ++ [b] := by
    rw [waiting, hunwritten, hb, Option.toList_some, List.nil_append]
  simp only [AsyncLogging.take, hb]
  split <;>
  · refine h.move rfl [n] ?_ (fun _ _ => rfl) (by simpa using hempty)
    rw [hwaiting]
    simp only [waiting, unwritten, hn, hwrite, Option.toList_some, List.append_nil]

theorem Intact.lock {s : AsyncLogging} (h : s.Intact) (ho : s.Owned) (hpc : s.pc = .lock) :
    s.lock.Intact := by
  unfold AsyncLogging.lock
  split
  · exact h.of_eq rfl (by simp only [waiting, unwritten, hpc]) fun _ _ => rfl
  · exact h.take ho (Or.inl hpc)

/-- Taking elements out of the middle of a list without repetition. -/
theorem filter_not_mem_middle {xs ys zs : List ℕ} (h : (xs ++ ys ++ zs).Nodup) :
    (xs ++ ys ++ zs).filter (fun k => k ∉ ys) = xs ++ zs := by
  obtain ⟨hxy, -, hz⟩ := List.nodup_append.1 h
  obtain ⟨-, -, hx⟩ := List.nodup_append.1 hxy
  have hxs : xs.filter (fun k => k ∉ ys) = xs :=
    List.filter_eq_self.2 fun k hk => decide_eq_true fun hky => hx k hk k hky rfl
  have hys : ys.filter (fun k => k ∉ ys) = [] :=
    List.filter_eq_nil_iff.2 fun k hk => by simpa using hk
  have hzs : zs.filter (fun k => k ∉ ys) = zs :=
    List.filter_eq_self.2 fun k hk =>
      decide_eq_true fun hky => hz k (List.mem_append_right _ hky) k hk rfl
  rw [List.filter_append, List.filter_append, hxs, hys, hzs, List.append_nil]

theorem linesIn_append (s : AsyncLogging) (xs ys : List ℕ) :
    s.linesIn (xs ++ ys) = s.linesIn xs ++ s.linesIn ys := List.flatMap_append

/-- The batch is what is kept, then what the overload rule erases. -/
theorem trim_eq {s : AsyncLogging} (hne : s.buffersToWrite ≠ []) :
    ∃ kept erased, s.buffersToWrite = kept ++ erased ∧
      s.linesIn erased = overload (s.buffersToWrite.map fun b => (s.heap b).lines) ∧
      s.trim =
        { s with
          buffersToWrite := kept
          pc := .write 0
          dropped := s.dropped ++ s.linesIn erased
          batches := s.batches ++ [s.buffersToWrite.map fun b => (s.heap b).lines] } := by
  simp only [AsyncLogging.trim, if_neg hne]
  by_cases hlong : 25 < s.buffersToWrite.length
  · have htwo : (s.buffersToWrite.take 2).length = 2 := by
      rw [List.length_take]
      omega
    refine ⟨s.buffersToWrite.take 2, s.buffersToWrite.drop 2, ?_, ?_, ?_⟩
    · rw [List.take_append_drop]
    · rw [overload, List.length_map, if_pos hlong, ← List.map_drop, linesIn, List.flatMap_def]
    · rw [if_pos hlong, htwo]
      rfl
  · refine ⟨s.buffersToWrite, [], (List.append_nil _).symm, ?_, ?_⟩
    · rw [overload, List.length_map, if_neg hlong]
      rfl
    · rw [if_neg hlong, List.drop_length]
      rfl

/-- The numbers that are left when some of the waiting buffers are taken out. -/
theorem Intact.numbers_without {s : AsyncLogging} (h : s.Intact) {kept erased rest : List ℕ}
    (hwaiting : s.waiting = kept ++ erased ++ rest) :
    s.passed ++ s.linesIn (kept ++ rest) = s.keptLines.filter fun k => k ∉ s.linesIn erased := by
  have hnumbers := h.numbers
  rw [hwaiting, linesIn_append, linesIn_append, ← List.append_assoc, ← List.append_assoc]
    at hnumbers
  have hnodup : s.keptLines.Nodup := List.nodup_range.filter _
  rw [← hnumbers] at hnodup ⊢
  rw [filter_not_mem_middle hnodup, linesIn_append, List.append_assoc]

/-- A long batch loses the buffers from the third on, and nothing else does. -/
theorem Intact.trim {s : AsyncLogging} (h : s.Intact) (hpc : s.pc = .taken)
    (hne : s.buffersToWrite ≠ []) : s.trim.Intact := by
  obtain ⟨kept, erased, hsplit, herased, htrim⟩ := trim_eq hne
  have hold : s.waiting = kept ++ erased ++ (s.buffers ++ s.currentBuffer.toList) := by
    simp only [waiting, unwritten, hpc, hsplit, List.append_assoc]
  have hwaiting : s.trim.waiting = kept ++ (s.buffers ++ s.currentBuffer.toList) := by
    simp only [htrim, waiting, unwritten, List.drop_zero, List.append_assoc]
  have hsub : s.trim.waiting ⊆ s.waiting := by
    rw [hwaiting, hold, List.append_assoc]
    exact List.append_subset.2 ⟨List.subset_append_left _ _,
      List.Subset.trans (List.subset_append_right _ _) (List.subset_append_right _ _)⟩
  have hlost : ∀ k ∈ s.linesIn erased, k < s.appended.length := by
    intro k hk
    refine h.lt_of_mem (Or.inr ?_)
    rw [hold, linesIn_append, linesIn_append]
    exact List.mem_append_left _ (List.mem_append_right _ hk)
  have hnumbers := h.numbers_without hold
  rw [← hwaiting] at hnumbers
  rw [htrim] at hnumbers hsub ⊢
  constructor
  · refine hnumbers.trans ?_
    rw [keptLines, keptLines, List.filter_filter]
    refine List.filter_congr ?_
    intro k _
    simp only [List.mem_append, not_or, Bool.decide_and]
    exact Bool.and_comm _ _
  · intro b hb
    exact h.whole b (hsub hb)
  · exact h.output
  · simp only
    rw [herased, h.dropped, List.flatMap_append, List.flatMap_singleton]
  · intro k hk
    rcases List.mem_append.1 hk with hk | hk
    · exact h.dropped_lt k hk
    · exact hlost k hk

/-- The buffer at the head of the unwritten ones is written. -/
theorem Intact.write {s : AsyncLogging} (h : s.Intact) {i b : ℕ} (hpc : s.pc = .write i)
    (hb : s.buffersToWrite[i]? = some b) : (s.write i b).Intact := by
  obtain ⟨hlt, hget⟩ := List.getElem?_eq_some_iff.1 hb
  have hdrop : s.buffersToWrite.drop i = b :: s.buffersToWrite.drop (i + 1) := by
    rw [List.drop_eq_getElem_cons hlt, hget]
  have hold : s.waiting = b :: (s.write i b).waiting := by
    simp only [waiting, unwritten, hpc, hdrop, AsyncLogging.write, List.cons_append]
  have hwhole := h.whole b (hold ▸ List.mem_cons_self)
  constructor
  · have hnumbers := h.numbers
    rw [hold, linesIn, List.flatMap_cons, ← List.append_assoc] at hnumbers
    exact hnumbers
  · exact fun c hc => h.whole c (hold ▸ List.mem_cons_of_mem b hc)
  · change s.output ++ _ = (s.passed ++ (s.heap b).lines).flatMap s.line
    rw [List.flatMap_append, h.output, hwhole]
  · exact h.dropped
  · exact h.dropped_lt

theorem Intact.recycle {s : AsyncLogging} (h : s.Intact) (ho : s.Owned) {i : ℕ}
    (hpc : s.pc = .write i) (hend : s.buffersToWrite.length ≤ i) : s.recycle.Intact := by
  obtain ⟨heap, spare1, spare2, heq, hheap, -⟩ := ho.recycle_eq hpc
  rw [heq]
  have hwaiting : s.waiting = s.buffers ++ s.currentBuffer.toList := by
    simp only [waiting, unwritten, hpc, List.drop_eq_nil_of_le hend, List.nil_append]
  refine h.of_eq rfl ?_ fun c hc => hheap c fun hmem => ?_
  · rw [hwaiting]
    rfl
  · obtain ⟨hcurrent, -, hbuffers, -⟩ := ho.taken_not_mem hmem
    rw [hwaiting, List.mem_append, Option.mem_toList] at hc
    exact hc.elim hbuffers hcurrent

/-! ### Runs -/

theorem intact_step {s t : AsyncLogging} {op : LogOp} (h : s.Intact) (ho : s.Owned)
    (hst : s.step op = some t) : t.Intact := by
  cases (step_moves hst).2 with
  | start => exact h.start
  | append logline hlen => exact h.append ho hlen
  | stop => exact h.stop
  | enter hpc => exact h.enter ho hpc
  | test hpc => exact h.test hpc
  | lock hpc => exact h.lock ho hpc
  | wake hpc => exact h.take ho (Or.inr hpc)
  | trim hpc =>
      have hthread := ho.thread
      rw [ThreadOk, hpc] at hthread
      exact h.trim hpc hthread.2.1
  | write i b hpc hb => exact h.write hpc hb
  | recycle i hpc hend => exact h.recycle ho hpc hend

/-- Both invariants together, along a run. -/
theorem owned_intact_of_exec {s t : AsyncLogging} (ho : s.Owned) (h : s.Intact) {ops : List LogOp}
    (hrun : Runs.exec step s ops = some t) : t.Owned ∧ t.Intact :=
  Runs.exec_invariant (I := fun s => s.Owned ∧ s.Intact)
    (fun _ _ _ hs hst => ⟨owned_step _ _ _ hs.1 hst, intact_step hs.2 hs.1 hst⟩) ⟨ho, h⟩ hrun

/-- **The logger loses, repeats and reorders nothing except by its overload rule**, in every state
of every run: the bytes written, followed by the waiting ones, are the appended lines in the order
of the lock, minus those in the buffers that the rule erased. -/
theorem intact_of_exec {ops : List LogOp} {s : AsyncLogging}
    (h : Runs.exec step init ops = some s) :
    s.Intact ∧ s.output ++ s.bytesIn s.waiting = s.keptLines.flatMap s.line := by
  obtain ⟨-, hs⟩ := owned_intact_of_exec owned_init intact_init h
  exact ⟨hs, hs.bytes⟩

/-- The theorem on a run in which a line is appended while the thread writes. -/
theorem intact_of_exec_demo :
    ∃ s, Runs.exec step init
        [.start, .enter, .append [97, 98], .test, .lock, .wake, .trim, .append [99], .write,
          .recycle] = some s ∧
      s.output = [97, 98] ∧ s.bytesIn s.waiting = [99] ∧
      s.Intact ∧ s.output ++ s.bytesIn s.waiting = s.keptLines.flatMap s.line := by
  have h : (Runs.exec step init
      [.start, .enter, .append [97, 98], .test, .lock, .wake, .trim, .append [99], .write,
        .recycle]).map (fun s => (s.output, s.bytesIn s.waiting)) = some ([97, 98], [99]) := by
    decide +kernel
  obtain ⟨s, hs, hview⟩ := Option.map_eq_some_iff.1 h
  obtain ⟨houtput, hwaiting⟩ := Prod.mk.inj hview
  exact ⟨s, hs, houtput, hwaiting, intact_of_exec hs⟩

end AsyncLogging

end G5
