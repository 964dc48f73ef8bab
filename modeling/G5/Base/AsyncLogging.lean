/-
**The asynchronous logger** (`src/base/AsyncLogging.cc`).

Any number of threads append lines to the current buffer under the mutex; one thread takes the
filled buffers and the current one away and writes them to the file.  The two sides exchange buffer
objects through the current and the next buffer, the vector of filled buffers, the vector to be
written, and two spare ones.

One step is a section under the mutex, or a stretch of the writing thread between two accesses to
what the threads share.  A wait may end at any time.  A failed assertion ends the process.

Beside the data of the source, the state records what has happened, for the statements only: every
line gets its number in the order of the lock, and it is noted which lines each buffer was given
since its last reset, which ones were in the buffers handed to the file, and what the writing
thread threw away.  Nothing else in the state depends on these records.

Main definitions:

* `AsyncLogging` — the logger, its buffer objects and its writing thread;
* `AsyncLogging.append`, `start`, `stop` — the calls of other threads;
* `AsyncLogging.enter`, `test`, `lock`, `take`, `trim`, `write`, `recycle` — `threadFunc`;
* `AsyncLogging.step` — the runs;
* `AsyncLogging.Moves` — the steps again, each with what holds before it.

Main results:

* `AsyncLogging.step_moves` — **every step is one of these**.
-/

import G5.Base.FixedBuffer
import Mathlib.Logic.Function.Basic

set_option relaxedAutoImplicit false
set_option autoImplicit false

namespace G5

/-- A buffer object, and the numbers of the lines it has been given since its last reset. -/
structure Slot where
  buffer : FixedBuffer kLargeBuffer
  lines : List ℕ
  deriving DecidableEq, Repr

/-- Where the writing thread is. -/
inductive LoggerPc
  /-- it has not entered `threadFunc` -/
  | created
  /-- it is at the test of `while(running_)` -/
  | test
  /-- it is about to take the mutex -/
  | lock
  /-- it is in `cond_.waitForSeconds` -/
  | waiting
  /-- it has left the section under the mutex -/
  | taken
  /-- it is at the head of the loop that writes, or recycles if that loop is over -/
  | write (i : ℕ)
  | returned
  deriving DecidableEq, Repr

/-- How the process can fail. -/
inductive LogFault
  /-- the assertion of `Thread::start` -/
  | started
  /-- an assertion of `Thread::join` -/
  | joined
  /-- the assertion at the head of `threadFunc` -/
  | running
  /-- an assertion in the body of the loop of `threadFunc` -/
  | loop
  /-- `currentBuffer_` is null where it is needed -/
  | nullPointer
  deriving DecidableEq, Repr

/-- The logger, its buffer objects, the variables of the writing thread, and the records. -/
structure AsyncLogging where
  running : Bool
  started : Bool
  joined : Bool
  /-- the buffer objects; those from `fresh` on have not been allocated -/
  heap : ℕ → Slot
  fresh : ℕ
  currentBuffer : Option ℕ
  nextBuffer : Option ℕ
  buffers : List ℕ
  newBuffer1 : Option ℕ
  newBuffer2 : Option ℕ
  buffersToWrite : List ℕ
  /-- the bytes given to `output.append` -/
  output : List Byte
  pc : LoggerPc
  /-- the failure that has ended the process -/
  failed : Option LogFault
  /-- the lines in the order of the lock -/
  appended : List (List Byte)
  /-- the lines in the buffers given to `output.append` -/
  passed : List ℕ
  /-- the lines in the buffers erased from a batch -/
  dropped : List ℕ
  /-- the batches taken, each as the lines of its buffers -/
  batches : List (List (List ℕ))

/-- What may happen next. -/
inductive LogOp
  /-- `start` sets `running_` and creates the thread -/
  | start
  | append (logline : List Byte)
  /-- `stop` clears `running_`, signals and joins -/
  | stop
  /-- the thread enters `threadFunc` -/
  | enter
  /-- the test of `while(running_)`, with the assertions behind it -/
  | test
  /-- the mutex is taken: the thread waits, or takes the buffers away -/
  | lock
  /-- the wait ends, and the thread takes the buffers away -/
  | wake
  /-- a long batch is cut -/
  | trim
  | write
  | recycle
  deriving DecidableEq, Repr

namespace AsyncLogging

/-! ### The functions -/

/-- The constructor. -/
def init : AsyncLogging where
  running := false
  started := false
  joined := false
  heap := fun _ => ⟨.new, []⟩
  fresh := 2
  currentBuffer := some 0
  nextBuffer := some 1
  buffers := []
  newBuffer1 := none
  newBuffer2 := none
  buffersToWrite := []
  output := []
  pc := .created
  failed := none
  appended := []
  passed := []
  dropped := []
  batches := []

def fail (s : AsyncLogging) (fault : LogFault) : AsyncLogging := { s with failed := some fault }

/-- `currentBuffer_->append(logline, len)` on the buffer `b`. -/
def fill (s : AsyncLogging) (b : ℕ) (logline : List Byte) : AsyncLogging :=
  let slot := s.heap b
  { s with
    heap := Function.update s.heap b
      ⟨slot.buffer.append logline, slot.lines ++ [s.appended.length]⟩
    appended := s.appended ++ [logline] }

def append (s : AsyncLogging) (logline : List Byte) : AsyncLogging :=
  match s.currentBuffer with
  | none => s.fail .nullPointer
  | some b =>
      if logline.length < (s.heap b).buffer.avail then
        s.fill b logline
      else
        let s := { s with buffers := s.buffers ++ [b] }
        match s.nextBuffer with
        | some next => { s with currentBuffer := some next, nextBuffer := none }.fill next logline
        | none =>
            { s with
              currentBuffer := some s.fresh
              heap := Function.update s.heap s.fresh ⟨.new, []⟩
              fresh := s.fresh + 1 }.fill s.fresh logline

/-- The first statements of `start`; a second call fails in `Thread::start`. -/
def start (s : AsyncLogging) : AsyncLogging :=
  if s.started then { s with running := true }.fail .started
  else { s with running := true, started := true }

/-- `stop`, up to the wait for the thread; without a start, or a second time, it fails in
`Thread::join`. -/
def stop (s : AsyncLogging) : AsyncLogging :=
  if s.started = true ∧ s.joined = false then { s with running := false, joined := true }
  else { s with running := false }.fail .joined

/-- `threadFunc` up to its loop. -/
def enter (s : AsyncLogging) : AsyncLogging :=
  if s.running then
    { s with
      heap := Function.update (Function.update s.heap s.fresh ⟨.new, []⟩) (s.fresh + 1) ⟨.new, []⟩
      newBuffer1 := some s.fresh
      newBuffer2 := some (s.fresh + 1)
      fresh := s.fresh + 2
      pc := .test }
  else s.fail .running

/-- A spare buffer is there and empty. -/
def isSpare (s : AsyncLogging) : Option ℕ → Bool
  | none => false
  | some b => (s.heap b).buffer.length = 0

/-- `while(running_)`, and the assertions at the head of its body. -/
def test (s : AsyncLogging) : AsyncLogging :=
  if s.running then
    if s.isSpare s.newBuffer1 ∧ s.isSpare s.newBuffer2 ∧ s.buffersToWrite = [] then
      { s with pc := .lock }
    else s.fail .loop
  else { s with pc := .returned }

/-- The rest of the section under the mutex: the filled buffers and the current one are taken, and
spare ones put in their places.  A null pointer among the buffers would be used later. -/
def take (s : AsyncLogging) : AsyncLogging :=
  match s.currentBuffer with
  | none => s.fail .nullPointer
  | some b =>
      let s :=
        { s with
          currentBuffer := s.newBuffer1
          newBuffer1 := none
          buffersToWrite := s.buffers ++ [b]
          buffers := s.buffersToWrite
          pc := .taken }
      match s.nextBuffer with
      | some _ => s
      | none => { s with nextBuffer := s.newBuffer2, newBuffer2 := none }

/-- The section under the mutex up to the wait. -/
def lock (s : AsyncLogging) : AsyncLogging :=
  if s.buffers = [] then { s with pc := .waiting } else s.take

/-- A batch of more than 25 buffers is cut to its first two. -/
def trim (s : AsyncLogging) : AsyncLogging :=
  if s.buffersToWrite = [] then s.fail .loop
  else
    let kept :=
      if 25 < s.buffersToWrite.length then s.buffersToWrite.take 2 else s.buffersToWrite
    let erased := s.buffersToWrite.drop kept.length
    { s with
      buffersToWrite := kept
      pc := .write 0
      dropped := s.dropped ++ erased.flatMap fun b => (s.heap b).lines
      batches := s.batches ++ [s.buffersToWrite.map fun b => (s.heap b).lines] }

/-- `output.append` for the buffer `b`, the one at `i`. -/
def write (s : AsyncLogging) (i b : ℕ) : AsyncLogging :=
  { s with
    output := s.output ++ (s.heap b).buffer.data
    passed := s.passed ++ (s.heap b).lines
    pc := .write (i + 1) }

/-- A missing spare buffer is taken from the back of the written ones, and reset: the new spare
buffer, the written ones that are left, and the heap. -/
def refill (spare : Option ℕ) (written : List ℕ) (heap : ℕ → Slot) :
    Option (ℕ × List ℕ × (ℕ → Slot)) :=
  match spare with
  | some b => some (b, written, heap)
  | none =>
      written.getLast?.map fun b =>
        (b, written.dropLast, Function.update heap b ⟨(heap b).buffer.reset, []⟩)

/-- The rest of the body of the loop. -/
def recycle (s : AsyncLogging) : AsyncLogging :=
  let written := if 2 < s.buffersToWrite.length then s.buffersToWrite.take 2 else s.buffersToWrite
  match refill s.newBuffer1 written s.heap with
  | none => s.fail .loop
  | some (spare1, written, heap) =>
      match refill s.newBuffer2 written heap with
      | none => s.fail .loop
      | some (spare2, _, heap) =>
          { s with
            heap := heap
            newBuffer1 := some spare1
            newBuffer2 := some spare2
            buffersToWrite := []
            pc := .test }

/-- One step; a process that has failed makes none.  A line is shorter than a buffer. -/
def step (s : AsyncLogging) (op : LogOp) : Option AsyncLogging :=
  if s.failed ≠ none then none
  else
    match op with
    | .start => some s.start
    | .append logline => if logline.length < kLargeBuffer then some (s.append logline) else none
    | .stop => some s.stop
    | .enter => if s.pc = .created ∧ s.started then some s.enter else none
    | .test => if s.pc = .test then some s.test else none
    | .lock => if s.pc = .lock then some s.lock else none
    | .wake => if s.pc = .waiting then some s.take else none
    | .trim => if s.pc = .taken then some s.trim else none
    | .write =>
        match s.pc with
        | .write i => s.buffersToWrite[i]?.map (s.write i)
        | _ => none
    | .recycle =>
        match s.pc with
        | .write i => if s.buffersToWrite.length ≤ i then some s.recycle else none
        | _ => none

/-! ### What a step can do -/

/-- The steps, each with what holds before it. -/
inductive Moves (s : AsyncLogging) : AsyncLogging → Prop
  | start : Moves s s.start
  | append (logline : List Byte) : logline.length < kLargeBuffer → Moves s (s.append logline)
  | stop : Moves s s.stop
  | enter : s.pc = .created → Moves s s.enter
  | test : s.pc = .test → Moves s s.test
  | lock : s.pc = .lock → Moves s s.lock
  | wake : s.pc = .waiting → Moves s s.take
  | trim : s.pc = .taken → Moves s s.trim
  | write (i b : ℕ) : s.pc = .write i → s.buffersToWrite[i]? = some b → Moves s (s.write i b)
  | recycle (i : ℕ) : s.pc = .write i → s.buffersToWrite.length ≤ i → Moves s s.recycle

/-- **Every step is one of these.** -/
theorem step_moves {s t : AsyncLogging} {op : LogOp} (h : s.step op = some t) :
    s.failed = none ∧ Moves s t := by
  simp only [step] at h
  split at h
  · cases h
  · rename_i hfailed
    refine ⟨not_not.1 hfailed, ?_⟩
    cases op with
    | start =>
        cases h
        exact .start
    | append logline =>
        simp only [Option.ite_none_right_eq_some, Option.some.injEq] at h
        obtain ⟨hlen, rfl⟩ := h
        exact .append logline hlen
    | stop =>
        cases h
        exact .stop
    | enter =>
        simp only [Option.ite_none_right_eq_some, Option.some.injEq] at h
        obtain ⟨hpc, rfl⟩ := h
        exact .enter hpc.1
    | test =>
        simp only [Option.ite_none_right_eq_some, Option.some.injEq] at h
        obtain ⟨hpc, rfl⟩ := h
        exact .test hpc
    | lock =>
        simp only [Option.ite_none_right_eq_some, Option.some.injEq] at h
        obtain ⟨hpc, rfl⟩ := h
        exact .lock hpc
    | wake =>
        simp only [Option.ite_none_right_eq_some, Option.some.injEq] at h
        obtain ⟨hpc, rfl⟩ := h
        exact .wake hpc
    | trim =>
        simp only [Option.ite_none_right_eq_some, Option.some.injEq] at h
        obtain ⟨hpc, rfl⟩ := h
        exact .trim hpc
    | write =>
        simp only at h
        split at h
        · rename_i i hpc
          obtain ⟨b, hb, rfl⟩ := Option.map_eq_some_iff.1 h
          exact .write i b hpc hb
        · cases h
    | recycle =>
        simp only at h
        split at h
        · rename_i i hpc
          rw [Option.ite_none_right_eq_some, Option.some.injEq] at h
          obtain ⟨hend, rfl⟩ := h
          exact .recycle i hpc hend
        · cases h

end AsyncLogging

end G5
