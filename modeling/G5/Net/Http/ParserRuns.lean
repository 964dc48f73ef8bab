/-
**Calls of a parser, in any order.**

A parser is called with a buffer, or reset, in any order: after a call that returned false it may
be called again, and after one that has the whole request as well.  The loop of `parseRequest` ends
in every state it can be called in but one: a parser that has the whole request and is not reset
takes neither branch of its loop, nor does it clear `hasMore`.

Main definitions:

* `HttpContext.ParserCall`, `HttpContext.step` — the calls, and what they leave;
* `HttpContext.LoopEnds` — the loop of a call ends;
* `HttpContext.Round`, `HttpContext.Progresses` — a round of the loop, and what the rounds consume.

Main results:

* `HttpContext.parseBody_cases` — a round stops the loop, or reads a line and waits for the headers;
* `HttpContext.loopEnds_iff` — **when the loop ends**: in every state but `kGotAll`.
-/

import G5.Lib.Runs
import G5.Net.Http.RequestLine
import Mathlib.Logic.Relation

set_option relaxedAutoImplicit false
set_option autoImplicit false

namespace G5

open Region Search

namespace HttpContext

/-! ### The calls -/

/-- A call of the parser: `parseRequest` on a well-formed buffer, or `reset`. -/
inductive ParserCall
  | parse (buf : Buffer) (receiveTime : ℤ) (valid : buf.Represents buf.readable)
  | reset

/-- The context behind a call, if it returns. -/
def step (c : HttpContext) : ParserCall → Option HttpContext
  | .parse buf receiveTime _ =>
      match c.parseRequest buf receiveTime with
      | .ok (some (_, c', _)) => some c'
      | _ => none
  | .reset => some c.reset

/-- `parseRequest` on a buffer in which `q` waits. -/
def ParserCall.parseBytes (q : List Byte) : ParserCall :=
  .parse (.holding q) Timestamp.invalid (Buffer.represents_holding q).self

/-- The local variables where the loop starts. -/
def loopStart (c : HttpContext) (b : Buffer) : ParseLoop := ⟨true, true, c, b⟩

/-- The loop is over after some number of rounds, or an assertion fails in it. -/
def LoopEnds (t : ℤ) (c : HttpContext) (b : Buffer) : Prop :=
  ∃ rounds, parseWhile t rounds (c.loopStart b) ≠ .ok none

/-- A round of the loop. -/
def Round (t : ℤ) (s s' : ParseLoop) : Prop := s.hasMore = true ∧ parseBody t s = .ok s'

/-- Each round the loop makes stops it, or shortens what is left to read. -/
def Progresses (t : ℤ) (c : HttpContext) (b : Buffer) : Prop :=
  ∀ s, Relation.ReflTransGen (Round t) (c.loopStart b) s → ∀ s', Round t s s' →
    s'.hasMore = false ∨ s'.buf.readableBytes < s.buf.readableBytes

/-! ### One round -/

section

variable {t : ℤ} {c c' : HttpContext} {b : Buffer} {q line : List Byte} {ok : Bool}

/-- A request line leaves the state to the loop. -/
theorem state_of_processRequestLine (h : c.processRequestLine line = .ok (ok, c')) :
    c'.state = c.state := by
  have hafter : ∀ target tail known request,
      (c.afterMethod target tail known request).2.state = c.state := by
    intro target tail known request
    unfold afterMethod
    cases known with
    | false => rfl
    | true => cases versionOf? tail <;> rfl
  rcases line_cases line with hno | ⟨name, rest, rfl, hname, hrest⟩ |
    ⟨name, target, tail, rfl, hname, htarget⟩
  · rw [processRequestLine_no_space c hno] at h
    cases h
    rfl
  · rw [processRequestLine_one_space c hname hrest] at h
    obtain ⟨p, -, hp⟩ := bind_eq_ok.1 h
    cases hp
    rfl
  · rw [processRequestLine_parts c hname htarget] at h
    obtain ⟨⟨known, request⟩, -, hp⟩ := bind_eq_ok.1 h
    simp only [pure_eq_ok, Except.ok.injEq] at hp
    rw [← hafter target tail known request, hp]

/-- The states the loop has a branch for. -/
def Reads (c : HttpContext) : Prop := c.state = .kExpectRequestLine ∨ c.state = .kExpectHeaders

/-- **A round fails an assertion, stops the loop, or reads a line.**  None leads to
`kExpectBody`. -/
theorem parseBody_cases (hc : c.Reads) (h : b.Represents q) :
    (∃ e, parseBody t ⟨true, true, c, b⟩ = .error e) ∨
      (∃ ok c' b', parseBody t ⟨true, true, c, b⟩ = .ok ⟨ok, false, c', b'⟩ ∧
        c'.state ≠ .kExpectBody) ∨
      ∃ c' b' q', parseBody t ⟨true, true, c, b⟩ = .ok ⟨true, true, c', b'⟩ ∧ c'.Reads ∧
        b'.Represents q' ∧ q'.length < q.length := by
  have hbody : c.state ≠ .kExpectBody := by
    rcases hc with hstate | hstate <;> simp [hstate]
  cases hcut : cut kCRLF q with
  | none => exact Or.inr (Or.inl ⟨true, c, b, parseBody_wait hc h hcut, hbody⟩)
  | some p =>
      obtain ⟨line, rest⟩ := p
      have hlt := length_lt_of_cut hcut
      rcases hc with hstate | hstate
      · cases hline : c.processRequestLine line with
        | error e =>
            obtain ⟨hfind, hslice, -, -⟩ := Buffer.findCRLF_of_cut h hcut
            left
            exact ⟨e, by simp [parseBody, hstate, hfind, hslice, hline]⟩
        | ok p =>
            obtain ⟨ok, c'⟩ := p
            right
            cases ok with
            | false =>
                refine Or.inl ⟨false, c', b, parseBody_badRequest hstate h hcut hline, ?_⟩
                rw [state_of_processRequestLine hline]
                exact hbody
            | true =>
                obtain ⟨b', hb', hrep⟩ := parseBody_requestLine (t := t) hstate h hcut hline
                exact Or.inr ⟨_, b', rest, hb', Or.inr rfl, hrep, hlt⟩
      · right
        by_cases hcolon : kColon ∈ line
        · obtain ⟨b', hb', hrep⟩ := parseBody_header (t := t) hstate h hcut hcolon
          exact Or.inr ⟨_, b', rest, hb', Or.inr hstate, hrep, hlt⟩
        · obtain ⟨b', hb', -⟩ := parseBody_lastLine (t := t) hstate h hcut hcolon
          exact Or.inl ⟨true, _, b', hb', by simp⟩

/-! ### The loop -/

/-- With more rounds than there are bytes, the loop comes to its end, or fails on the way. -/
theorem parseWhile_ends (hc : c.Reads) (h : b.Represents q) {rounds : ℕ}
    (hrounds : q.length < rounds) :
    (∃ e, parseWhile t rounds ⟨true, true, c, b⟩ = .error e) ∨
      ∃ ok c' b', parseWhile t rounds ⟨true, true, c, b⟩ = .ok (some ⟨ok, false, c', b'⟩) ∧
        c'.state ≠ .kExpectBody := by
  -- induction on the rounds: one that goes on leaves fewer bytes
  induction rounds generalizing c b q with
  | zero => exact absurd hrounds (Nat.not_lt_zero _)
  | succ rounds ih =>
      rcases parseBody_cases (t := t) hc h with ⟨e, he⟩ | ⟨ok, c', b', hstop, hstate⟩ |
        ⟨c', b', q', hmore, hc', h', hlt⟩
      · left
        exact ⟨e, by rw [parseWhile_succ, he, error_bind]⟩
      · right
        exact ⟨ok, c', b', by rw [parseWhile_succ, hstop, ok_bind, parseWhile_done], hstate⟩
      · rw [parseWhile_succ, hmore, ok_bind]
        exact ih hc' h' (by omega)

theorem loopEnds_of_reads (hc : c.Reads) (h : b.Represents q) : LoopEnds t c b := by
  refine ⟨q.length + 1, ?_⟩
  rcases parseWhile_ends (t := t) hc h (Nat.lt_succ_self _) with ⟨e, he⟩ | ⟨ok, c', b', hend, -⟩
  · rw [loopStart, he]
    intro hnone
    cases hnone
  · rw [loopStart, hend]
    intro hnone
    cases hnone

/-- Where the loop goes on, it is between two lines. -/
def Goes (s : ParseLoop) : Prop :=
  s.hasMore = true → s.ok = true ∧ s.context.Reads ∧ ∃ q, s.buf.Represents q

/-- A round of a loop that is between two lines. -/
theorem Goes.round {s s' : ParseLoop} (hs : Goes s) (hround : Round t s s') :
    Goes s' ∧ (s'.hasMore = false ∨ s'.buf.readableBytes < s.buf.readableBytes) := by
  obtain ⟨hmore, hbody⟩ := hround
  obtain ⟨hok, hc, q, h⟩ := hs hmore
  obtain ⟨ok, hasMore, c, b⟩ := s
  simp only at hmore hok hc h
  subst hmore hok
  rcases parseBody_cases (t := t) hc h with ⟨e, he⟩ | ⟨ok, c', b', hstop, -⟩ |
    ⟨c', b', q', hgo, hc', h', hlt⟩
  · rw [he] at hbody
    cases hbody
  · rw [hstop] at hbody
    cases hbody
    exact ⟨nofun, Or.inl rfl⟩
  · rw [hgo] at hbody
    cases hbody
    refine ⟨fun _ => ⟨rfl, hc', q', h'⟩, Or.inr ?_⟩
    rw [h'.readableBytes_eq, h.readableBytes_eq]
    exact hlt

theorem progresses_of_reads (hc : c.Reads) (h : b.Represents q) : Progresses t c b := by
  intro s hreach s' hround
  have hs : Goes s := by
    clear hround
    -- induction on the rounds made so far
    induction hreach with
    | refl => exact fun _ => ⟨rfl, hc, q, h⟩
    | tail _ hround ih => exact (ih.round hround).1
  exact (hs.round hround).2

/-- In the state `kGotAll` the loop makes the same round for ever. -/
theorem parseWhile_gotAll (hc : c.state = .kGotAll) (b : Buffer) (rounds : ℕ) :
    parseWhile t rounds (c.loopStart b) = .ok none := by
  induction rounds with
  | zero => rfl
  | succ rounds ih =>
      have hround : parseBody t (c.loopStart b) = .ok (c.loopStart b) := by
        simp [parseBody, loopStart, hc]
      rw [loopStart, parseWhile_succ, ← loopStart, hround, ok_bind, ih]

theorem not_loopEnds_gotAll (hc : c.state = .kGotAll) (b : Buffer) : ¬LoopEnds t c b := by
  rintro ⟨rounds, h⟩
  exact h (parseWhile_gotAll hc b rounds)

/-- Such a call does not return. -/
theorem step_gotAll (hc : c.state = .kGotAll) (valid : b.Represents b.readable) :
    step c (.parse b t valid) = none := by
  have hnever := parseWhile_gotAll (t := t) hc b (b.readableBytes + 1)
  rw [loopStart] at hnever
  simp [step, parseRequest, hnever]

/-! ### Runs -/

/-- No call leads to the state without a branch of its own. -/
theorem step_keeps_reads {d : HttpContext} {call : ParserCall} (hc : c.state ≠ .kExpectBody)
    (hstep : step c call = some d) : d.state ≠ .kExpectBody := by
  cases call with
  | reset =>
      cases hstep
      exact nofun
  | parse b t h =>
      have hrounds : b.readable.length < b.readableBytes + 1 := by
        rw [h.readableBytes_eq]
        omega
      have hcases : c.Reads ∨ c.state = .kGotAll := by
        unfold Reads
        cases hstate : c.state <;> simp_all
      rcases hcases with hreads | hgot
      · rcases parseWhile_ends (t := t) hreads h hrounds with ⟨e, he⟩ | ⟨ok, c', b', hend, hstate⟩
        · simp [step, parseRequest, he] at hstep
        · simp [step, parseRequest, hend] at hstep
          exact hstep ▸ hstate
      · rw [step_gotAll hgot h] at hstep
        cases hstep

/-- Between two calls the parser is where its loop has a branch, or has the whole request. -/
theorem reads_or_gotAll {calls : List ParserCall}
    (h : Runs.exec step new calls = some c) : c.Reads ∨ c.state = .kGotAll := by
  have hbody : c.state ≠ .kExpectBody :=
    Runs.exec_invariant (fun _ _ _ hc hstep => step_keeps_reads hc hstep) (by decide) h
  unfold Reads
  cases hstate : c.state <;> simp_all

/-- **When the loop ends**: in every context that calls can lead to, and with every buffer, the
loop of the next call ends, by rounds that each stop it or shorten the buffer, exactly if the
parser does not have the whole request already. -/
theorem loopEnds_iff {calls : List ParserCall} (hrun : Runs.exec step new calls = some c)
    (h : b.Represents q) : LoopEnds t c b ∧ Progresses t c b ↔ c.state ≠ .kGotAll := by
  constructor
  · rintro ⟨hends, -⟩ hgot
    exact not_loopEnds_gotAll hgot b hends
  · intro hgot
    have hreads := (reads_or_gotAll hrun).resolve_right hgot
    exact ⟨loopEnds_of_reads hreads h, progresses_of_reads hreads h⟩

/-- A call with the whole request. -/
theorem gotAll_demo :
    (Runs.exec step new [.parseBytes (ascii "GET / HTTP/1.1\r\n\r\n")]).map (·.state) =
      some .kGotAll := by
  decide +kernel

theorem loopEnds_iff_demo :
    ∃ c, Runs.exec step new [.parseBytes (ascii "GET / HTTP/1.1\r\n\r\n"), .reset] = some c ∧
      LoopEnds 0 c (.holding (ascii "GET")) ∧ Progresses 0 c (.holding (ascii "GET")) := by
  have hdemo : (Runs.exec step new
      [.parseBytes (ascii "GET / HTTP/1.1\r\n\r\n"), .reset]).map (·.state) =
        some .kExpectRequestLine := by
    decide +kernel
  obtain ⟨c, hrun, hstate⟩ := Option.map_eq_some_iff.1 hdemo
  refine ⟨c, hrun, (loopEnds_iff hrun (Buffer.represents_holding _)).2 ?_⟩
  rw [hstate]
  exact nofun

/-- A parser that has the whole request, and is called again on an empty buffer. -/
theorem exists_not_loopEnds :
    ∃ c, Runs.exec step new [.parseBytes (ascii "GET / HTTP/1.1\r\n\r\n")] = some c ∧
      ¬LoopEnds 0 c (.holding []) := by
  obtain ⟨c, hrun, hstate⟩ := Option.map_eq_some_iff.1 gotAll_demo
  exact ⟨c, hrun, not_loopEnds_gotAll hstate _⟩

end

end HttpContext

end G5
