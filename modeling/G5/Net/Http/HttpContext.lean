/-
**Parsing requests from a buffer** (`src/net/http/HttpContext.h`, `HttpContext.cc`).

The parser keeps its state between calls, and a call goes on from there through the complete lines
of the buffer.  The loop of `parseRequest` does nothing in two of the four states, so it is run for
as many rounds as it is given, and a loop that is not over by then has no result.

Main definitions:

* `HttpContext`, `HttpContext.processRequestLine`, `HttpContext.parseRequest`;
* `HttpContext.Parses` — what a call does to the readable bytes, line by line.

Main results:

* `HttpContext.parseRequest_spec` — **a call returns, and does what `Parses` says**: the buffer is
  cut at each CR LF, no assertion of it fails, and the rounds suffice.
-/

import G5.Net.Buffer
import G5.Net.Http.HttpRequest

set_option relaxedAutoImplicit false
set_option autoImplicit false

namespace G5

open Region Search

inductive HttpRequestParseState
  | kExpectRequestLine
  | kExpectHeaders
  | kExpectBody
  | kGotAll
  deriving DecidableEq, Repr

structure HttpContext where
  state : HttpRequestParseState
  request : HttpRequest
  deriving DecidableEq

/-- The local variables of `parseRequest`, the context and the buffer. -/
structure ParseLoop where
  ok : Bool
  hasMore : Bool
  context : HttpContext
  buf : Buffer

/-- The characters the parser looks for. -/
def kSpace : Byte := 32
def kQuestion : Byte := 63
def kColon : Byte := 58

namespace HttpContext

/-! ### The functions -/

def new : HttpContext := ⟨.kExpectRequestLine, HttpRequest.new⟩

def gotAll (c : HttpContext) : Bool := c.state = .kGotAll

/-- The request is swapped with a new one. -/
def reset (_ : HttpContext) : HttpContext := ⟨.kExpectRequestLine, HttpRequest.new⟩

/-- `line` is the range from `begin` to `end`; the path and the query are set before the version
is looked at. -/
def processRequestLine (c : HttpContext) (line : List Byte) : Checked (Bool × HttpContext) :=
  let space := find line 0 line.length kSpace
  if space ≠ line.length then do
    let (known, request) ← c.request.setMethod (slice line 0 space)
    if known then
      let start := space + 1
      let space := find line start line.length kSpace
      if space ≠ line.length then
        let question := find line start space kQuestion
        let request :=
          if question ≠ space then
            (request.setPath (slice line start question)).setQuery (slice line question space)
          else
            request.setPath (slice line start space)
        let start := space + 1
        if line.length - start = 8 ∧ slice line start (line.length - 1) = ascii "HTTP/1." then
          if line.getLast? = some 49 then
            return (true, { c with request := request.setVersion .kHttp11 })
          else if line.getLast? = some 48 then
            return (true, { c with request := request.setVersion .kHttp10 })
          else
            return (false, { c with request := request })
        else
          return (false, { c with request := request })
      else
        return (false, { c with request := request })
    else
      return (false, { c with request := request })
  else
    return (false, c)

/-- The body of the loop of `parseRequest`. -/
def parseBody (receiveTime : ℤ) (s : ParseLoop) : Checked ParseLoop :=
  match s.context.state with
  | .kExpectRequestLine =>
      match s.buf.findCRLF with
      | some crlf => do
          let (ok, context) ← s.context.processRequestLine (slice s.buf.buffer s.buf.peek crlf)
          if ok then
            let context := { context with request := context.request.setReceiveTime receiveTime }
            let buf ← s.buf.retrieveUntil (crlf + 2)
            return { s with
              ok := ok
              context := { context with state := .kExpectHeaders }
              buf := buf }
          else
            return { s with ok := ok, hasMore := false, context := context }
      | none => return { s with hasMore := false }
  | .kExpectHeaders =>
      match s.buf.findCRLF with
      | some crlf => do
          let line := slice s.buf.buffer s.buf.peek crlf
          let colon := find s.buf.buffer s.buf.peek crlf kColon
          let s :=
            if colon ≠ crlf then
              { s with context := { s.context with
                  request := s.context.request.addHeader line (colon - s.buf.peek) } }
            else
              { s with context := { s.context with state := .kGotAll }, hasMore := false }
          let buf ← s.buf.retrieveUntil (crlf + 2)
          return { s with buf := buf }
      | none => return { s with hasMore := false }
  | .kExpectBody => return s
  | .kGotAll => return s

/-- The loop of `parseRequest`, for a number of rounds. -/
def parseWhile (receiveTime : ℤ) : ℕ → ParseLoop → Checked (Option ParseLoop)
  | 0, s => .ok (if s.hasMore then none else some s)
  | n + 1, s =>
      if s.hasMore then do
        let s ← parseBody receiveTime s
        parseWhile receiveTime n s
      else
        .ok (some s)

/-- A round that goes on takes at least two bytes, so that the rounds given suffice wherever any
number does. -/
def parseRequest (c : HttpContext) (buf : Buffer) (receiveTime : ℤ) :
    Checked (Option (Bool × HttpContext × Buffer)) := do
  let result ← parseWhile receiveTime (buf.readableBytes + 1) ⟨true, true, c, buf⟩
  return result.map fun s => (s.ok, s.context, s.buf)

/-! ### What a call does to the readable bytes -/

/-- `c.Parses t q ok c' q'`: from the context `c` and the readable bytes `q`, a call at the time `t`
returns `ok` and leaves the context `c'` and the bytes `q'`. -/
inductive Parses (t : ℤ) : HttpContext → List Byte → Bool → HttpContext → List Byte → Prop
  /-- the next line is not complete -/
  | wait {c : HttpContext} {q : List Byte}
      (hstate : c.state = .kExpectRequestLine ∨ c.state = .kExpectHeaders)
      (hcut : cut kCRLF q = none) : Parses t c q true c q
  | badRequest {c c' : HttpContext} {q line rest : List Byte}
      (hstate : c.state = .kExpectRequestLine) (hcut : cut kCRLF q = some (line, rest))
      (hline : c.processRequestLine line = .ok (false, c')) : Parses t c q false c' q
  | requestLine {c c₁ c' : HttpContext} {q line rest q' : List Byte} {ok : Bool}
      (hstate : c.state = .kExpectRequestLine) (hcut : cut kCRLF q = some (line, rest))
      (hline : c.processRequestLine line = .ok (true, c₁))
      (hrest : Parses t ⟨.kExpectHeaders, c₁.request.setReceiveTime t⟩ rest ok c' q') :
      Parses t c q ok c' q'
  | header {c c' : HttpContext} {q line rest q' : List Byte} {ok : Bool}
      (hstate : c.state = .kExpectHeaders) (hcut : cut kCRLF q = some (line, rest))
      (hcolon : kColon ∈ line)
      (hrest : Parses t { c with request := c.request.addHeader line (line.idxOf kColon) }
        rest ok c' q') :
      Parses t c q ok c' q'
  /-- a line without a colon ends the headers -/
  | lastLine {c : HttpContext} {q line rest : List Byte}
      (hstate : c.state = .kExpectHeaders) (hcut : cut kCRLF q = some (line, rest))
      (hcolon : kColon ∉ line) : Parses t c q true { c with state := .kGotAll } rest

section

variable {t : ℤ} {c c' : HttpContext} {b : Buffer} {q q' line rest : List Byte} {ok : Bool}

/-- The rest of the buffer is what `retrieveUntil` leaves behind a line. -/
theorem retrieveUntil_of_cut (h : b.Represents q) (hcut : cut kCRLF q = some (line, rest)) :
    ∃ b', b.retrieveUntil (b.peek + line.length + 2) = .ok b' ∧ b'.Represents rest := by
  obtain ⟨-, -, hfit, hrest⟩ := b.findCRLF_of_cut h hcut
  obtain ⟨b', hb', hrep, -⟩ := Buffer.retrieveUntil_spec h hfit
  rw [hrest] at hrep
  exact ⟨b', hb', hrep⟩

theorem parseBody_wait (hstate : c.state = .kExpectRequestLine ∨ c.state = .kExpectHeaders)
    (h : b.Represents q) (hcut : cut kCRLF q = none) :
    parseBody t ⟨true, true, c, b⟩ = .ok ⟨true, false, c, b⟩ := by
  have hfind := Buffer.findCRLF_of_cut_none h hcut
  rcases hstate with hstate | hstate <;> simp [parseBody, hstate, hfind]

theorem parseBody_badRequest (hstate : c.state = .kExpectRequestLine) (h : b.Represents q)
    (hcut : cut kCRLF q = some (line, rest))
    (hline : c.processRequestLine line = .ok (false, c')) :
    parseBody t ⟨true, true, c, b⟩ = .ok ⟨false, false, c', b⟩ := by
  obtain ⟨hfind, hslice, -, -⟩ := Buffer.findCRLF_of_cut h hcut
  simp [parseBody, hstate, hfind, hslice, hline]

theorem parseBody_requestLine (hstate : c.state = .kExpectRequestLine) (h : b.Represents q)
    (hcut : cut kCRLF q = some (line, rest))
    (hline : c.processRequestLine line = .ok (true, c')) :
    ∃ b', parseBody t ⟨true, true, c, b⟩ =
      .ok ⟨true, true, ⟨.kExpectHeaders, c'.request.setReceiveTime t⟩, b'⟩ ∧
        b'.Represents rest := by
  obtain ⟨hfind, hslice, -, -⟩ := Buffer.findCRLF_of_cut h hcut
  obtain ⟨b', hb', hrep⟩ := retrieveUntil_of_cut h hcut
  refine ⟨b', ?_, hrep⟩
  simp [parseBody, hstate, hfind, hslice, hline, hb']

theorem parseBody_header (hstate : c.state = .kExpectHeaders) (h : b.Represents q)
    (hcut : cut kCRLF q = some (line, rest)) (hcolon : kColon ∈ line) :
    ∃ b', parseBody t ⟨true, true, c, b⟩ =
      .ok ⟨true, true, { c with request := c.request.addHeader line (line.idxOf kColon) }, b'⟩ ∧
        b'.Represents rest := by
  obtain ⟨hfind, hslice, -, -⟩ := Buffer.findCRLF_of_cut h hcut
  obtain ⟨b', hb', hrep⟩ := retrieveUntil_of_cut h hcut
  have hlt : line.idxOf kColon < line.length := List.idxOf_lt_length_of_mem hcolon
  refine ⟨b', ?_, hrep⟩
  simp [parseBody, hstate, hfind, find, hslice, hb', Nat.ne_of_lt hlt]

theorem parseBody_lastLine (hstate : c.state = .kExpectHeaders) (h : b.Represents q)
    (hcut : cut kCRLF q = some (line, rest)) (hcolon : kColon ∉ line) :
    ∃ b', parseBody t ⟨true, true, c, b⟩ = .ok ⟨true, false, { c with state := .kGotAll }, b'⟩ ∧
      b'.Represents rest := by
  obtain ⟨hfind, hslice, -, -⟩ := Buffer.findCRLF_of_cut h hcut
  obtain ⟨b', hb', hrep⟩ := retrieveUntil_of_cut h hcut
  refine ⟨b', ?_, hrep⟩
  simp [parseBody, hstate, hfind, find, hslice, hb', List.idxOf_eq_length hcolon]

/-- A loop that is over has a result, whatever the rounds left. -/
theorem parseWhile_done (fuel : ℕ) :
    parseWhile t fuel ⟨ok, false, c, b⟩ = .ok (some ⟨ok, false, c, b⟩) := by
  cases fuel <;> rfl

theorem parseWhile_succ (fuel : ℕ) :
    parseWhile t (fuel + 1) ⟨ok, true, c, b⟩ =
      (parseBody t ⟨ok, true, c, b⟩ >>= parseWhile t fuel) := rfl

theorem length_lt_of_cut (hcut : cut kCRLF q = some (line, rest)) : rest.length < q.length := by
  obtain ⟨hne, -, rfl⟩ := cut_eq_some hcut
  have hlen := length_of_cut hcut
  rw [List.length_drop]
  have htwo : kCRLF.length = 2 := rfl
  omega

/-- The loop ends within as many rounds as there are readable bytes, and one more. -/
theorem parseWhile_spec (hparse : c.Parses t q ok c' q') {fuel : ℕ} (hfuel : q.length < fuel)
    (h : b.Represents q) :
    ∃ b', parseWhile t fuel ⟨true, true, c, b⟩ = .ok (some ⟨ok, false, c', b'⟩) ∧
      b'.Represents q' := by
  -- induction on the lines read; every line that is read shortens the buffer
  induction hparse generalizing fuel b with
  | wait hstate hcut =>
      obtain ⟨fuel, rfl⟩ := Nat.exists_eq_succ_of_ne_zero (Nat.ne_zero_of_lt hfuel)
      refine ⟨b, ?_, h⟩
      rw [parseWhile_succ, parseBody_wait hstate h hcut, ok_bind, parseWhile_done]
  | badRequest hstate hcut hline =>
      obtain ⟨fuel, rfl⟩ := Nat.exists_eq_succ_of_ne_zero (Nat.ne_zero_of_lt hfuel)
      refine ⟨b, ?_, h⟩
      rw [parseWhile_succ, parseBody_badRequest hstate h hcut hline, ok_bind, parseWhile_done]
  | requestLine hstate hcut hline _ ih =>
      obtain ⟨fuel, rfl⟩ := Nat.exists_eq_succ_of_ne_zero (Nat.ne_zero_of_lt hfuel)
      obtain ⟨b₁, hb₁, hrep⟩ := parseBody_requestLine (t := t) hstate h hcut hline
      have hlt := length_lt_of_cut hcut
      rw [parseWhile_succ, hb₁, ok_bind]
      exact ih (by omega) hrep
  | header hstate hcut hcolon _ ih =>
      obtain ⟨fuel, rfl⟩ := Nat.exists_eq_succ_of_ne_zero (Nat.ne_zero_of_lt hfuel)
      obtain ⟨b₁, hb₁, hrep⟩ := parseBody_header (t := t) hstate h hcut hcolon
      have hlt := length_lt_of_cut hcut
      rw [parseWhile_succ, hb₁, ok_bind]
      exact ih (by omega) hrep
  | lastLine hstate hcut hcolon =>
      obtain ⟨fuel, rfl⟩ := Nat.exists_eq_succ_of_ne_zero (Nat.ne_zero_of_lt hfuel)
      obtain ⟨b₁, hb₁, hrep⟩ := parseBody_lastLine (t := t) hstate h hcut hcolon
      refine ⟨b₁, ?_, hrep⟩
      rw [parseWhile_succ, hb₁, ok_bind, parseWhile_done]

/-- **A call returns, and does what `Parses` says.** -/
theorem parseRequest_spec (hparse : c.Parses t q ok c' q') (h : b.Represents q) :
    ∃ b', c.parseRequest b t = .ok (some (ok, c', b')) ∧ b'.Represents q' := by
  have hfuel : q.length < b.readableBytes + 1 := by
    rw [h.readableBytes_eq]
    omega
  obtain ⟨b', hb', hrep⟩ := parseWhile_spec hparse hfuel h
  refine ⟨b', ?_, hrep⟩
  rw [parseRequest, hb', ok_bind]
  rfl

/-- What a call does is determined. -/
theorem Parses.unique {c₂ : HttpContext} {q₂ : List Byte} {ok₂ : Bool}
    (h : c.Parses t q ok c' q') (h₂ : c.Parses t q ok₂ c₂ q₂) :
    ok = ok₂ ∧ c' = c₂ ∧ q' = q₂ := by
  obtain ⟨b, -, hrep, -⟩ := Buffer.append_spec (Buffer.represents_empty 0) q
  rw [List.nil_append] at hrep
  obtain ⟨b', hb', hrep'⟩ := parseRequest_spec h hrep
  obtain ⟨b₂, hb₂, hrep₂⟩ := parseRequest_spec h₂ hrep
  rw [hb'] at hb₂
  cases hb₂
  exact ⟨rfl, rfl, hrep'.readable_eq.symm.trans hrep₂.readable_eq⟩

end

end HttpContext

end G5
