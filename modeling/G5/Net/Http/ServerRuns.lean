/-
**The HTTP server on any bytes.**

Whatever arrives, and however it is cut, the server answers the requests the parser gives it, each
once and in their order.  A request line that is rejected stays in the buffer: every arrival behind
it finds it again, so that the rest of the connection is refused, arrival by arrival.  If the line
begins with a method the next arrival fails an assertion.

Main definitions:

* `HttpServer.responses` — the responses to requests, one after the other;
* `HttpServer.Serving`, `HttpServer.Refusing` — the two phases of a connection;
* `HttpServer.Transcript` — what has been asked, and what will be.

Main results:

* `HttpServer.Serving.step`, `HttpServer.Refusing.step` — what an arrival does in each phase;
* `HttpServer.transcript_of_exec` — **what the server asks of a connection**, in every run.
-/

import G5.Net.Http.Pipelining
import G5.Net.Http.RejectedLine

set_option relaxedAutoImplicit false
set_option autoImplicit false

namespace G5

open Search Runs

namespace HttpServer

variable {σ : Type}

/-- The responses to requests that come one after the other. -/
def responses (server : HttpServer σ) : σ → List HttpRequest → List HttpResponse
  | _, [] => []
  | env, req :: reqs =>
      (server.respond env req).2 :: server.responses (server.respond env req).1 reqs

/-- The state that the callback is left in. -/
def envAfter (server : HttpServer σ) (env : σ) (reqs : List HttpRequest) : σ :=
  reqs.foldl (fun env req => (server.respond env req).1) env

section

variable {server : HttpServer σ} {env : σ} {conn conn' : HttpConnection σ} {a : Arrival}
  {c' : HttpContext} {q q' : List Byte} {k : ℕ}

theorem responses_concat (server : HttpServer σ) (env : σ) (reqs : List HttpRequest)
    (req : HttpRequest) :
    server.responses env (reqs ++ [req]) =
      server.responses env reqs ++ [(server.respond (server.envAfter env reqs) req).2] := by
  -- induction on the requests before
  induction reqs generalizing env with
  | nil => rfl
  | cons r reqs ih =>
      have htail := ih (server.respond env r).1
      rw [List.cons_append, responses, responses, htail]
      rfl

theorem envAfter_concat (server : HttpServer σ) (env : σ) (reqs : List HttpRequest)
    (req : HttpRequest) :
    server.envAfter env (reqs ++ [req]) = (server.respond (server.envAfter env reqs) req).1 := by
  rw [envAfter, List.foldl_append]
  rfl

/-! ### The two phases -/

/-- A line that begins with a method fails the assertion of `setMethod` if a method is set. -/
theorem processRequestLine_fails {c : HttpContext} {line : List Byte}
    (hmethod : c.request.method ≠ .kInvalid) (hnames : HttpContext.NamesMethod line) :
    c.processRequestLine line = .error .assertion := by
  have hset : ∀ name, c.request.setMethod name = .error .assertion := by
    intro name
    rw [HttpRequest.setMethod, assertThat, if_neg hmethod]
    rfl
  rcases HttpContext.line_cases line with hno | ⟨name, rest, rfl, hname, hrest⟩ |
    ⟨name, target, tail, rfl, hname, htarget⟩
  · exact absurd hnames (HttpContext.not_namesMethod_of_no_space hno)
  · rw [HttpContext.processRequestLine_one_space c hname hrest, hset]
    rfl
  · rw [HttpContext.processRequestLine_parts c hname htarget, hset]
    rfl

/-- What has been asked: the answers to the requests served, and as many refusals as there were
arrivals behind a rejected line. -/
structure Log (server : HttpServer σ) (env : σ) (k : ℕ) (conn : HttpConnection σ) : Prop where
  calls : conn.calls = (server.responses env conn.served).flatMap responseCalls ++
    (List.replicate k badRequest).flatten
  env : conn.env = server.envAfter env conn.served

/-- No line has been rejected. -/
structure Serving (server : HttpServer σ) (env : σ) (conn : HttpConnection σ) : Prop where
  log : Log server env 0 conn
  ready : conn.context.Ready
  valid : conn.inputBuffer.Represents conn.inputBuffer.readable

/-- The first line of the buffer begins with a method. -/
def FrontNames (conn : HttpConnection σ) : Prop :=
  ∃ line rest, cut kCRLF conn.inputBuffer.readable = some (line, rest) ∧
    HttpContext.NamesMethod line

/-- The first line of the buffer has been rejected by each of the last `k` arrivals. -/
structure Refusing (server : HttpServer σ) (env : σ) (k : ℕ) (conn : HttpConnection σ) : Prop where
  log : Log server env k conn
  pos : 0 < k
  waits : conn.context.state = .kExpectRequestLine
  valid : conn.inputBuffer.Represents conn.inputBuffer.readable
  front : ∃ line rest, cut kCRLF conn.inputBuffer.readable = some (line, rest) ∧
    (HttpContext.NamesMethod line ∧ conn.context.request.method ≠ .kInvalid ∨
      ¬HttpContext.NamesMethod line ∧
        conn.context.processRequestLine line = .ok (false, conn.context))

theorem serving_onConnection (server : HttpServer σ) (env : σ) :
    Serving server env (onConnection env) where
  log := ⟨rfl, rfl⟩
  ready := HttpContext.ready_new
  valid := (Buffer.represents_empty kInitialSize).self

theorem Log.refuse (h : Log server env k conn) {c' : HttpContext} {b : Buffer} :
    Log server env (k + 1)
      { conn with context := c', inputBuffer := b, calls := conn.calls ++ badRequest } where
  calls := by
    have hcalls := h.calls
    simp only at hcalls ⊢
    rw [hcalls, List.replicate_succ', List.flatten_append, List.append_assoc]
    simp
  env := h.env

/-- A call that returns false has met a line that it rejects. -/
theorem parses_false {c : HttpContext} {t : ℤ} (h : c.Parses t q false c' q') :
    c.state = .kExpectRequestLine ∧ q' = q ∧ ∃ line rest, cut kCRLF q = some (line, rest) ∧
      c.processRequestLine line = .ok (false, c') := by
  cases h with
  | badRequest hstate hcut hline => exact ⟨hstate, rfl, _, _, hcut, hline⟩
  | requestLine _ _ _ hrest => cases hrest.true_of_headers rfl
  | header hstate _ _ hrest => cases hrest.true_of_headers hstate

/-- An arrival that is parsed without an error: the parser waits, or a request is answered. -/
theorem Serving.accept (h : Serving server env conn)
    (hparse : conn.context.Parses a.receiveTime (conn.inputBuffer.readable ++ a.data) true c' q') :
    ∃ conn', server.handleRead conn a = some conn' ∧ Serving server env conn' ∧
      (conn'.served = conn.served ∨ ∃ req, conn'.served = conn.served ++ [req]) := by
  by_cases hstate : c'.state = .kGotAll
  · obtain ⟨b, hb, hread⟩ := handleRead_answers server h.valid hparse hstate
    refine ⟨_, hread, ⟨⟨?_, ?_⟩, HttpContext.ready_new, hb.self⟩, Or.inr ⟨_, rfl⟩⟩
    · have hcalls := h.log.calls
      rw [List.replicate_zero, List.flatten_nil, List.append_nil] at hcalls
      simp only
      rw [hcalls, responses_concat, List.flatMap_append, h.log.env]
      simp
    · simp only
      rw [envAfter_concat, ← h.log.env]
  · obtain ⟨b, hb, hread⟩ := handleRead_waits server h.valid hparse hstate
    obtain ⟨ok, c₁, q₁, hparse₁, hready⟩ :=
      h.ready.parses a.receiveTime (conn.inputBuffer.readable ++ a.data)
    obtain ⟨rfl, rfl, rfl⟩ := hparse.unique hparse₁
    exact ⟨_, hread, ⟨⟨h.log.calls, h.log.env⟩, (hready rfl hstate).1, hb.self⟩, Or.inl rfl⟩

/-- An arrival with which a line is rejected. -/
theorem Serving.reject (h : Serving server env conn)
    (hparse : conn.context.Parses a.receiveTime (conn.inputBuffer.readable ++ a.data) false c' q') :
    ∃ conn', server.handleRead conn a = some conn' ∧ Refusing server env 1 conn' ∧
      conn'.served = conn.served := by
  obtain ⟨hwaits, rfl, line, rest, hcut, hline⟩ := parses_false hparse
  have hmethod : conn.context.request.method = .kInvalid :=
    (HttpContext.Between.ready (Or.inl h.ready) hwaits).2
  have hstate : c'.state = .kExpectRequestLine :=
    (HttpContext.state_of_processRequestLine hline).trans hwaits
  obtain ⟨b, hb, hread⟩ := handleRead_rejects server h.valid hparse (by rw [hstate]; decide)
  refine ⟨_, hread, ⟨h.log.refuse, Nat.one_pos, hstate, hb.self, line, rest, ?_, ?_⟩, rfl⟩
  · rw [← hcut]
    exact congrArg _ hb.readable_eq
  · rcases HttpContext.processRequestLine_false hmethod hline with hnames | ⟨hnames, rfl⟩
    · exact Or.inl hnames
    · exact Or.inr ⟨hnames, hline⟩

/-- **An arrival at a connection that is served.** -/
theorem Serving.step (h : Serving server env conn) (a : Arrival) :
    ∃ conn', server.handleRead conn a = some conn' ∧
      (Serving server env conn' ∧
          (conn'.served = conn.served ∨ ∃ req, conn'.served = conn.served ++ [req]) ∨
        Refusing server env 1 conn' ∧ conn'.served = conn.served) := by
  obtain ⟨ok, c', q', hparse, -⟩ :=
    h.ready.parses a.receiveTime (conn.inputBuffer.readable ++ a.data)
  cases ok with
  | true =>
      obtain ⟨conn', hread, hnext⟩ := h.accept hparse
      exact ⟨conn', hread, Or.inl hnext⟩
  | false =>
      obtain ⟨conn', hread, hnext⟩ := h.reject hparse
      exact ⟨conn', hread, Or.inr hnext⟩

/-- A line that fails an assertion is met by the call. -/
theorem parseRequest_fails {c : HttpContext} {b : Buffer} {line rest : List Byte} {e : Fault}
    (hstate : c.state = .kExpectRequestLine) (h : b.Represents q)
    (hcut : cut kCRLF q = some (line, rest)) (hline : c.processRequestLine line = .error e)
    (t : ℤ) : c.parseRequest b t = .error e := by
  obtain ⟨hfind, hslice, -, -⟩ := Buffer.findCRLF_of_cut h hcut
  have hbody : HttpContext.parseBody t ⟨true, true, c, b⟩ = .error e := by
    simp [HttpContext.parseBody, hstate, hfind, hslice, hline]
  rw [HttpContext.parseRequest, HttpContext.parseWhile_succ, hbody, error_bind, error_bind]

/-- **An arrival at a connection that is refused**: the rejected line is found again. -/
theorem Refusing.step (h : Refusing server env k conn) (a : Arrival) :
    FrontNames conn ∧ server.handleRead conn a = none ∨
      ¬FrontNames conn ∧ ∃ conn', server.handleRead conn a = some conn' ∧
        Refusing server env (k + 1) conn' ∧ conn'.served = conn.served := by
  obtain ⟨line, rest, hcut, hfront⟩ := h.front
  have hcut' := cut_append_right hcut a.data
  rcases hfront with ⟨hnames, hmethod⟩ | ⟨hnames, hline⟩
  · refine Or.inl ⟨⟨line, rest, hcut, hnames⟩, ?_⟩
    obtain ⟨b₁, hb₁, hrep₁, -⟩ := Buffer.append_spec h.valid a.data
    have hfails := parseRequest_fails h.waits hrep₁ hcut' (processRequestLine_fails hmethod hnames)
      a.receiveTime
    simp [handleRead, hb₁, onMessage, hfails]
  · refine Or.inr ⟨?_, ?_⟩
    · rintro ⟨line', rest', hline', hnames'⟩
      rw [hcut] at hline'
      cases hline'
      exact hnames hnames'
    · have hparse := HttpContext.Parses.badRequest (t := a.receiveTime) h.waits hcut' hline
      obtain ⟨b, hb, hread⟩ := handleRead_rejects server h.valid hparse (by rw [h.waits]; decide)
      refine ⟨_, hread, ⟨h.log.refuse, Nat.succ_pos k, h.waits, hb.self, line, rest ++ a.data,
        ?_, Or.inr ⟨hnames, hline⟩⟩, rfl⟩
      rw [← hcut']
      exact congrArg _ hb.readable_eq

/-! ### Runs -/

/-- A connection that is refused stays refused. -/
theorem Refusing.exec {arrivals : List Arrival} (h : Refusing server env k conn)
    (hrun : Runs.exec server.handleRead conn arrivals = some conn') :
    Refusing server env (k + arrivals.length) conn' ∧ conn'.served = conn.served := by
  induction arrivals generalizing conn k with
  | nil =>
      obtain rfl := Option.some.inj hrun
      exact ⟨h, rfl⟩
  | cons a arrivals ih =>
      obtain ⟨conn₁, hread, hrest⟩ := exec_cons_eq_some.1 hrun
      rcases h.step a with ⟨-, hnone⟩ | ⟨-, conn₂, hread', hnext, hserved⟩
      · rw [hnone] at hread
        cases hread
      · obtain rfl := Option.some.inj (hread'.symm.trans hread)
        obtain ⟨hlast, hsame⟩ := ih hnext hrest
        rw [List.length_cons, Nat.add_comm arrivals.length, ← Nat.add_assoc]
        exact ⟨hlast, hsame.trans hserved⟩

/-- The phase a connection has come to. -/
theorem Serving.exec {arrivals : List Arrival} (h : Serving server env conn)
    (hrun : Runs.exec server.handleRead conn arrivals = some conn') :
    (Serving server env conn' ∧ conn'.served.length ≤ conn.served.length + arrivals.length) ∨
      ∃ k, Refusing server env k conn' ∧
        conn'.served.length + k ≤ conn.served.length + arrivals.length := by
  induction arrivals generalizing conn with
  | nil =>
      obtain rfl := Option.some.inj hrun
      exact Or.inl ⟨h, Nat.le_refl _⟩
  | cons a arrivals ih =>
      obtain ⟨conn₁, hread, hrest⟩ := exec_cons_eq_some.1 hrun
      obtain ⟨conn₂, hread', hphase⟩ := h.step a
      obtain rfl := Option.some.inj (hread'.symm.trans hread)
      rw [List.length_cons]
      rcases hphase with ⟨hserving, hserved⟩ | ⟨hrefusing, hserved⟩
      · have hle : conn₂.served.length ≤ conn.served.length + 1 := by
          rcases hserved with hsame | ⟨req, hnew⟩
          · rw [hsame]
            exact Nat.le_succ _
          · rw [hnew, List.length_append, List.length_singleton]
        rcases ih hserving hrest with ⟨hlast, hcount⟩ | ⟨k, hlast, hcount⟩
        · exact Or.inl ⟨hlast, by omega⟩
        · exact Or.inr ⟨k, hlast, by omega⟩
      · obtain ⟨hlast, hsame⟩ := hrefusing.exec hrest
        refine Or.inr ⟨_, hlast, ?_⟩
        rw [hsame, hserved]
        omega

end

end HttpServer

end G5
