/-
**Rejected request lines.**

A request line that is not valid stays in the buffer, and the next call reads it again.  The fields
are set while the line is read: a line that begins with a method and is rejected further on has set
the method by then, and the next line finds an assertion of `setMethod` that fails.

Main definitions:

* `HttpContext.Intact` — a call of a parser that waits for a request line fails no assertion, and
  changes nothing if it returns false;
* `HttpContext.NamesMethod`, `HttpContext.CleanLine` — the call does not meet a line that begins
  with a method and is not valid.

Main results:

* `HttpContext.processRequestLine_false` — what a rejected line has set;
* `HttpContext.intact_iff` — **one call**: it is harmless exactly when it meets no such line;
* `HttpContext.intact_exact` — **all calls**, in any order.
-/

import G5.Net.Http.Incremental
import G5.Net.Http.ParserRuns

set_option relaxedAutoImplicit false
set_option autoImplicit false

namespace G5

open Region Search

namespace HttpContext

/-! ### The claim and its condition -/

/-- Of two contexts, the state and the fields of the request line are the same. -/
structure SameLine (c d : HttpContext) : Prop where
  state_eq : d.state = c.state
  method_eq : d.request.method = c.request.method
  version_eq : d.request.version = c.request.version
  path_eq : d.request.path = c.request.path
  query_eq : d.request.query = c.request.query

/-- A call made where a request line is expected fails no assertion, and changes nothing if it
returns false. -/
def Intact (c : HttpContext) : ParserCall → Prop
  | .parse b t _ => c.state = .kExpectRequestLine →
      c.parseRequest b t ≠ .error .assertion ∧
        ∀ c' b', c.parseRequest b t = .ok (some (false, c', b')) → b' = b ∧ c.SameLine c'
  | .reset => True

/-- The line begins with a method and a space. -/
def NamesMethod (line : List Byte) : Prop :=
  ∃ m, m ≠ HttpRequest.Method.kInvalid ∧ m.name ++ [kSpace] <+: line

/-- A call made where a request line is expected does not find a complete line that begins with a
method but is not a valid request line. -/
def CleanLine (c : HttpContext) : ParserCall → Prop
  | .parse b _ _ => c.state = .kExpectRequestLine →
      ∀ line rest, cut kCRLF b.readable = some (line, rest) → NamesMethod line →
        ValidRequestLine line
  | .reset => True

/-! ### What a rejected line has set -/

section

variable {t : ℤ} {c c' : HttpContext} {b : Buffer} {q q' line rest : List Byte} {ok : Bool}

/-- The name at the beginning of a line is what stands before its first space. -/
theorem namesMethod_iff {name : List Byte} (hname : kSpace ∉ name) :
    NamesMethod (name ++ kSpace :: rest) ↔
      ∃ m, m ≠ HttpRequest.Method.kInvalid ∧ name = m.name := by
  constructor
  · rintro ⟨m, hm, tail, htail⟩
    refine ⟨m, hm, ?_⟩
    rw [List.append_assoc, List.singleton_append] at htail
    have hsplit := congrArg (List.takeWhile (· ≠ kSpace)) htail
    rw [takeWhile_ne (space_not_mem_name m), takeWhile_ne hname] at hsplit
    exact hsplit.symm
  · rintro ⟨m, hm, rfl⟩
    exact ⟨m, hm, rest, by rw [List.append_assoc, List.singleton_append]⟩

theorem not_namesMethod_of_no_space (h : kSpace ∉ line) : ¬NamesMethod line := by
  rintro ⟨m, -, tail, rfl⟩
  exact h (by simp)

/-- A name that `setMethod` does not know names no method. -/
theorem unnamed_of_setMethod {name : List Byte} {r : HttpRequest}
    (hr : r.method = .kInvalid) (hset : r.setMethod name = .ok (false, r)) :
    ¬∃ m, m ≠ HttpRequest.Method.kInvalid ∧ name = m.name := by
  rintro ⟨m, hm, rfl⟩
  rw [HttpRequest.setMethod_name hm hr] at hset
  cases hset

/-- **What a rejected line has set**: the method it begins with, or nothing. -/
theorem processRequestLine_false (hc : c.request.method = .kInvalid)
    (h : c.processRequestLine line = .ok (false, c')) :
    NamesMethod line ∧ c'.request.method ≠ .kInvalid ∨ ¬NamesMethod line ∧ c' = c := by
  rcases line_cases line with hno | ⟨name, rest, rfl, hname, hrest⟩ |
    ⟨name, target, tail, rfl, hname, htarget⟩
  · rw [processRequestLine_no_space c hno] at h
    cases h
    exact Or.inr ⟨not_namesMethod_of_no_space hno, rfl⟩
  · rw [processRequestLine_one_space c hname hrest] at h
    rw [namesMethod_iff hname]
    rcases setMethod_spec hc name with ⟨m, hm, hnamed, hset⟩ | hset
    · rw [hset] at h
      cases h
      exact Or.inl ⟨⟨m, hm, hnamed⟩, hm⟩
    · rw [hset] at h
      cases h
      exact Or.inr ⟨unnamed_of_setMethod hc hset, rfl⟩
  · rw [processRequestLine_parts c hname htarget] at h
    rw [namesMethod_iff hname]
    rcases setMethod_spec hc name with ⟨m, hm, hnamed, hset⟩ | hset
    · rw [hset, ok_bind] at h
      left
      refine ⟨⟨m, hm, hnamed⟩, ?_⟩
      -- the target is set behind the method, whether or not the version is one
      have hmethod : ∀ r : HttpRequest, (withTarget r target).method = r.method := by
        intro r
        unfold withTarget
        split <;> rfl
      cases hversion : versionOf? tail with
      | none =>
          simp only [afterMethod, if_true, hversion, pure_eq_ok, Except.ok.injEq, Prod.mk.injEq,
            true_and] at h
          rw [← h, hmethod]
          exact hm
      | some v => simp [afterMethod, hversion] at h
    · rw [hset] at h
      cases h
      exact Or.inr ⟨unnamed_of_setMethod hc hset, rfl⟩

/-! ### One call -/

/-- Where a parser can be between two calls, if no line it has rejected has set a method. -/
def Between (c : HttpContext) : Prop := c.Ready ∨ c.state = .kGotAll

/-- No method is set where a request line is expected. -/
theorem Between.ready (h : c.Between) (hstate : c.state = .kExpectRequestLine) :
    c.Ready ∧ c.request.method = .kInvalid := by
  have hready : c.Ready := by
    refine h.resolve_right ?_
    intro hgot
    rw [hstate] at hgot
    cases hgot
  refine ⟨hready, (hready.resolve_right ?_).2⟩
  intro hheaders
  rw [hstate] at hheaders
  cases hheaders

/-- Behind the request line no call returns false. -/
theorem Parses.true_of_headers (h : c.Parses t q ok c' q') (hstate : c.state = .kExpectHeaders) :
    ok = true := by
  induction h with
  | wait | lastLine => rfl
  | badRequest hline | requestLine hline =>
      rw [hline] at hstate
      cases hstate
  | header _ _ _ _ ih => exact ih hstate

theorem parseRequest_badRequest (hstate : c.state = .kExpectRequestLine) (h : b.Represents q)
    (hcut : cut kCRLF q = some (line, rest))
    (hline : c.processRequestLine line = .ok (false, c')) :
    c.parseRequest b t = .ok (some (false, c', b)) := by
  rw [parseRequest, parseWhile_succ, parseBody_badRequest hstate h hcut hline, ok_bind,
    parseWhile_done, ok_bind]
  rfl

/-- **A call returns true, or it has met a line that it rejects.** -/
theorem parseRequest_cases (hc : c.Ready) (h : b.Represents q) :
    (∃ c' b', c.parseRequest b t = .ok (some (true, c', b')) ∧ c'.Between ∧
      (c.state = .kExpectRequestLine → ∀ line rest, cut kCRLF q = some (line, rest) →
        ∃ c₁, c.processRequestLine line = .ok (true, c₁))) ∨
    ∃ line rest c', c.state = .kExpectRequestLine ∧ cut kCRLF q = some (line, rest) ∧
      c.processRequestLine line = .ok (false, c') ∧
      c.parseRequest b t = .ok (some (false, c', b)) := by
  obtain ⟨ok, c', q', hparse, hready⟩ := hc.parses t q
  obtain ⟨b', hb', -⟩ := parseRequest_spec hparse h
  cases ok with
  | true =>
      left
      refine ⟨c', b', hb', ?_, ?_⟩
      · by_cases hgot : c'.state = .kGotAll
        · exact Or.inr hgot
        · exact Or.inl (hready rfl hgot).1
      · intro hstate line rest hcut
        cases hparse with
        | wait _ hcut' =>
            rw [hcut] at hcut'
            cases hcut'
        | requestLine _ hcut' hline _ =>
            rw [hcut] at hcut'
            cases hcut'
            exact ⟨_, hline⟩
        | header hstate' | lastLine hstate' =>
            rw [hstate] at hstate'
            cases hstate'
  | false =>
      right
      cases hparse with
      | badRequest hstate hcut hline =>
          exact ⟨_, _, _, hstate, hcut, hline, parseRequest_badRequest hstate h hcut hline⟩
      | requestLine _ _ _ hrest => cases hrest.true_of_headers rfl
      | header hstate _ _ hrest => cases hrest.true_of_headers hstate

/-- A call that returns true is harmless, and has met a valid request line or none. -/
theorem intact_of_true (hmethod : c.request.method = .kInvalid) {b' : Buffer}
    (valid : b.Represents b.readable) (htrue : c.parseRequest b t = .ok (some (true, c', b')))
    (haccepts : ∀ line rest, cut kCRLF b.readable = some (line, rest) →
      ∃ c₁, c.processRequestLine line = .ok (true, c₁)) :
    Intact c (.parse b t valid) ∧ CleanLine c (.parse b t valid) := by
  constructor
  · intro _
    rw [htrue]
    constructor
    · intro herror
      cases herror
    · intro c₁ b₁ h₁
      cases h₁
  · intro _ line rest hcut _
    exact (processRequestLine_true_iff hmethod).1 (haccepts line rest hcut)

/-- A call that rejects a line is harmless exactly if that names no method. -/
theorem intact_iff_of_false (hstate : c.state = .kExpectRequestLine)
    (hmethod : c.request.method = .kInvalid) (valid : b.Represents b.readable)
    (hcut : cut kCRLF b.readable = some (line, rest))
    (hline : c.processRequestLine line = .ok (false, c'))
    (hfalse : c.parseRequest b t = .ok (some (false, c', b))) :
    Intact c (.parse b t valid) ↔ CleanLine c (.parse b t valid) := by
  have hinvalid : ¬ValidRequestLine line := by
    intro hvalid
    obtain ⟨c₁, hc₁⟩ := (processRequestLine_true_iff hmethod).2 hvalid
    rw [hline] at hc₁
    cases hc₁
  simp only [Intact, CleanLine, hfalse, hcut]
  rcases processRequestLine_false hmethod hline with ⟨hnames, hset⟩ | ⟨hnames, rfl⟩
  · constructor
    · intro hintact
      have hsame := ((hintact hstate).2 c' b rfl).2
      rw [← hmethod, ← hsame.method_eq] at hset
      exact absurd rfl hset
    · intro hclean
      exact absurd (hclean hstate line rest rfl hnames) hinvalid
  · constructor
    · intro _ _ line' rest' hcut' hnames'
      cases hcut'
      exact absurd hnames' hnames
    · intro _ _
      constructor
      · intro herror
        cases herror
      · intro c₁ b₁ h₁
        cases h₁
        exact ⟨rfl, rfl, rfl, rfl, rfl, rfl⟩

/-- **One call**: it is harmless exactly when it does not meet a line that begins with a method and
is not valid. -/
theorem intact_iff (hc : c.Between) (call : ParserCall) : Intact c call ↔ CleanLine c call := by
  cases call with
  | reset => exact Iff.rfl
  | parse b t h =>
      by_cases hstate : c.state = .kExpectRequestLine
      · obtain ⟨hready, hmethod⟩ := hc.ready hstate
        rcases parseRequest_cases (t := t) hready h with ⟨c', b', htrue, -, haccepts⟩ |
          ⟨line, rest, c', -, hcut, hline, hfalse⟩
        · obtain ⟨hintact, hclean⟩ := intact_of_true hmethod h htrue (haccepts hstate)
          exact iff_of_true hintact hclean
        · exact intact_iff_of_false hstate hmethod h hcut hline hfalse
      · exact iff_of_true (fun he => absurd he hstate) (fun he => absurd he hstate)

/-- A harmless call leaves the parser where it can go on. -/
theorem between_of_step {d : HttpContext} {call : ParserCall} (hc : c.Between)
    (hstep : step c call = some d) (hintact : Intact c call) : d.Between := by
  cases call with
  | reset =>
      cases hstep
      exact Or.inl ready_new
  | parse b t h =>
      rcases hc with hready | hgot
      · rcases parseRequest_cases (t := t) hready h with ⟨c', b', hok, hc', -⟩ |
          ⟨line, rest, c', hstate, -, -, hfalse⟩
        · simp only [HttpContext.step, hok, Option.some.injEq] at hstep
          exact hstep ▸ hc'
        · obtain ⟨-, hmethod⟩ := Between.ready (Or.inl hready) hstate
          obtain ⟨-, hsame⟩ := (hintact hstate).2 c' b hfalse
          simp only [HttpContext.step, hfalse, Option.some.injEq] at hstep
          exact hstep ▸ Or.inl (Or.inl ⟨hsame.state_eq.trans hstate,
            hsame.method_eq.trans hmethod⟩)
      · rw [step_gotAll hgot h] at hstep
        cases hstep

/-! ### All calls -/

/-- **All calls**: of the calls of a parser, in any order and with any buffers, every one made
where a request line is expected is harmless, exactly if none of these meets a complete line that
begins with a method and is not valid. -/
theorem intact_exact (calls : List ParserCall) :
    Runs.EveryStep step Intact new calls ↔ Runs.EveryStep step CleanLine new calls :=
  Runs.everyStep_congr (I := Between)
    (fun _ _ _ hc hstep hintact => between_of_step hc hstep hintact)
    (fun _ call hc => intact_iff hc call) (Or.inl ready_new) calls

/-- A line that is rejected further on, and read again by the next call, fails an assertion
there. -/
theorem exists_rejected_twice :
    ∃ c, Runs.exec step new [.parseBytes (ascii "GET /x FOO\r\n")] = some c ∧
      c.state = .kExpectRequestLine ∧
      c.parseRequest (.holding (ascii "GET /x FOO\r\n")) Timestamp.invalid = .error .assertion ∧
      ¬Intact c (.parseBytes (ascii "GET /x FOO\r\n")) := by
  have hdemo : (Runs.exec step new [.parseBytes (ascii "GET /x FOO\r\n")]).map (fun c =>
      (c.state, c.parseRequest (.holding (ascii "GET /x FOO\r\n")) Timestamp.invalid)) =
        some (.kExpectRequestLine, .error .assertion) := by
    decide +kernel
  obtain ⟨c, hrun, hc⟩ := Option.map_eq_some_iff.1 hdemo
  obtain ⟨hstate, hfails⟩ := Prod.mk.inj hc
  refine ⟨c, hrun, hstate, hfails, ?_⟩
  intro hintact
  exact (hintact hstate).1 hfails

end

end HttpContext

end G5
