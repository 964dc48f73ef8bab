/-
**A request that arrives in pieces.**

The bytes of a connection arrive in pieces cut anywhere, and the parser is called after each piece
with what is in the buffer.  It reads the lines that are complete and leaves the rest, so that a
later call goes on where it stopped: what it makes of the pieces is what a single call makes of all
the bytes.

Main definitions:

* `HttpContext.parsePieces` — a call of `parseRequest` after each piece, up to the one that ends
  the parse;
* `HttpContext.Alike` — two contexts that differ at most in the time the request was received.

Main results:

* `HttpContext.Ready.parses` — from where a parse can be, a call returns;
* `HttpContext.Parses.append_ended`, `HttpContext.Parses.append_waiting` — a call with more bytes
  behind the ones it had;
* `HttpContext.parsePieces_eq_parseRequest` — **the pieces are parsed like the whole**.
-/

import G5.Net.Http.HttpServer
import G5.Net.Http.RequestLine

set_option relaxedAutoImplicit false
set_option autoImplicit false

namespace G5

open Search

namespace HttpContext

/-- The pieces are appended in order, and `parseRequest` is called after each, up to the first call
that returns false or has the whole request.  The pieces that are left are returned. -/
def parsePieces (c : HttpContext) (buf : Buffer) :
    List Arrival → Checked (Option (Bool × HttpContext × Buffer × List Arrival))
  | [] => .ok (some (true, c, buf, []))
  | a :: rest => do
      let buf ← buf.append a.data
      match ← c.parseRequest buf a.receiveTime with
      | none => return none
      | some (ok, c, buf) =>
          if ok = false ∨ c.gotAll then return some (ok, c, buf, rest)
          else c.parsePieces buf rest

/-- The contexts differ at most in the time the request was received. -/
structure Alike (c d : HttpContext) : Prop where
  state_eq : c.state = d.state
  method_eq : c.request.method = d.request.method
  version_eq : c.request.version = d.request.version
  path_eq : c.request.path = d.request.path
  query_eq : c.request.query = d.request.query
  headers_eq : c.request.headers = d.request.headers

/-- Where a parse can be between two calls. -/
def Ready (c : HttpContext) : Prop :=
  c.state = .kExpectRequestLine ∧ c.request.method = .kInvalid ∨ c.state = .kExpectHeaders

theorem ready_new : new.Ready := Or.inl ⟨rfl, rfl⟩

/-! ### The time of a request -/

/-- The context with another time. -/
def withTime (c : HttpContext) (t : ℤ) : HttpContext := ⟨c.state, c.request.setReceiveTime t⟩

section

variable {c c' d d' : HttpContext} {t t' : ℤ} {line q q' p more : List Byte} {ok ok' : Bool}

theorem alike_withTime (c : HttpContext) (t : ℤ) : c.Alike (c.withTime t) :=
  ⟨rfl, rfl, rfl, rfl, rfl, rfl⟩

theorem Alike.trans (h : c.Alike d) (h' : d.Alike d') : c.Alike d' :=
  ⟨h.state_eq.trans h'.state_eq, h.method_eq.trans h'.method_eq, h.version_eq.trans h'.version_eq,
    h.path_eq.trans h'.path_eq, h.query_eq.trans h'.query_eq, h.headers_eq.trans h'.headers_eq⟩

theorem Alike.eq_withTime (h : c.Alike d) : d = c.withTime d.request.receiveTime := by
  obtain ⟨state, method, version, path, query, time, headers⟩ := c
  obtain ⟨state', method', version', path', query', time', headers'⟩ := d
  obtain ⟨h₁, h₂, h₃, h₄, h₅, h₆⟩ := h
  simp only at h₁ h₂ h₃ h₄ h₅ h₆
  subst h₁ h₂ h₃ h₄ h₅ h₆
  rfl

theorem setMethod_withTime (r : HttpRequest) (t : ℤ) (name : List Byte) :
    (r.setReceiveTime t).setMethod name =
      (r.setMethod name).map fun p => (p.1, p.2.setReceiveTime t) := by
  unfold HttpRequest.setMethod
  by_cases hr : r.method = .kInvalid
  · have hr' : (r.setReceiveTime t).method = .kInvalid := hr
    rw [assertThat_pos hr, assertThat_pos hr']
    rfl
  · have hfail : assertThat (r.method = .kInvalid) = .error .assertion := if_neg hr
    have hfail' : assertThat ((r.setReceiveTime t).method = .kInvalid) = .error .assertion :=
      if_neg hr
    rw [hfail, hfail']
    rfl

theorem afterMethod_withTime (c : HttpContext) (t : ℤ) (target tail : List Byte) (known : Bool)
    (r : HttpRequest) :
    (c.withTime t).afterMethod target tail known (r.setReceiveTime t) =
      ((c.afterMethod target tail known r).1,
        (c.afterMethod target tail known r).2.withTime t) := by
  have htarget : withTarget (r.setReceiveTime t) target =
      (withTarget r target).setReceiveTime t := by
    unfold withTarget
    split <;> rfl
  cases known with
  | false => rfl
  | true =>
      unfold afterMethod
      cases hversion : versionOf? tail with
      | none =>
          simp only [if_true, htarget]
          rfl
      | some v =>
          simp only [if_true, htarget]
          rfl

/-- A request line is read without a look at the time. -/
theorem processRequestLine_withTime (c : HttpContext) (t : ℤ) (line : List Byte) :
    (c.withTime t).processRequestLine line =
      (c.processRequestLine line).map fun p => (p.1, p.2.withTime t) := by
  rcases line_cases line with hno | ⟨name, rest, rfl, hname, hrest⟩ |
    ⟨name, target, tail, rfl, hname, htarget⟩
  · rw [processRequestLine_no_space _ hno, processRequestLine_no_space _ hno]
    rfl
  · rw [processRequestLine_one_space _ hname hrest, processRequestLine_one_space _ hname hrest]
    unfold withTime
    rw [setMethod_withTime]
    cases c.request.setMethod name with
    | error e => rfl
    | ok p => rfl
  · rw [processRequestLine_parts _ hname htarget, processRequestLine_parts _ hname htarget]
    have hset : (c.withTime t).request.setMethod name =
        (c.request.setMethod name).map fun p => (p.1, p.2.setReceiveTime t) :=
      setMethod_withTime c.request t name
    rw [hset]
    cases c.request.setMethod name with
    | error e => rfl
    | ok p => exact congrArg _ (afterMethod_withTime c t target tail p.1 p.2)

/-- **A call at another time** does the same. -/
theorem Parses.retime (h : c.Parses t q ok c' q') (hcd : c.Alike d) (t' : ℤ) :
    ∃ d', d.Parses t' q ok d' q' ∧ c'.Alike d' := by
  -- induction on the lines read
  induction h generalizing d with
  | wait hstate hcut =>
      rw [hcd.state_eq] at hstate
      exact ⟨d, .wait hstate hcut, hcd⟩
  | @badRequest c c' q line rest hstate hcut hline =>
      have hline' := processRequestLine_withTime c d.request.receiveTime line
      rw [hline, ← hcd.eq_withTime] at hline'
      rw [hcd.state_eq] at hstate
      exact ⟨_, .badRequest hstate hcut hline', alike_withTime c' _⟩
  | @requestLine c c₁ c' q line rest q' ok hstate hcut hline _ ih =>
      have hline' := processRequestLine_withTime c d.request.receiveTime line
      rw [hline, ← hcd.eq_withTime] at hline'
      rw [hcd.state_eq] at hstate
      obtain ⟨d', hrest, hd'⟩ := ih (d := ⟨.kExpectHeaders, c₁.request.setReceiveTime t'⟩)
        ⟨rfl, rfl, rfl, rfl, rfl, rfl⟩
      exact ⟨d', .requestLine hstate hcut hline' hrest, hd'⟩
  | @header c c' q line rest q' ok hstate hcut hcolon _ ih =>
      have hd := hcd.eq_withTime
      rw [hcd.state_eq] at hstate
      obtain ⟨d', hrest, hd'⟩ := ih
        (d := { d with request := d.request.addHeader line (line.idxOf kColon) })
        (by rw [hd]; exact ⟨rfl, rfl, rfl, rfl, rfl, rfl⟩)
      exact ⟨d', .header hstate hcut hcolon hrest, hd'⟩
  | lastLine hstate hcut hcolon =>
      have hd := hcd.eq_withTime
      rw [hcd.state_eq] at hstate
      exact ⟨_, .lastLine hstate hcut hcolon, by rw [hd]; exact ⟨rfl, rfl, rfl, rfl, rfl, rfl⟩⟩

/-! ### Where a parse can be -/

/-- **From where a parse can be, a call returns**; and unless it ends the parse it leaves the parser
where a parse can be, with no complete line in the buffer. -/
theorem Ready.parses (h : c.Ready) (t : ℤ) (q : List Byte) :
    ∃ ok c' q', c.Parses t q ok c' q' ∧
      (ok = true → c'.state ≠ .kGotAll → c'.Ready ∧ cut kCRLF q' = none) := by
  -- strong induction on the bytes: a line that is read leaves fewer
  induction hn : q.length using Nat.strong_induction_on generalizing c q with
  | _ n ih =>
      cases hcut : cut kCRLF q with
      | none =>
          have hstate : c.state = .kExpectRequestLine ∨ c.state = .kExpectHeaders :=
            h.imp_left And.left
          exact ⟨true, c, q, .wait hstate hcut, fun _ _ => ⟨h, hcut⟩⟩
      | some lr =>
          obtain ⟨line, rest⟩ := lr
          have hlt : rest.length < n := hn ▸ length_lt_of_cut hcut
          rcases h with ⟨hstate, hmethod⟩ | hstate
          · obtain ⟨ok, r, hline⟩ := processRequestLine_total hmethod line
            cases ok with
            | false =>
                exact ⟨false, _, q, .badRequest hstate hcut hline, fun hok => by cases hok⟩
            | true =>
                obtain ⟨ok, c', q', hparse, hready⟩ := ih rest.length hlt
                  (c := ⟨.kExpectHeaders, r.setReceiveTime t⟩) (Or.inr rfl) rest rfl
                exact ⟨ok, c', q', .requestLine hstate hcut hline hparse, hready⟩
          · by_cases hcolon : kColon ∈ line
            · obtain ⟨ok, c', q', hparse, hready⟩ := ih rest.length hlt
                (c := { c with request := c.request.addHeader line (line.idxOf kColon) })
                (Or.inr hstate) rest rfl
              exact ⟨ok, c', q', .header hstate hcut hcolon hparse, hready⟩
            · exact ⟨true, _, rest, .lastLine hstate hcut hcolon,
                fun _ hgot => absurd rfl hgot⟩

/-! ### More bytes -/

/-- A call that ended the parse leaves the bytes behind alone. -/
theorem Parses.append_ended (h : c.Parses t q ok c' q')
    (hended : ok = false ∨ c'.state = .kGotAll) (more : List Byte) :
    c.Parses t (q ++ more) ok c' (q' ++ more) := by
  induction h with
  | wait hstate hcut =>
      rcases hended with hok | hgot
      · cases hok
      · rw [hgot] at hstate
        rcases hstate with hstate | hstate <;> cases hstate
  | badRequest hstate hcut hline => exact .badRequest hstate (cut_append_right hcut more) hline
  | requestLine hstate hcut hline _ ih =>
      exact .requestLine hstate (cut_append_right hcut more) hline (ih hended)
  | header hstate hcut hcolon _ ih =>
      exact .header hstate (cut_append_right hcut more) hcolon (ih hended)
  | lastLine hstate hcut hcolon => exact .lastLine hstate (cut_append_right hcut more) hcolon

/-- A call that did not end the parse is continued by the next one. -/
theorem Parses.append_waiting (h : c.Parses t q true c' q') (hstate' : c'.state ≠ .kGotAll)
    (hmore : c'.Parses t (q' ++ more) ok d p) : c.Parses t (q ++ more) ok d p := by
  generalize hok : true = ok' at h
  induction h with
  | wait _ _ => exact hmore
  | badRequest => cases hok
  | requestLine hstate hcut hline _ ih =>
      exact .requestLine hstate (cut_append_right hcut more) hline (ih hstate' hmore hok)
  | header hstate hcut hcolon _ ih =>
      exact .header hstate (cut_append_right hcut more) hcolon (ih hstate' hmore hok)
  | lastLine => exact absurd rfl hstate'

end

/-! ### The pieces and the whole -/

/-- What the calls make of the pieces is what one call makes of all the bytes. -/
theorem parsePieces_spec {c : HttpContext} {b : Buffer} {q : List Byte} (hc : c.Ready)
    (hq : cut kCRLF q = none) (h : b.Represents q) (arrivals : List Arrival) (t : ℤ) :
    ∃ ok c' b' rest d,
      c.parsePieces b arrivals = .ok (some (ok, c', b', rest)) ∧
      b'.Represents b'.readable ∧
      c.Parses t (q ++ arrivals.flatMap Arrival.data) ok d
        (b'.readable ++ rest.flatMap Arrival.data) ∧
      c'.Alike d := by
  -- induction on the pieces; between two calls no line in the buffer is complete
  induction arrivals generalizing c b q with
  | nil =>
      have hstate : c.state = .kExpectRequestLine ∨ c.state = .kExpectHeaders :=
        hc.imp_left And.left
      refine ⟨true, c, b, [], c, rfl, h.self, ?_, alike_withTime c c.request.receiveTime⟩
      rw [List.flatMap_nil, List.append_nil, List.append_nil, h.readable_eq]
      exact .wait hstate hq
  | cons a rest ih =>
      obtain ⟨b₁, hb₁, hrep₁, -⟩ := Buffer.append_spec h a.data
      obtain ⟨ok, c₁, q₁, hparse, hready⟩ := hc.parses a.receiveTime (q ++ a.data)
      obtain ⟨b₂, hb₂, hrep₂⟩ := parseRequest_spec hparse hrep₁
      obtain ⟨d₁, hparse₁, halike₁⟩ := hparse.retime (alike_withTime c c.request.receiveTime) t
      rw [parsePieces, hb₁, ok_bind, hb₂, ok_bind]
      rw [List.flatMap_cons, ← List.append_assoc]
      by_cases hended : ok = false ∨ c₁.state = .kGotAll
      · have hended' : ok = false ∨ d₁.state = .kGotAll := halike₁.state_eq ▸ hended
        refine ⟨ok, c₁, b₂, rest, d₁, ?_, hrep₂.self, ?_, halike₁⟩
        · have hif : ok = false ∨ c₁.gotAll = true :=
            hended.imp_right fun hgot => decide_eq_true hgot
          simp only [if_pos hif]
          rfl
        · rw [hrep₂.readable_eq]
          exact hparse₁.append_ended hended' _
      · have hok : ok = true := Bool.eq_true_of_not_eq_false fun hok => hended (Or.inl hok)
        have hgot : c₁.state ≠ .kGotAll := fun hgot => hended (Or.inr hgot)
        subst hok
        obtain ⟨hready₁, hcut₁⟩ := hready rfl hgot
        obtain ⟨ok, c', b', rest', d', hpieces, hrep', hparse', halike'⟩ := ih hready₁ hcut₁ hrep₂
        -- the later calls, from the context the single call is in
        obtain ⟨d, hparse'', halike''⟩ := hparse'.retime halike₁ t
        refine ⟨ok, c', b', rest', d, ?_, hrep', ?_, halike'.trans halike''⟩
        · simpa [gotAll, hgot] using hpieces
        · exact hparse₁.append_waiting (halike₁.state_eq ▸ hgot) hparse''

/-- **The pieces are parsed like the whole.**  However the bytes are cut into pieces, the calls
after each of them end with the result, the state of the parser and the request (but for its time)
of a single call on all the bytes; and what is left in the buffer and of the pieces is what the
single call leaves. -/
theorem parsePieces_eq_parseRequest {b₀ b₁ : Buffer} (h₀ : b₀.Represents [])
    (h₁ : b₁.Represents []) (arrivals : List Arrival) (t : ℤ) :
    ∃ ok c b rest whole d b',
      new.parsePieces b₀ arrivals = .ok (some (ok, c, b, rest)) ∧
      b₁.append (arrivals.flatMap Arrival.data) = .ok whole ∧
      new.parseRequest whole t = .ok (some (ok, d, b')) ∧
      c.Alike d ∧
      b.readable ++ rest.flatMap Arrival.data = b'.readable := by
  have hcut : cut kCRLF ([] : List Byte) = none := by decide
  obtain ⟨ok, c, b, rest, d, hpieces, -, hparse, halike⟩ :=
    parsePieces_spec ready_new hcut h₀ arrivals t
  obtain ⟨whole, hwhole, hrep, -⟩ := Buffer.append_spec h₁ (arrivals.flatMap Arrival.data)
  obtain ⟨b', hb', hrep'⟩ := parseRequest_spec hparse hrep
  exact ⟨ok, c, b, rest, whole, d, b', hpieces, hwhole, hb', halike, hrep'.readable_eq.symm⟩

/-- The theorem on a request cut inside a header and between CR and LF, with the beginning of
another one behind it. -/
theorem parsePieces_eq_parseRequest_demo :
    ∃ ok c b rest whole d b',
      new.parsePieces (Buffer.empty 16)
        [⟨ascii "GET /a?b HTTP/1.1\r", 1⟩, ⟨[], 2⟩, ⟨ascii "\nHos", 3⟩,
          ⟨ascii "t: x\r\n\r\nPO", 4⟩, ⟨ascii "ST", 5⟩] = .ok (some (ok, c, b, rest)) ∧
      (Buffer.empty 0).append
        ([⟨ascii "GET /a?b HTTP/1.1\r", 1⟩, ⟨[], 2⟩, ⟨ascii "\nHos", 3⟩,
          ⟨ascii "t: x\r\n\r\nPO", 4⟩, ⟨ascii "ST", 5⟩].flatMap Arrival.data) = .ok whole ∧
      new.parseRequest whole 9 = .ok (some (ok, d, b')) ∧
      c.Alike d ∧
      b.readable ++ rest.flatMap Arrival.data = b'.readable :=
  parsePieces_eq_parseRequest (Buffer.represents_empty 16) (Buffer.represents_empty 0) _ 9

end HttpContext

end G5
