/-
**Pipelined requests.**

A client writes requests one after the other, without waiting for the answers, and the bytes arrive
in pieces cut anywhere.  A request that arrives in pieces is put together whatever the cuts are.
But `onMessage` parses one request and returns, and it is called again when bytes arrive: a request
that is already complete behind another one waits for the next arrival, and when none comes it is
never answered.

Main definitions:

* `HttpServer.ServesAll` — every request reaches `onRequest`, in order, with what was written;
* `KeepsUp` — each request is complete as many arrivals before the end as there are requests
  behind it;
* `HttpServer.Pending` — what the server still has to do.

Main results:

* `HttpServer.Pending.exec` — **in every run the requests served are the first ones written, each
  with what was written**, and how many they are;
* `HttpServer.servesAll_iff` — **all of them are served exactly when the server keeps up**.
-/

import G5.Lib.Backlog
import G5.Net.Http.HttpServer
import G5.Net.Http.RequestText
import Mathlib.Data.List.Forall2

set_option relaxedAutoImplicit false
set_option autoImplicit false

namespace G5

open Runs

/-- The request is the one that was written. -/
def HttpRequest.Says (r : HttpRequest) (R : RequestText) : Prop :=
  r.Carries R.method R.target R.headers

/-- Each request is complete as many arrivals before the end as there are requests behind it. -/
def KeepsUp (requests : List RequestText) (arrivals : List Arrival) : Prop :=
  ∀ j < requests.length,
    ((requests.take (requests.length - j)).flatMap RequestText.text).length ≤
      ((arrivals.take (arrivals.length - j)).flatMap Arrival.data).length

instance (requests : List RequestText) (arrivals : List Arrival) :
    Decidable (KeepsUp requests arrivals) :=
  inferInstanceAs (Decidable (∀ j < requests.length, _))

namespace HttpServer

variable {σ : Type}

/-- On a new connection, `onRequest` is called once for each of the requests, in order, with what
was written. -/
def ServesAll (server : HttpServer σ) (env : σ) (requests : List RequestText)
    (arrivals : List Arrival) : Prop :=
  ∃ conn, exec server.handleRead (onConnection env) arrivals = some conn ∧
    List.Forall₂ HttpRequest.Says conn.served requests

/-! ### What the server still has to do -/

/-- The parser has read the bytes `used` of the first request. -/
def AwaitsFirst (c : HttpContext) (used : List Byte) : List RequestText → Prop
  | [] => c = HttpContext.new ∧ used = []
  | R :: _ => ∃ lines, R.Awaits c lines ∧ R.text = used ++ joinLines lines

theorem awaitsFirst_new (requests : List RequestText) :
    AwaitsFirst HttpContext.new [] requests := by
  cases requests with
  | nil => exact ⟨rfl, rfl⟩
  | cons R rest => exact ⟨R.lines, .requestLine, rfl⟩

/-- The requests are not answered yet: the bytes `used` of the first one have been parsed, the
bytes `q` are in the buffer, and the bytes `future` will come. -/
structure Pending (conn : HttpConnection σ) (requests : List RequestText)
    (used q future : List Byte) : Prop where
  awaits : AwaitsFirst conn.context used requests
  represents : conn.inputBuffer.Represents q
  stream : used ++ (q ++ future) = requests.flatMap RequestText.text

section

variable {conn : HttpConnection σ} {R : RequestText}
  {requests : List RequestText} {used q future : List Byte} {a : Arrival}

theorem pending_onConnection (env : σ) (requests : List RequestText) :
    Pending (onConnection env) requests [] [] (requests.flatMap RequestText.text) where
  awaits := awaitsFirst_new requests
  represents := Buffer.represents_empty kInitialSize
  stream := rfl

/-- What is missing of the first request comes next. -/
theorem Pending.next {lines : List (List Byte)}
    (h : Pending conn (R :: requests) used q (a.data ++ future))
    (htext : R.text = used ++ joinLines lines) :
    (q ++ a.data) ++ future = joinLines lines ++ requests.flatMap RequestText.text := by
  have hstream := h.stream
  rw [List.flatMap_cons, htext, List.append_assoc, List.append_cancel_left_eq] at hstream
  rw [List.append_assoc]
  exact hstream

/-- The first request is complete: it is answered, and the next one is awaited. -/
theorem Pending.serve (server : HttpServer σ)
    (h : Pending conn (R :: requests) used q (a.data ++ future))
    (hle : R.text.length ≤ used.length + q.length + a.data.length) :
    ∃ conn' r q', server.handleRead conn a = some conn' ∧ conn'.served = conn.served ++ [r] ∧
      r.Says R ∧ Pending conn' requests [] q' future ∧
      q'.length = used.length + q.length + a.data.length - R.text.length := by
  obtain ⟨lines, hawaits, htext⟩ := h.awaits
  have hnext := h.next htext
  have hlen := congrArg List.length htext
  rw [List.length_append] at hlen
  have hprefix : joinLines lines <+: q ++ a.data := by
    have hright : q ++ a.data <+: joinLines lines ++ requests.flatMap RequestText.text :=
      hnext ▸ List.prefix_append _ _
    refine List.prefix_of_prefix_length_le (List.prefix_append _ _) hright ?_
    rw [List.length_append]
    omega
  obtain ⟨q', hq'⟩ := hprefix
  rw [← hq', List.append_assoc, List.append_cancel_left_eq] at hnext
  obtain ⟨r, hparse, hsays⟩ := hawaits.parses_all (t := a.receiveTime) q'
  rw [hq'] at hparse
  obtain ⟨b, hrep, hread⟩ := handleRead_answers server h.represents hparse rfl
  refine ⟨_, r, q', hread, rfl, hsays, ⟨awaitsFirst_new requests, hrep, hnext⟩, ?_⟩
  · have hlenq := congrArg List.length hq'
    rw [List.length_append, List.length_append] at hlenq
    omega

/-- The first request is not complete: the complete lines of it are parsed. -/
theorem Pending.wait (server : HttpServer σ)
    (h : Pending conn (R :: requests) used q (a.data ++ future))
    (hlt : used.length + q.length + a.data.length < R.text.length) :
    ∃ conn' used' q', server.handleRead conn a = some conn' ∧ conn'.served = conn.served ∧
      Pending conn' (R :: requests) used' q' future ∧
      used'.length + q'.length = used.length + q.length + a.data.length := by
  obtain ⟨lines, hawaits, htext⟩ := h.awaits
  have hnext := h.next htext
  have hlen := congrArg List.length htext
  rw [List.length_append] at hlen
  have hlt' : (q ++ a.data).length < (joinLines lines).length := by
    rw [List.length_append]
    omega
  have hprefix : q ++ a.data <+: joinLines lines := by
    have hleft : q ++ a.data <+: joinLines lines ++ requests.flatMap RequestText.text :=
      hnext ▸ List.prefix_append _ _
    exact List.prefix_of_prefix_length_le hleft (List.prefix_append _ _) (Nat.le_of_lt hlt')
  obtain ⟨c', lines', used', q', hparse, hstate, hawaits', hused, hlines⟩ :=
    hawaits.parses_part (t := a.receiveTime) hprefix hlt'
  obtain ⟨b, hrep, hread⟩ := handleRead_waits server h.represents hparse hstate
  refine ⟨_, used ++ used', q', hread, rfl, ⟨⟨lines', hawaits', ?_⟩, hrep, ?_⟩, ?_⟩
  · rw [htext, hlines, List.append_assoc]
  · rw [← h.stream, ← List.append_assoc q, hused, List.append_assoc, List.append_assoc]
  · have hlenq := congrArg List.length hused
    rw [List.length_append, List.length_append] at hlenq
    rw [List.length_append]
    omega

/-- Nothing is left to be parsed. -/
theorem Pending.idle (server : HttpServer σ) (h : Pending conn [] used q (a.data ++ future)) :
    ∃ conn', server.handleRead conn a = some conn' ∧ conn'.served = conn.served ∧
      Pending conn' [] [] [] future := by
  obtain ⟨hcontext, rfl⟩ := h.awaits
  have hstream := h.stream
  simp only [List.nil_append, List.flatMap_nil, List.append_eq_nil_iff] at hstream
  obtain ⟨rfl, hdata, rfl⟩ := hstream
  have hparse : conn.context.Parses a.receiveTime ([] ++ a.data) true conn.context [] := by
    rw [hdata]
    exact HttpContext.Parses.wait (Or.inl (hcontext ▸ rfl)) rfl
  obtain ⟨b, hrep, hread⟩ :=
    handleRead_waits server h.represents hparse (by rw [hcontext]; decide)
  exact ⟨_, hread, rfl, ⟨⟨hcontext, rfl⟩, hrep, rfl⟩⟩

/-! ### Runs -/

/-- The lengths of the requests, and of what arrives. -/
def sizes (requests : List RequestText) : List ℕ := requests.map fun R => R.text.length

def amounts (arrivals : List Arrival) : List ℕ := arrivals.map fun a => a.data.length

theorem length_sizes (requests : List RequestText) :
    (sizes requests).length = requests.length := List.length_map _

theorem left_cons_of_le {x : ℕ} (requests : List RequestText) (arrivals : List Arrival)
    (h : R.text.length ≤ x + a.data.length) :
    Backlog.left x (sizes (R :: requests)) (amounts (a :: arrivals)) =
      Backlog.left (x + a.data.length - R.text.length) (sizes requests) (amounts arrivals) :=
  Backlog.left_of_le h _ _

theorem left_cons_of_lt {x : ℕ} (requests : List RequestText) (arrivals : List Arrival)
    (h : x + a.data.length < R.text.length) :
    Backlog.left x (sizes (R :: requests)) (amounts (a :: arrivals)) =
      Backlog.left (x + a.data.length) (sizes (R :: requests)) (amounts arrivals) :=
  Backlog.left_of_lt h _ _

theorem keepsUp_iff (requests : List RequestText) (arrivals : List Arrival) :
    KeepsUp requests arrivals ↔ Backlog.InTime 0 (sizes requests) (amounts arrivals) := by
  have hsum : ∀ n, ((requests.take n).flatMap RequestText.text).length =
      ((sizes requests).take n).sum := by
    intro n
    rw [List.length_flatMap, sizes, List.map_take]
  have harrived : ∀ n, ((arrivals.take n).flatMap Arrival.data).length =
      ((amounts arrivals).take n).sum := by
    intro n
    rw [List.length_flatMap, amounts, List.map_take]
  have hlen : (amounts arrivals).length = arrivals.length := List.length_map _
  simp only [KeepsUp, Backlog.InTime, hsum, harrived, length_sizes, hlen, Nat.zero_add]

/-- **In every run the requests served are the first ones written**, each with what was written:
all but the ones an abstract queue that serves one job at each arrival has left. -/
theorem Pending.exec (server : HttpServer σ) {arrivals : List Arrival}
    (h : Pending conn requests used q (arrivals.flatMap Arrival.data)) :
    ∃ conn' new, exec server.handleRead conn arrivals = some conn' ∧
      conn'.served = conn.served ++ new ∧
      List.Forall₂ HttpRequest.Says new (requests.take (requests.length -
        (Backlog.left (used.length + q.length) (sizes requests) (amounts arrivals)).length)) := by
  -- induction on the arrivals; each one serves the first request, or leaves it waiting
  induction arrivals generalizing conn requests used q with
  | nil =>
      refine ⟨conn, [], rfl, (List.append_nil _).symm, ?_⟩
      have hnone : requests.length - (sizes requests).length = 0 := by
        rw [sizes, List.length_map, Nat.sub_self]
      rw [amounts, List.map_nil, Backlog.left_nil_right, hnone, List.take_zero]
      exact List.Forall₂.nil
  | cons a arrivals ih =>
      rw [List.flatMap_cons] at h
      cases requests with
      | nil =>
          obtain ⟨conn₁, hread, hserved, hpend⟩ := h.idle server
          obtain ⟨conn', new, hexec, hnew, hsays⟩ := ih hpend
          refine ⟨conn', new, ?_, hserved ▸ hnew, ?_⟩
          · rw [exec_cons_of_step hread, hexec]
          · simpa using hsays
      | cons R requests =>
          by_cases hle : R.text.length ≤ used.length + q.length + a.data.length
          · obtain ⟨conn₁, r, q', hread, hserved, hr, hpend, hlen⟩ := h.serve server hle
            obtain ⟨conn', new, hexec, hnew, hsays⟩ := ih hpend
            refine ⟨conn', r :: new, ?_, ?_, ?_⟩
            · rw [exec_cons_of_step hread, hexec]
            · rw [hnew, hserved, List.append_assoc, List.singleton_append]
            · have hleft := left_cons_of_le requests arrivals hle
              rw [← hlen, ← Nat.zero_add q'.length] at hleft
              have hbound := Backlog.length_left_le (0 + q'.length) (sizes requests)
                (amounts arrivals)
              rw [length_sizes] at hbound
              rw [hleft, List.length_cons, Nat.succ_sub hbound, List.take_succ_cons]
              exact List.Forall₂.cons hr hsays
          · have hlt := Nat.lt_of_not_le hle
            obtain ⟨conn₁, used', q', hread, hserved, hpend, hlen⟩ := h.wait server hlt
            obtain ⟨conn', new, hexec, hnew, hsays⟩ := ih hpend
            refine ⟨conn', new, ?_, hserved ▸ hnew, ?_⟩
            · rw [exec_cons_of_step hread, hexec]
            · rw [left_cons_of_lt requests arrivals hlt, ← hlen]
              exact hsays

/-- **All requests are served exactly when the server keeps up**: when each of them is complete as
many arrivals before the end as there are requests behind it. -/
theorem servesAll_iff (server : HttpServer σ) (env : σ) {requests : List RequestText}
    {arrivals : List Arrival}
    (hstream : arrivals.flatMap Arrival.data = requests.flatMap RequestText.text) :
    server.ServesAll env requests arrivals ↔ KeepsUp requests arrivals := by
  have hpend := pending_onConnection env requests
  rw [← hstream] at hpend
  obtain ⟨conn, new, hexec, hnew, hsays⟩ := hpend.exec server
  have hserved : conn.served = new := hnew
  have hzero : ([] : List Byte).length + ([] : List Byte).length = 0 := rfl
  rw [hzero] at hsays
  have hpos : ∀ job ∈ sizes requests, 0 < job := by
    intro job hjob
    obtain ⟨R, -, rfl⟩ := List.mem_map.1 hjob
    exact R.text_length_pos
  rw [keepsUp_iff, ← Backlog.left_eq_nil_iff hpos]
  constructor
  · rintro ⟨conn', hexec', hall⟩
    -- as many requests as were written have been served, so that the queue is empty
    obtain rfl : conn = conn' := Option.some.inj (hexec.symm.trans hexec')
    rw [hserved] at hall
    have hlen := hsays.length_eq.symm.trans hall.length_eq
    rw [List.length_take] at hlen
    have hbound := Backlog.length_left_le 0 (sizes requests) (amounts arrivals)
    rw [length_sizes] at hbound
    exact List.length_eq_zero_iff.1 (by omega)
  · intro hleft
    refine ⟨conn, hexec, ?_⟩
    rw [hleft, List.length_nil, Nat.sub_zero, List.take_length] at hsays
    rw [hserved]
    exact hsays

end

/-! ### An example -/

/-- A server that answers every request with 200. -/
def okServer : HttpServer Unit :=
  new.setHttpCallback fun env _ resp => (env, resp.setStatusCode .k200Ok)

/-- Two requests, the first one with a header and the second one with a query. -/
def demoRequests : List RequestText :=
  [{ method := .kGet
     target := ascii "/"
     headers := [⟨ascii "Host", ascii " a", by decide, by decide⟩]
     method_valid := by decide
     space_notMem := by decide
     no_crlf := by decide },
   { method := .kPost
     target := ascii "/f?x=1"
     headers := []
     method_valid := by decide
     space_notMem := by decide
     no_crlf := by decide }]

/-- Their bytes in three pieces, cut inside the first request and inside the second one. -/
def demoArrivals : List Arrival :=
  let bytes := demoRequests.flatMap RequestText.text
  [⟨bytes.take 20, 1⟩, ⟨(bytes.drop 20).take 27, 2⟩, ⟨bytes.drop 47, 3⟩]

theorem servesAll_demo :
    demoArrivals.flatMap Arrival.data = demoRequests.flatMap RequestText.text ∧
      okServer.ServesAll () demoRequests demoArrivals :=
  ⟨by decide, (servesAll_iff okServer () (by decide)).2 (by decide)⟩

/-- When both requests arrive at once, the second one is not served. -/
theorem exists_unserved :
    ∃ arrivals : List Arrival,
      (∀ a ∈ arrivals, a.data ≠ []) ∧
      arrivals.flatMap Arrival.data = demoRequests.flatMap RequestText.text ∧
      (∀ env req resp,
        (okServer.httpCallback env req resp).2.closeConnection = resp.closeConnection) ∧
      ¬okServer.ServesAll () demoRequests arrivals := by
  refine ⟨[⟨demoRequests.flatMap RequestText.text, 1⟩], by decide, by decide,
    fun _ _ _ => rfl, ?_⟩
  rintro ⟨conn, hexec, hall⟩
  have hserved : (exec okServer.handleRead (onConnection ())
      [⟨demoRequests.flatMap RequestText.text, 1⟩]).map (fun conn => conn.served.length) =
        some 1 := by
    decide +kernel
  rw [hexec, Option.map_some, Option.some_inj, hall.length_eq] at hserved
  exact absurd hserved (by decide)

end HttpServer

end G5
