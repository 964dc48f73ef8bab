/-
**Requests and responses, end to end.**

A client writes requests one after the other, and reads what the server has sent before it shuts
the connection down.  The bytes of the requests arrive in pieces cut anywhere.  What the client
reads are the answers of the callback to the requests it has written, one each, in order, up to the
first one that closes the connection; as many as the server keeps up with.

Main definitions:

* `sentBytes` — what has been sent before the first `shutdown`;
* `untilClose` — the responses up to the first one that closes the connection;
* `HttpServer.RespondsCleanly` — what the callback makes can be told from the lines around it.

Main results:

* `HttpServer.Pending.serving` — no line of such a client is rejected;
* `sentBytes_responses` — what the answers send;
* `HttpServer.exchange` — **the client reads the answers to its requests**.
-/

import G5.Net.Http.ResponseStream
import G5.Net.Http.ServerRuns

set_option relaxedAutoImplicit false
set_option autoImplicit false

namespace G5

open Search Runs

/-- The bytes of a call. -/
def ConnCall.message : ConnCall → List Byte
  | .send message => message
  | .shutdown => []

/-- What has been sent before the first `shutdown`. -/
def sentBytes (calls : List ConnCall) : List Byte :=
  (calls.takeWhile (· ≠ .shutdown)).flatMap ConnCall.message

/-- The responses up to the first one that closes the connection, and with it. -/
def untilClose : List HttpResponse → List HttpResponse
  | [] => []
  | r :: rs => if r.closeConnection then [r] else r :: untilClose rs

/-- **What the answers send** before the connection is shut down. -/
theorem sentBytes_responses (rs : List HttpResponse) :
    sentBytes (rs.flatMap responseCalls) = (untilClose rs).flatMap HttpResponse.text := by
  -- induction on the responses: behind one that closes nothing counts
  induction rs with
  | nil => rfl
  | cons r rs ih =>
      rw [List.flatMap_cons, responseCalls, untilClose]
      by_cases hclose : r.closeConnection = true
      · rw [if_pos hclose, if_pos hclose]
        simp [sentBytes, ConnCall.message]
      · rw [if_neg hclose, if_neg hclose, List.flatMap_cons, ← ih]
        simp [sentBytes, ConnCall.message]

/-- All of them but the last one keep the connection open. -/
theorem exists_untilClose (rs : List HttpResponse) :
    ∃ (keep : List HttpResponse) (last : Option HttpResponse),
      untilClose rs = keep ++ last.toList ∧ (∀ r ∈ keep, r ∈ rs ∧ r.closeConnection = false) ∧
        ∀ r ∈ last, r ∈ rs ∧ r.closeConnection = true := by
  induction rs with
  | nil => exact ⟨[], none, rfl, by simp, by simp⟩
  | cons r rs ih =>
      rw [untilClose]
      by_cases hclose : r.closeConnection = true
      · rw [if_pos hclose]
        exact ⟨[], some r, rfl, by simp, by simpa using hclose⟩
      · obtain ⟨keep, last, heq, hkeep, hlast⟩ := ih
        rw [if_neg hclose, heq]
        refine ⟨r :: keep, last, rfl, ?_, ?_⟩
        · intro r' hr'
          rcases List.mem_cons.1 hr' with rfl | hr'
          · exact ⟨List.mem_cons_self, Bool.eq_false_iff.2 hclose⟩
          · exact ⟨List.mem_cons_of_mem r (hkeep r' hr').1, (hkeep r' hr').2⟩
        · intro r' hr'
          exact ⟨List.mem_cons_of_mem r (hlast r' hr').1, (hlast r' hr').2⟩

/-- The answers are read as they were made. -/
theorem decode_untilClose {rs : List HttpResponse} (hclean : ∀ r ∈ rs, r.Clean) :
    ResponseStream.decode ((untilClose rs).flatMap HttpResponse.text) =
      some ((untilClose rs).map HttpResponse.content) := by
  obtain ⟨keep, last, heq, hkeep, hlast⟩ := exists_untilClose rs
  rw [heq, ResponseStream.decode]
  refine ResponseStream.decodeAll_texts ?_ ?_ (Nat.le_refl _)
  · intro r hr
    exact ⟨hclean r (hlast r hr).1, (hlast r hr).2⟩
  · intro r hr
    exact ⟨hclean r (hkeep r hr).1, (hkeep r hr).2⟩

namespace HttpServer

variable {σ : Type}

/-- Whatever is asked, the response can be told from the lines around it. -/
def RespondsCleanly (server : HttpServer σ) : Prop :=
  ∀ env req, (server.respond env req).2.Clean

section

variable {server : HttpServer σ} {env : σ} {conn conn' : HttpConnection σ} {a : Arrival}
  {requests : List RequestText} {used q future : List Byte}

theorem clean_responses (h : server.RespondsCleanly) (env : σ) (reqs : List HttpRequest) :
    ∀ r ∈ server.responses env reqs, r.Clean := by
  induction reqs generalizing env with
  | nil =>
      intro r hr
      cases hr
  | cons req reqs ih =>
      intro r hr
      rcases List.mem_cons.1 hr with rfl | hr
      · exact h env req
      · exact ih _ r hr

/-- What arrives is parsed without an error. -/
theorem Pending.accepts (h : Pending conn requests used q (a.data ++ future)) :
    ∃ c' q', conn.context.Parses a.receiveTime (q ++ a.data) true c' q' := by
  cases requests with
  | nil =>
      obtain ⟨hcontext, -⟩ := h.awaits
      have hstream := h.stream
      simp only [List.flatMap_nil, List.append_eq_nil_iff] at hstream
      obtain ⟨-, hq, hdata, -⟩ := hstream
      refine ⟨_, _, HttpContext.Parses.wait (Or.inl ?_) ?_⟩
      · rw [hcontext]
        rfl
      · rw [hq, hdata]
        rfl
  | cons R requests =>
      obtain ⟨lines, hawaits, htext⟩ := h.awaits
      have hnext := h.next htext
      -- what is there and what is missing begin the same stream
      have hthere : q ++ a.data <+: joinLines lines ++ requests.flatMap RequestText.text :=
        hnext ▸ List.prefix_append _ _
      by_cases hlen : (q ++ a.data).length < (joinLines lines).length
      · have hpart : q ++ a.data <+: joinLines lines :=
          List.prefix_of_prefix_length_le hthere (List.prefix_append _ _) hlen.le
        obtain ⟨c', -, -, q', hparse, -⟩ := hawaits.parses_part (t := a.receiveTime) hpart hlen
        exact ⟨c', q', hparse⟩
      · obtain ⟨q', hq'⟩ : joinLines lines <+: q ++ a.data :=
          List.prefix_of_prefix_length_le (List.prefix_append _ _) hthere (Nat.le_of_not_lt hlen)
        obtain ⟨r, hparse, -⟩ := hawaits.parses_all (t := a.receiveTime) q'
        rw [hq'] at hparse
        exact ⟨_, q', hparse⟩

/-- What an arrival leaves to be done. -/
theorem Pending.step (server : HttpServer σ) (h : Pending conn requests used q (a.data ++ future)) :
    ∃ conn' requests' used' q', server.handleRead conn a = some conn' ∧
      Pending conn' requests' used' q' future := by
  cases requests with
  | nil =>
      obtain ⟨conn', hread, -, hpending⟩ := h.idle server
      exact ⟨conn', _, _, _, hread, hpending⟩
  | cons R requests =>
      by_cases hle : R.text.length ≤ used.length + q.length + a.data.length
      · obtain ⟨conn', -, q', hread, -, -, hpending, -⟩ := h.serve server hle
        exact ⟨conn', _, _, _, hread, hpending⟩
      · obtain ⟨conn', used', q', hread, -, hpending, -⟩ := h.wait server (Nat.lt_of_not_le hle)
        exact ⟨conn', _, _, _, hread, hpending⟩

/-- **No line of such a client is rejected.** -/
theorem Pending.serving {arrivals : List Arrival}
    (h : Pending conn requests used q (arrivals.flatMap Arrival.data))
    (hserving : Serving server env conn)
    (hrun : Runs.exec server.handleRead conn arrivals = some conn') :
    Serving server env conn' := by
  -- induction on the arrivals: each of them is parsed without an error
  induction arrivals generalizing conn requests used q with
  | nil =>
      obtain rfl := Option.some.inj hrun
      exact hserving
  | cons a arrivals ih =>
      rw [List.flatMap_cons] at h
      obtain ⟨conn₁, hread, hrest⟩ := exec_cons_eq_some.1 hrun
      obtain ⟨conn₂, requests', used', q', hread', hnext⟩ := h.step server
      obtain rfl := Option.some.inj (hread'.symm.trans hread)
      obtain ⟨c', q'', hparse⟩ := h.accepts
      rw [← h.represents.readable_eq] at hparse
      obtain ⟨conn₃, hread₃, hserving', -⟩ := hserving.accept hparse
      obtain rfl := Option.some.inj (hread₃.symm.trans hread')
      exact ih hnext hserving' hrest

end

/-- **The client reads the answers to its requests**, in whatever pieces these arrive: the server
takes the first ones, all but those an abstract queue that serves one job at each arrival has left,
each as it was written; and what has been sent before the connection is shut down is read as the
answers to these requests, one each, in order, up to the first one that closes the connection. -/
theorem exchange (server : HttpServer σ) (env : σ) (hclean : server.RespondsCleanly)
    (requests : List RequestText) (arrivals : List Arrival)
    (hstream : arrivals.flatMap Arrival.data = requests.flatMap RequestText.text) :
    ∃ conn, Runs.exec server.handleRead (onConnection env) arrivals = some conn ∧
      List.Forall₂ HttpRequest.Says conn.served (requests.take (requests.length -
        (Backlog.left 0 (sizes requests) (amounts arrivals)).length)) ∧
      ResponseStream.decode (sentBytes conn.calls) =
        some ((untilClose (server.responses env conn.served)).map HttpResponse.content) := by
  have hpending := pending_onConnection env requests
  rw [← hstream] at hpending
  obtain ⟨conn, new, hrun, hnew, hsays⟩ := hpending.exec server
  have hserved : conn.served = new := hnew
  have hserving := hpending.serving (serving_onConnection server env) hrun
  refine ⟨conn, hrun, hserved ▸ hsays, ?_⟩
  have hcalls := hserving.log.calls
  rw [List.replicate_zero, List.flatten_nil, List.append_nil] at hcalls
  rw [hcalls, sentBytes_responses]
  exact decode_untilClose (clean_responses hclean env conn.served)

/-- A server that numbers its answers. -/
def numberingServer : HttpServer (Fin 10) :=
  new.setHttpCallback fun n _ resp =>
    (n + 1, (resp.setStatusCode .k200Ok).setBody [48 + n.val.toUInt8])

theorem respondsCleanly_numberingServer : numberingServer.RespondsCleanly := by
  intro n req
  have hmessage : (numberingServer.respond n req).2.statusMessage = [] := rfl
  have hheaders : (numberingServer.respond n req).2.headers.entries = [] := rfl
  have hbody : (numberingServer.respond n req).2.body.length = 1 := rfl
  refine ⟨?_, ?_, ?_, ?_⟩
  · rw [hmessage]
    simp
  · rw [hheaders]
    simp
  · rw [hheaders]
    simp
  · rw [hbody]
    decide

/-- The two requests in three pieces, of which the last one completes the second request. -/
theorem exchange_demo :
    demoArrivals.flatMap Arrival.data = demoRequests.flatMap RequestText.text ∧
      ∃ conn, Runs.exec numberingServer.handleRead (onConnection 0) demoArrivals = some conn ∧
        List.Forall₂ HttpRequest.Says conn.served demoRequests ∧
        (ResponseStream.decode (sentBytes conn.calls)).map
          (fun rs => rs.map ResponseContent.body) = some [ascii "0", ascii "1"] := by
  have hstream : demoArrivals.flatMap Arrival.data = demoRequests.flatMap RequestText.text := by
    decide
  obtain ⟨conn, hrun, hsays, hdecode⟩ := exchange numberingServer 0 respondsCleanly_numberingServer
    demoRequests demoArrivals hstream
  have hall : demoRequests.length -
      (Backlog.left 0 (sizes demoRequests) (amounts demoArrivals)).length = 2 := by
    decide
  rw [hall] at hsays
  have hview : (Runs.exec numberingServer.handleRead (onConnection 0) demoArrivals).map
      (fun conn => (untilClose (numberingServer.responses 0 conn.served)).map
        fun r => r.content.body) = some [ascii "0", ascii "1"] := by
    decide +kernel
  refine ⟨hstream, conn, hrun, hsays, ?_⟩
  rw [hrun, Option.map_some, Option.some_inj] at hview
  rw [hdecode, Option.map_some, List.map_map, ← hview]
  rfl

end HttpServer

end G5
