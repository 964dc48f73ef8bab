/-
**The HTTP server** (`src/net/http/HttpServer.h`, `HttpServer.cc`).

When bytes arrive for a connection they are appended to its input buffer, and `onMessage` parses
what is there; a request that is complete goes to the callback, and the answer is sent.  Of the
connection the model keeps the input buffer and the context stored with it, and records what the
server asks of it.  The callback is any function of the request, the response and a state of its
own.

Main definitions:

* `HttpServer.onRequest`, `HttpServer.onMessage`;
* `HttpServer.handleRead` — the arrival of bytes;
* `HttpServer.respond`, `responseCalls`, `badRequest` — the answer to a request, and what the server
  asks of the connection.

Main results:

* `HttpServer.handleRead_waits`, `handleRead_answers`, `handleRead_rejects` — **what an arrival
  does**: at most one request is answered, whatever is left in the buffer.
-/

import G5.Lib.Runs
import G5.Net.Http.HttpContext
import G5.Net.Http.HttpResponse

set_option relaxedAutoImplicit false
set_option autoImplicit false

namespace G5

/-- What the server asks of a connection. -/
inductive ConnCall
  | send (message : List Byte)
  | shutdown
  deriving DecidableEq, Repr

/-- What a response asks of the connection. -/
def responseCalls (r : HttpResponse) : List ConnCall :=
  .send r.text :: if r.closeConnection then [.shutdown] else []

/-- What a rejected line asks of the connection. -/
def badRequest : List ConnCall := [.send (ascii "HTTP/1.1 400 Bad Request\r\n\r\n"), .shutdown]

/-- A connection of the server. -/
structure HttpConnection (σ : Type) where
  inputBuffer : Buffer
  context : HttpContext
  calls : List ConnCall
  /-- the state of the callback -/
  env : σ
  /-- the requests `onRequest` has been called with -/
  served : List HttpRequest

/-- Bytes that are read from the socket, and the time. -/
structure Arrival where
  data : List Byte
  receiveTime : ℤ
  deriving DecidableEq, Repr

structure HttpServer (σ : Type) where
  httpCallback : σ → HttpRequest → HttpResponse → σ × HttpResponse

namespace HttpServer

variable {σ : Type}

/-! ### The functions -/

/-- `detailHttpCallback`, the callback of a server that is given none. -/
def defaultHttpCallback (env : σ) (_ : HttpRequest) (resp : HttpResponse) : σ × HttpResponse :=
  (env, ((resp.setStatusCode .k404NotFound).setStatusMessage
    (ascii "Not Found")).setCloseConnection true)

def new : HttpServer σ := ⟨defaultHttpCallback⟩

def setHttpCallback (_ : HttpServer σ) (cb : σ → HttpRequest → HttpResponse → σ × HttpResponse) :
    HttpServer σ :=
  ⟨cb⟩

/-- A connection when it is made: `onConnection` stores a new context with it. -/
def onConnection (env : σ) : HttpConnection σ where
  inputBuffer := Buffer.empty kInitialSize
  context := HttpContext.new
  calls := []
  env := env
  served := []

def onRequest (server : HttpServer σ) (conn : HttpConnection σ) (req : HttpRequest) :
    Checked (HttpConnection σ) := do
  let connection := req.getHeader (ascii "Connection")
  let close := connection = ascii "close" ∨
    (req.version = .kHttp10 ∧ connection ≠ ascii "Keep-Alive")
  let (env, response) := server.httpCallback conn.env req (HttpResponse.new close)
  let buf ← Buffer.new kInitialSize
  let buf ← response.appendToBuffer buf
  let calls := conn.calls ++ [.send buf.readable]
  return { conn with
    calls := if response.closeConnection then calls ++ [.shutdown] else calls
    env := env
    served := conn.served ++ [req] }

/-- A call has no result when the loop of `parseRequest` does not end. -/
def onMessage (server : HttpServer σ) (conn : HttpConnection σ) (receiveTime : ℤ) :
    Checked (Option (HttpConnection σ)) := do
  match ← conn.context.parseRequest conn.inputBuffer receiveTime with
  | none => return none
  | some (ok, context, buf) =>
      let conn := { conn with context := context, inputBuffer := buf }
      let conn :=
        if ok then conn
        else { conn with
          calls := conn.calls ++ [.send (ascii "HTTP/1.1 400 Bad Request\r\n\r\n"), .shutdown] }
      if conn.context.gotAll then
        let conn ← server.onRequest conn conn.context.request
        return some { conn with context := conn.context.reset }
      else
        return some conn

/-- `handleRead` of the connection, when the socket has given bytes. -/
def handleRead (server : HttpServer σ) (conn : HttpConnection σ) (a : Arrival) :
    Option (HttpConnection σ) :=
  match conn.inputBuffer.append a.data with
  | .error _ => none
  | .ok buf =>
      match server.onMessage { conn with inputBuffer := buf } a.receiveTime with
      | .error _ => none
      | .ok result => result

/-! ### What an arrival does -/

/-- What the callback makes of a request, and the state it leaves. -/
def respond (server : HttpServer σ) (env : σ) (req : HttpRequest) : σ × HttpResponse :=
  let connection := req.getHeader (ascii "Connection")
  let close := connection = ascii "close" ∨
    (req.version = .kHttp10 ∧ connection ≠ ascii "Keep-Alive")
  server.httpCallback env req (HttpResponse.new close)

section

variable {conn : HttpConnection σ} {a : Arrival} {c' : HttpContext} {q q' : List Byte}

/-- The answer to a request. -/
theorem onRequest_eq (server : HttpServer σ) (conn : HttpConnection σ) (req : HttpRequest) :
    server.onRequest conn req = .ok { conn with
      calls := conn.calls ++ responseCalls (server.respond conn.env req).2
      env := (server.respond conn.env req).1
      served := conn.served ++ [req] } := by
  obtain ⟨buf, hbuf, hrep⟩ :=
    (server.respond conn.env req).2.appendToBuffer_spec (Buffer.represents_empty kInitialSize)
  have htext : buf.readable = (server.respond conn.env req).2.text := hrep.readable_eq
  have hcalls : (if (server.respond conn.env req).2.closeConnection = true then
        conn.calls ++ [.send buf.readable] ++ [.shutdown]
      else conn.calls ++ [.send buf.readable]) =
      conn.calls ++ responseCalls (server.respond conn.env req).2 := by
    rw [htext, responseCalls]
    split
    · rw [List.append_assoc]
      rfl
    · rfl
  rw [onRequest]
  simp only [Buffer.new_eq, ok_bind]
  exact bind_eq_ok.2 ⟨buf, hbuf, congrArg Except.ok (by rw [← hcalls]; rfl)⟩

/-- The parser waits for more. -/
theorem handleRead_waits (server : HttpServer σ) (h : conn.inputBuffer.Represents q)
    (hparse : conn.context.Parses a.receiveTime (q ++ a.data) true c' q')
    (hstate : c'.state ≠ .kGotAll) :
    ∃ b, b.Represents q' ∧
      server.handleRead conn a = some { conn with context := c', inputBuffer := b } := by
  obtain ⟨b₁, hb₁, hrep₁, -⟩ := Buffer.append_spec h a.data
  obtain ⟨b₂, hb₂, hrep₂⟩ := HttpContext.parseRequest_spec hparse hrep₁
  refine ⟨b₂, hrep₂, ?_⟩
  simp [handleRead, hb₁, onMessage, hb₂, HttpContext.gotAll, hstate]

/-- A request is complete, and is answered. -/
theorem handleRead_answers (server : HttpServer σ) (h : conn.inputBuffer.Represents q)
    (hparse : conn.context.Parses a.receiveTime (q ++ a.data) true c' q')
    (hstate : c'.state = .kGotAll) :
    ∃ b, b.Represents q' ∧
      server.handleRead conn a = some { conn with
        inputBuffer := b
        context := HttpContext.new
        calls := conn.calls ++ responseCalls (server.respond conn.env c'.request).2
        env := (server.respond conn.env c'.request).1
        served := conn.served ++ [c'.request] } := by
  obtain ⟨b₁, hb₁, hrep₁, -⟩ := Buffer.append_spec h a.data
  obtain ⟨b₂, hb₂, hrep₂⟩ := HttpContext.parseRequest_spec hparse hrep₁
  refine ⟨b₂, hrep₂, ?_⟩
  simp [handleRead, hb₁, onMessage, hb₂, HttpContext.gotAll, hstate, onRequest_eq]
  rfl

/-- A line is rejected, and stays where it is. -/
theorem handleRead_rejects (server : HttpServer σ) (h : conn.inputBuffer.Represents q)
    (hparse : conn.context.Parses a.receiveTime (q ++ a.data) false c' q')
    (hstate : c'.state ≠ .kGotAll) :
    ∃ b, b.Represents q' ∧
      server.handleRead conn a = some { conn with
        context := c'
        inputBuffer := b
        calls := conn.calls ++ badRequest } := by
  obtain ⟨b₁, hb₁, hrep₁, -⟩ := Buffer.append_spec h a.data
  obtain ⟨b₂, hb₂, hrep₂⟩ := HttpContext.parseRequest_spec hparse hrep₁
  refine ⟨b₂, hrep₂, ?_⟩
  simp [handleRead, hb₁, onMessage, hb₂, HttpContext.gotAll, hstate, badRequest]

end

end HttpServer

end G5
