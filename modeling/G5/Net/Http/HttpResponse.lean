/-
**Writing a response** (`src/net/http/HttpResponse.h`, `HttpResponse.cc`).

Main definitions:

* `HttpResponse`, its setters, and `HttpResponse.appendToBuffer`;
* `HttpResponse.text` — the bytes of a response.

Main results:

* `HttpResponse.appendToBuffer_spec` — these bytes are what is appended to the buffer.
-/

import G5.Base.Decimal
import G5.Lib.SortedMap
import G5.Net.Buffer
import Mathlib.Data.List.Lex

set_option relaxedAutoImplicit false
set_option autoImplicit false

namespace G5

inductive HttpStatusCode
  | kUnknown
  | k200Ok
  | k301MovedPermanently
  | k400BadRequest
  | k404NotFound
  deriving DecidableEq, Repr

/-- The number of an enumerator. -/
def HttpStatusCode.value : HttpStatusCode → ℤ
  | .kUnknown => 0
  | .k200Ok => 200
  | .k301MovedPermanently => 301
  | .k400BadRequest => 400
  | .k404NotFound => 404

structure HttpResponse where
  headers : SortedMap (List Byte) (List Byte)
  statusCode : HttpStatusCode
  statusMessage : List Byte
  closeConnection : Bool
  body : List Byte
  deriving DecidableEq

/-- What `snprintf` leaves in an array of `size` characters, the final null character apart. -/
def snprintf (size : ℕ) (text : List Byte) : List Byte := text.take (size - 1)

namespace HttpResponse

/-! ### The functions -/

def new (close : Bool) : HttpResponse where
  headers := SortedMap.empty
  statusCode := .kUnknown
  statusMessage := []
  closeConnection := close
  body := []

def setStatusCode (r : HttpResponse) (code : HttpStatusCode) : HttpResponse :=
  { r with statusCode := code }

def setStatusMessage (r : HttpResponse) (message : List Byte) : HttpResponse :=
  { r with statusMessage := message }

def setCloseConnection (r : HttpResponse) (on : Bool) : HttpResponse :=
  { r with closeConnection := on }

def addHeader (r : HttpResponse) (key value : List Byte) : HttpResponse :=
  { r with headers := r.headers.insert key value }

def setContentType (r : HttpResponse) (contentType : List Byte) : HttpResponse :=
  r.addHeader (ascii "Content-Type") contentType

def setBody (r : HttpResponse) (body : List Byte) : HttpResponse := { r with body := body }

/-- The body of the loop over the headers. -/
def appendHeader (output : Buffer) (header : List Byte × List Byte) : Checked Buffer := do
  let output ← output.append header.1
  let output ← output.append (ascii ": ")
  let output ← output.append header.2
  output.append (ascii "\r\n")

def appendToBuffer (r : HttpResponse) (output : Buffer) : Checked Buffer := do
  let output ← output.append
    (snprintf 32 (ascii "HTTP/1.1 " ++ decimal r.statusCode.value ++ ascii " "))
  let output ← output.append r.statusMessage
  let output ← output.append (ascii "\r\n")
  let output ←
    if r.closeConnection then
      output.append (ascii "Connection: close\r\n")
    else do
      let output ← output.append
        (snprintf 32 (ascii "Content-Length: " ++ decimal (toInt64 r.body.length) ++ ascii "\r\n"))
      output.append (ascii "Connection: Keep-Alive\r\n")
  let output ← r.headers.entries.foldlM appendHeader output
  let output ← output.append (ascii "\r\n")
  output.append r.body

/-! ### The bytes of a response -/

/-- The line of a header. -/
def headerText (header : List Byte × List Byte) : List Byte :=
  header.1 ++ ascii ": " ++ header.2 ++ ascii "\r\n"

/-- The bytes of a response. -/
def text (r : HttpResponse) : List Byte :=
  snprintf 32 (ascii "HTTP/1.1 " ++ decimal r.statusCode.value ++ ascii " ") ++ r.statusMessage ++
    ascii "\r\n" ++
    (if r.closeConnection then ascii "Connection: close\r\n"
      else snprintf 32 (ascii "Content-Length: " ++ decimal (toInt64 r.body.length) ++
        ascii "\r\n") ++ ascii "Connection: Keep-Alive\r\n") ++
    r.headers.entries.flatMap headerText ++ ascii "\r\n" ++ r.body

section

variable {b : Buffer} {q : List Byte}

theorem append_represents (h : b.Represents q) (data : List Byte) :
    ∃ b', b.append data = .ok b' ∧ b'.Represents (q ++ data) := by
  obtain ⟨b', hb', hrep, -⟩ := Buffer.append_spec h data
  exact ⟨b', hb', hrep⟩

theorem appendHeader_spec (h : b.Represents q) (header : List Byte × List Byte) :
    ∃ b', appendHeader b header = .ok b' ∧ b'.Represents (q ++ headerText header) := by
  obtain ⟨b₁, hb₁, hrep₁⟩ := append_represents h header.1
  obtain ⟨b₂, hb₂, hrep₂⟩ := append_represents hrep₁ (ascii ": ")
  obtain ⟨b₃, hb₃, hrep₃⟩ := append_represents hrep₂ header.2
  obtain ⟨b₄, hb₄, hrep₄⟩ := append_represents hrep₃ (ascii "\r\n")
  refine ⟨b₄, ?_, ?_⟩
  · rw [appendHeader, hb₁, ok_bind, hb₂, ok_bind, hb₃, ok_bind, hb₄]
  · simpa only [headerText, List.append_assoc] using hrep₄

/-- The loop over the headers appends their lines. -/
theorem appendHeaders_spec (h : b.Represents q) (headers : List (List Byte × List Byte)) :
    ∃ b', headers.foldlM appendHeader b = .ok b' ∧
      b'.Represents (q ++ headers.flatMap headerText) := by
  induction headers generalizing b q with
  | nil => exact ⟨b, rfl, by simpa using h⟩
  | cons header rest ih =>
      obtain ⟨b₁, hb₁, hrep₁⟩ := appendHeader_spec h header
      obtain ⟨b₂, hb₂, hrep₂⟩ := ih hrep₁
      refine ⟨b₂, ?_, by simpa using hrep₂⟩
      rw [List.foldlM_cons, hb₁, ok_bind, hb₂]

/-- **What is appended to the buffer.** -/
theorem appendToBuffer_spec (r : HttpResponse) (h : b.Represents q) :
    ∃ b', r.appendToBuffer b = .ok b' ∧ b'.Represents (q ++ r.text) := by
  obtain ⟨b₁, hb₁, hrep₁⟩ := append_represents h
    (snprintf 32 (ascii "HTTP/1.1 " ++ decimal r.statusCode.value ++ ascii " "))
  obtain ⟨b₂, hb₂, hrep₂⟩ := append_represents hrep₁ r.statusMessage
  obtain ⟨b₃, hb₃, hrep₃⟩ := append_represents hrep₂ (ascii "\r\n")
  rw [appendToBuffer, hb₁, ok_bind, hb₂, ok_bind, hb₃, ok_bind, text]
  by_cases hclose : r.closeConnection
  · obtain ⟨b₄, hb₄, hrep₄⟩ := append_represents hrep₃ (ascii "Connection: close\r\n")
    obtain ⟨b₅, hb₅, hrep₅⟩ := appendHeaders_spec hrep₄ r.headers.entries
    obtain ⟨b₆, hb₆, hrep₆⟩ := append_represents hrep₅ (ascii "\r\n")
    obtain ⟨b₇, hb₇, hrep₇⟩ := append_represents hrep₆ r.body
    refine ⟨b₇, ?_, ?_⟩
    · simp only [if_pos hclose, hb₄, ok_bind, hb₅, hb₆, hb₇]
    · simpa only [if_pos hclose, List.append_assoc] using hrep₇
  · obtain ⟨b₄, hb₄, hrep₄⟩ := append_represents hrep₃ (snprintf 32
      (ascii "Content-Length: " ++ decimal (toInt64 r.body.length) ++ ascii "\r\n"))
    obtain ⟨b₅, hb₅, hrep₅⟩ := append_represents hrep₄ (ascii "Connection: Keep-Alive\r\n")
    obtain ⟨b₆, hb₆, hrep₆⟩ := appendHeaders_spec hrep₅ r.headers.entries
    obtain ⟨b₇, hb₇, hrep₇⟩ := append_represents hrep₆ (ascii "\r\n")
    obtain ⟨b₈, hb₈, hrep₈⟩ := append_represents hrep₇ r.body
    refine ⟨b₈, ?_, ?_⟩
    · simp only [if_neg hclose, hb₄, ok_bind, hb₅, hb₆, hb₇, hb₈]
    · simpa only [if_neg hclose, List.append_assoc] using hrep₈

end

end HttpResponse

end G5
