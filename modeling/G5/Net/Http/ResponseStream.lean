/-
**Reading responses back from a stream.**

The responses of a connection are written one after the other.  A reader takes a status line and
header lines up to an empty line, and then as many bytes as `Content-Length` says, or all that is
left when the connection is to be closed.  The bytes of a body may look like anything, a response
included: the reader never looks into them.

Main definitions:

* `ResponseContent`, `HttpResponse.content` — what a response says;
* `ResponseStream.decode` — the reader;
* `HttpResponse.Clean` — no line break in what is written on a line, no key that the writer uses
  itself, and a length that fits.

Main results:

* `HttpResponse.text_eq` — the bytes of a response, as lines and a body;
* `ResponseStream.decode_responses` — **a stream of responses is read as it was written**.
-/

import G5.Net.Http.HeaderSection
import G5.Net.Http.HttpResponse

set_option relaxedAutoImplicit false
set_option autoImplicit false

namespace G5

open Search

/-- What a response says. -/
structure ResponseContent where
  statusCode : ℤ
  statusMessage : List Byte
  headers : SortedMap (List Byte) (List Byte)
  closeConnection : Bool
  body : List Byte
  deriving DecidableEq

def HttpResponse.content (r : HttpResponse) : ResponseContent :=
  ⟨r.statusCode.value, r.statusMessage, r.headers, r.closeConnection, r.body⟩

/-! ### The reader -/

namespace ResponseStream

/-- The status code and the message of a status line. -/
def decodeStatusLine (line : List Byte) : Option (ℤ × List Byte) := do
  let (version, rest) ← cut [kSpace] line
  if version = ascii "HTTP/1.1" then
    let (code, message) ← cut [kSpace] rest
    let n ← readDecimal code
    return ((n : ℤ), message)
  else none

/-- The header lines up to the empty line, for a number of lines, and what is behind them. -/
def decodeHeaders : ℕ → List Byte → Option (List (List Byte × List Byte) × List Byte)
  | 0, _ => none
  | fuel + 1, s => do
      let (line, rest) ← cut kCRLF s
      if line = [] then return ([], rest)
      else
        let header ← cut (ascii ": ") line
        let (headers, rest) ← decodeHeaders fuel rest
        return (header :: headers, rest)

/-- The headers that frame a response. -/
def isFraming (key : List Byte) : Bool := key = ascii "Content-Length" ∨ key = ascii "Connection"

/-- The first response of the stream, and what is behind it. -/
def decodeResponse (s : List Byte) : Option (ResponseContent × List Byte) := do
  let (line, rest) ← cut kCRLF s
  let (code, message) ← decodeStatusLine line
  let (headers, rest) ← decodeHeaders (rest.length + 1) rest
  let others := SortedMap.ofList (headers.filter fun h => !isFraming h.1)
  if (ascii "Connection", ascii "close") ∈ headers then
    return (⟨code, message, others, true, rest⟩, [])
  else
    let length ← headers.find? fun h => h.1 = ascii "Content-Length"
    let n ← readDecimal length.2
    if n ≤ rest.length then return (⟨code, message, others, false, rest.take n⟩, rest.drop n)
    else none

/-- The responses of a stream, for a number of responses. -/
def decodeAll : ℕ → List Byte → Option (List ResponseContent)
  | _, [] => some []
  | 0, _ :: _ => none
  | fuel + 1, c :: s => do
      let (r, rest) ← decodeResponse (c :: s)
      let rs ← decodeAll fuel rest
      return r :: rs

/-- The reader.  A response takes at least a byte. -/
def decode (s : List Byte) : Option (List ResponseContent) := decodeAll s.length s

end ResponseStream

/-! ### The lines of a response -/

namespace HttpResponse

/-- What is written between line breaks has none, the keys are not the ones the writer uses itself,
and the length has at most thirteen digits. -/
structure Clean (r : HttpResponse) : Prop where
  message : 13 ∉ r.statusMessage ∧ 10 ∉ r.statusMessage
  keys : ∀ h ∈ r.headers.entries, 13 ∉ h.1 ∧ 10 ∉ h.1 ∧ kColon ∉ h.1 ∧
    h.1 ≠ ascii "Content-Length" ∧ h.1 ≠ ascii "Connection"
  values : ∀ h ∈ r.headers.entries, 13 ∉ h.2 ∧ 10 ∉ h.2
  body_lt : r.body.length < 10 ^ 13

/-- The status line. -/
def statusLine (r : HttpResponse) : List Byte :=
  ascii "HTTP/1.1" ++ (kSpace :: (decimal r.statusCode.value ++ (kSpace :: r.statusMessage)))

/-- A header as it is written, without the line break. -/
def headerLine (header : List Byte × List Byte) : List Byte :=
  header.1 ++ (ascii ": " ++ header.2)

/-- The headers that are written: two that frame the response, or one, and the ones of the map. -/
def allHeaders (r : HttpResponse) : List (List Byte × List Byte) :=
  (if r.closeConnection then [(ascii "Connection", ascii "close")]
    else [(ascii "Content-Length", decimal r.body.length),
      (ascii "Connection", ascii "Keep-Alive")]) ++ r.headers.entries

section

variable {r : HttpResponse}

theorem snprintf_of_lt {text : List Byte} {size : ℕ} (h : text.length < size) :
    snprintf size text = text := List.take_of_length_le (by omega)

/-- A status code is a natural number of three digits. -/
theorem HttpStatusCode.exists_value (code : HttpStatusCode) :
    ∃ n : ℕ, code.value = n ∧ n < 10 ^ 3 := by
  cases code
  · exact ⟨0, rfl, by decide⟩
  · exact ⟨200, rfl, by decide⟩
  · exact ⟨301, rfl, by decide⟩
  · exact ⟨400, rfl, by decide⟩
  · exact ⟨404, rfl, by decide⟩

theorem flatMap_headerText (headers : List (List Byte × List Byte)) :
    headers.flatMap headerText = joinLines (headers.map headerLine) := by
  rw [joinLines, List.flatMap_map]
  refine List.flatMap_congr fun h _ => ?_
  rw [headerText, headerLine, List.append_assoc h.1]
  rfl

/-- **The bytes of a response, as lines and a body.** -/
theorem text_eq (h : r.body.length < 10 ^ 13) :
    r.text = joinLines (r.statusLine :: r.allHeaders.map headerLine ++ [[]]) ++ r.body := by
  obtain ⟨n, hvalue, hn⟩ := HttpStatusCode.exists_value r.statusCode
  have hcode := length_decimal_le (n := n) (by decide) hn
  have hlength := length_decimal_le (n := r.body.length) (by decide) h
  have hint : toInt64 r.body.length = r.body.length := by
    refine toInt64_eq (by omega) ?_
    have hlt : 10 ^ 13 < 2 ^ 63 := by decide
    omega
  -- neither of the two texts is cut by the array it is printed into
  have hstatus : (ascii "HTTP/1.1 " ++ decimal r.statusCode.value ++ ascii " ").length < 32 := by
    rw [hvalue, List.length_append, List.length_append]
    have h₁ : (ascii "HTTP/1.1 ").length = 9 := rfl
    have h₂ : (ascii " ").length = 1 := rfl
    omega
  have hframe :
      (ascii "Content-Length: " ++ decimal r.body.length ++ ascii "\r\n").length < 32 := by
    rw [List.length_append, List.length_append]
    have h₁ : (ascii "Content-Length: ").length = 16 := rfl
    have h₂ : (ascii "\r\n").length = 2 := rfl
    omega
  have hcrlf : ascii "\r\n" = kCRLF := rfl
  have hversion : ascii "HTTP/1.1 " = ascii "HTTP/1.1" ++ [kSpace] := rfl
  have hspace : ascii " " = [kSpace] := rfl
  have hlen : ascii "Content-Length: " = ascii "Content-Length" ++ ascii ": " := rfl
  have hclose : ascii "Connection: close\r\n" =
      headerLine (ascii "Connection", ascii "close") ++ kCRLF := rfl
  have hkeep : ascii "Connection: Keep-Alive\r\n" =
      headerLine (ascii "Connection", ascii "Keep-Alive") ++ kCRLF := rfl
  have hempty : joinLines [[]] = kCRLF := rfl
  rw [text, hint, snprintf_of_lt hstatus, snprintf_of_lt hframe, flatMap_headerText, statusLine,
    allHeaders, hversion, hspace, hcrlf, hlen, hclose, hkeep, List.cons_append, joinLines_cons,
    HeaderSection.joinLines_append, hempty]
  by_cases hc : r.closeConnection
  · simp only [if_pos hc, List.map_cons, joinLines_cons, List.append_assoc, List.cons_append,
      List.nil_append]
  · simp only [if_neg hc, List.map_cons, joinLines_cons, List.append_assoc, List.cons_append,
      List.nil_append, headerLine]

end

end HttpResponse

/-! ### Reading the lines back -/

theorem length_le_joinLines (lines : List (List Byte)) :
    lines.length ≤ (joinLines lines).length := by
  induction lines with
  | nil => exact Nat.le_refl 0
  | cons line lines ih =>
      have htwo : kCRLF.length = 2 := rfl
      rw [joinLines_cons, List.length_append, List.length_append, List.length_cons]
      omega

theorem isLine_of_notMem {line : List Byte} (h : 13 ∉ line) : IsLine line := by
  intro hinside
  exact h (hinside.subset (by decide))

namespace ResponseStream

open HttpResponse

section

variable {r : HttpResponse} {headers : List (List Byte × List Byte)} {rest : List Byte}

/-- A header that can be told from the line it is written on. -/
structure Legible (header : List Byte × List Byte) : Prop where
  key : 13 ∉ header.1
  value : 13 ∉ header.2
  colon : kColon ∉ header.1

theorem Legible.isLine {header : List Byte × List Byte} (h : Legible header) :
    IsLine (headerLine header) := by
  refine isLine_of_notMem ?_
  unfold headerLine
  rw [List.mem_append, List.mem_append]
  rintro (hkey | hsep | hvalue)
  · exact h.key hkey
  · exact absurd hsep (by decide)
  · exact h.value hvalue

theorem Legible.cut_eq {header : List Byte × List Byte} (h : Legible header) :
    cut (ascii ": ") (headerLine header) = some header := by
  refine cut_append (by decide) ?_ header.2
  -- the only colon is at the end
  have hlast : (ascii ": ").dropLast = [kColon] := rfl
  rw [hlast, List.infix_concat_iff]
  rintro (hsuffix | hinside)
  · rcases List.suffix_concat_iff.1 hsuffix with hnil | ⟨t, ht, -⟩
    · cases hnil
    · have hend := congrArg List.getLast? ht
      rw [List.getLast?_concat] at hend
      exact absurd hend (by decide)
  · exact h.colon (hinside.subset (by decide))

/-- The header lines are read back. -/
theorem decodeHeaders_joinLines (hlegible : ∀ h ∈ headers, Legible h) {fuel : ℕ}
    (hfuel : headers.length < fuel) (rest : List Byte) :
    decodeHeaders fuel (joinLines (headers.map headerLine ++ [[]]) ++ rest) =
      some (headers, rest) := by
  induction headers generalizing fuel with
  | nil =>
      obtain ⟨fuel, rfl⟩ := Nat.exists_eq_succ_of_ne_zero (Nat.ne_zero_of_lt hfuel)
      have hcut : cut kCRLF ([] ++ (kCRLF ++ rest)) = some ([], rest) := cut_line (by decide) rest
      have hnil : joinLines (List.map headerLine [] ++ [[]]) ++ rest = [] ++ (kCRLF ++ rest) := rfl
      rw [hnil, decodeHeaders, hcut]
      rfl
  | cons h headers ih =>
      obtain ⟨fuel, rfl⟩ := Nat.exists_eq_succ_of_ne_zero (Nat.ne_zero_of_lt hfuel)
      rw [List.length_cons] at hfuel
      have hh := hlegible h List.mem_cons_self
      have hrest := ih (fun h' hh' => hlegible h' (List.mem_cons_of_mem h hh'))
        (Nat.lt_of_succ_lt_succ hfuel)
      have hne : headerLine h ≠ [] := by
        intro hnil
        have hlen := congrArg List.length hnil
        rw [headerLine, List.length_append, List.length_append] at hlen
        have htwo : (ascii ": ").length = 2 := rfl
        rw [List.length_nil] at hlen
        omega
      rw [List.map_cons, List.cons_append, joinLines_cons, List.append_assoc, List.append_assoc,
        decodeHeaders, cut_line hh.isLine]
      simp only [Option.bind_eq_bind, Option.bind_some, if_neg hne, hh.cut_eq, hrest]
      rfl

/-! ### Reading a response back -/

theorem cut_space {line : List Byte} (h : kSpace ∉ line) (rest : List Byte) :
    cut [kSpace] (line ++ (kSpace :: rest)) = some (line, rest) := by
  refine cut_append (by decide) ?_ rest
  intro hinside
  have hmem : kSpace ∈ line ++ [kSpace].dropLast := hinside.subset List.mem_cons_self
  exact h (by simpa using hmem)

theorem decodeStatusLine_statusLine (r : HttpResponse) :
    decodeStatusLine r.statusLine = some (r.statusCode.value, r.statusMessage) := by
  obtain ⟨n, hvalue, -⟩ := HttpStatusCode.exists_value r.statusCode
  have hversion : kSpace ∉ ascii "HTTP/1.1" := by decide
  have hcode : kSpace ∉ decimal n := notMem_decimal (by decide)
  rw [decodeStatusLine, statusLine, cut_space hversion, hvalue]
  simp only [Option.bind_eq_bind, Option.bind_some, if_true, cut_space hcode,
    readDecimal_decimal]
  rfl

theorem isLine_statusLine (h : 13 ∉ r.statusMessage) : IsLine r.statusLine := by
  obtain ⟨n, hvalue, -⟩ := HttpStatusCode.exists_value r.statusCode
  have hcode : 13 ∉ decimal n := notMem_decimal (by decide)
  have hversion : 13 ∉ ascii "HTTP/1.1" := by decide
  have hspace : 13 ≠ kSpace := by decide
  refine isLine_of_notMem ?_
  rw [statusLine, hvalue]
  simp only [List.mem_append, List.mem_cons]
  rintro (hv | hs | hc | hs | hm)
  · exact hversion hv
  · exact hspace hs
  · exact hcode hc
  · exact hspace hs
  · exact h hm

/-- The headers that are written can be told from their lines. -/
theorem legible_allHeaders (hr : r.Clean) : ∀ h ∈ r.allHeaders, Legible h := by
  intro h hh
  rcases List.mem_append.1 hh with hframe | hentry
  · have hlength : 13 ∉ decimal r.body.length := notMem_decimal (by decide)
    have hkey : 13 ∉ ascii "Content-Length" := by decide
    have hcolon : kColon ∉ ascii "Content-Length" := by decide
    split at hframe
    · rw [List.mem_singleton] at hframe
      exact hframe ▸ ⟨by decide, by decide, by decide⟩
    · rcases List.mem_cons.1 hframe with rfl | hframe
      · exact ⟨hkey, hlength, hcolon⟩
      · rw [List.mem_singleton] at hframe
        exact hframe ▸ ⟨by decide, by decide, by decide⟩
  · obtain ⟨hkey, -, hcolon, -, -⟩ := hr.keys h hentry
    exact ⟨hkey, (hr.values h hentry).1, hcolon⟩

/-- Without the headers that frame the response, the ones of the map are left. -/
theorem filter_allHeaders (hr : r.Clean) :
    r.allHeaders.filter (fun h => !isFraming h.1) = r.headers.entries := by
  have hentries : r.headers.entries.filter (fun h => !isFraming h.1) = r.headers.entries := by
    refine List.filter_eq_self.2 fun h hh => ?_
    obtain ⟨-, -, -, hlength, hconnection⟩ := hr.keys h hh
    simp [isFraming, hlength, hconnection]
  have hclose : isFraming (ascii "Connection") = true := by decide
  have hlength : isFraming (ascii "Content-Length") = true := by decide
  rw [allHeaders, List.filter_append, hentries]
  split <;> simp [hclose, hlength]

theorem connectionClose_mem_iff (hr : r.Clean) :
    (ascii "Connection", ascii "close") ∈ r.allHeaders ↔ r.closeConnection = true := by
  have hno : (ascii "Connection", ascii "close") ∉ r.headers.entries :=
    fun hmem => (hr.keys _ hmem).2.2.2.2 rfl
  have hne : ascii "Connection" ≠ ascii "Content-Length" := by decide
  have hne' : ascii "close" ≠ ascii "Keep-Alive" := by decide
  rw [allHeaders, List.mem_append, or_iff_left hno]
  split
  · rename_i hclose
    simp [hclose]
  · rename_i hclose
    simp [hclose, hne, hne']

/-- The lines of a response, and what is behind them. -/
theorem decode_lines (hr : r.Clean) (rest : List Byte) :
    ∃ line after, cut kCRLF (r.text ++ rest) = some (line, after) ∧
      decodeStatusLine line = some (r.statusCode.value, r.statusMessage) ∧
      decodeHeaders (after.length + 1) after = some (r.allHeaders, r.body ++ rest) := by
  refine ⟨r.statusLine, joinLines (r.allHeaders.map headerLine ++ [[]]) ++ (r.body ++ rest), ?_,
    decodeStatusLine_statusLine r, ?_⟩
  · rw [text_eq hr.body_lt, List.cons_append, joinLines_cons]
    simp only [List.append_assoc]
    exact cut_line (isLine_statusLine hr.message.1) _
  · refine decodeHeaders_joinLines (legible_allHeaders hr) ?_ _
    have hlen := length_le_joinLines (r.allHeaders.map headerLine ++ [[]])
    rw [List.length_append, List.length_map] at hlen
    rw [List.length_append]
    omega

/-- **A response is read back**, and what is behind it is left. -/
theorem decodeResponse_text (hr : r.Clean) (hkeep : r.closeConnection = false)
    (rest : List Byte) : decodeResponse (r.text ++ rest) = some (r.content, rest) := by
  obtain ⟨line, after, hcut, hstatus, hheaders⟩ := decode_lines hr rest
  have hclose : (ascii "Connection", ascii "close") ∉ r.allHeaders := by
    rw [connectionClose_mem_iff hr, hkeep]
    exact Bool.false_ne_true
  have hlength : (r.allHeaders.find? fun h => h.1 = ascii "Content-Length") =
      some (ascii "Content-Length", decimal r.body.length) := by
    rw [allHeaders, hkeep]
    simp
  have hfit : r.body.length ≤ (r.body ++ rest).length := by
    rw [List.length_append]
    omega
  rw [decodeResponse, hcut]
  simp only [Option.bind_eq_bind, Option.bind_some, hstatus, hheaders, filter_allHeaders hr,
    SortedMap.ofList_entries, if_neg hclose, hlength, readDecimal_decimal, if_pos hfit,
    List.take_left, List.drop_left, HttpResponse.content, hkeep]
  rfl

/-- **A response that closes the connection is read to the end of the stream.** -/
theorem decodeResponse_text_of_close (hr : r.Clean) (hclose : r.closeConnection = true) :
    decodeResponse r.text = some (r.content, []) := by
  obtain ⟨line, after, hcut, hstatus, hheaders⟩ := decode_lines hr []
  have hmem := (connectionClose_mem_iff hr).2 hclose
  rw [List.append_nil] at hcut hheaders
  rw [decodeResponse, hcut]
  simp only [Option.bind_eq_bind, Option.bind_some, hstatus, hheaders, filter_allHeaders hr,
    SortedMap.ofList_entries, if_pos hmem, HttpResponse.content, hclose]
  rfl

theorem text_length_pos (hr : r.Clean) : 0 < r.text.length := by
  rw [text_eq hr.body_lt, List.cons_append, joinLines_cons, List.length_append,
    List.length_append, List.length_append]
  have htwo : kCRLF.length = 2 := rfl
  omega

/-! ### Reading a stream back -/

theorem decodeAll_succ {s : List Byte} (hs : 0 < s.length) (fuel : ℕ) :
    decodeAll (fuel + 1) s =
      (decodeResponse s).bind fun p => (decodeAll fuel p.2).map fun rs => p.1 :: rs := by
  cases s with
  | nil => cases hs
  | cons c s =>
      rw [decodeAll]
      cases decodeResponse (c :: s) with
      | none => rfl
      | some p =>
          obtain ⟨r, rest⟩ := p
          rw [Option.bind_eq_bind, Option.bind_some, Option.bind_some]
          simp only
          cases decodeAll fuel rest <;> rfl

theorem decodeAll_nil (fuel : ℕ) : decodeAll fuel [] = some [] := by
  cases fuel <;> rfl

/-- The responses of a stream are read one after the other. -/
theorem decodeAll_texts {last : Option HttpResponse} (hlast : ∀ r ∈ last, r.Clean ∧
    r.closeConnection = true) {keep : List HttpResponse} (hkeep : ∀ r ∈ keep, r.Clean ∧
    r.closeConnection = false) {fuel : ℕ}
    (hfuel : ((keep ++ last.toList).flatMap text).length ≤ fuel) :
    decodeAll fuel ((keep ++ last.toList).flatMap text) =
      some ((keep ++ last.toList).map content) := by
  -- induction on the responses that keep the connection open
  induction keep generalizing fuel with
  | nil =>
      cases last with
      | none => exact decodeAll_nil fuel
      | some r =>
          obtain ⟨hr, hclose⟩ := hlast r rfl
          have hpos := text_length_pos hr
          have htext : ([] ++ (some r).toList).flatMap text = r.text := List.append_nil _
          rw [htext] at hfuel ⊢
          obtain ⟨fuel, rfl⟩ := Nat.exists_eq_succ_of_ne_zero (n := fuel) (by omega)
          rw [decodeAll_succ hpos, decodeResponse_text_of_close hr hclose, Option.bind_some,
            decodeAll_nil]
          rfl
  | cons r keep ih =>
      obtain ⟨hr, hopen⟩ := hkeep r List.mem_cons_self
      have hpos := text_length_pos hr
      rw [List.cons_append, List.flatMap_cons, List.length_append] at hfuel
      obtain ⟨fuel, rfl⟩ := Nat.exists_eq_succ_of_ne_zero (n := fuel) (by omega)
      rw [List.cons_append, List.flatMap_cons,
        decodeAll_succ (by rw [List.length_append]; omega), decodeResponse_text hr hopen,
        Option.bind_some, ih (fun r' hr' => hkeep r' (List.mem_cons_of_mem r hr')) (by omega)]
      rfl

/-- What the responses append to a buffer, one after the other. -/
theorem appendAll_spec {b : Buffer} {q : List Byte} (h : b.Represents q)
    (responses : List HttpResponse) :
    ∃ b', responses.foldlM (fun b r => r.appendToBuffer b) b = .ok b' ∧
      b'.Represents (q ++ responses.flatMap text) := by
  induction responses generalizing b q with
  | nil => exact ⟨b, rfl, by simpa using h⟩
  | cons r responses ih =>
      obtain ⟨b₁, hb₁, hrep₁⟩ := r.appendToBuffer_spec h
      obtain ⟨b₂, hb₂, hrep₂⟩ := ih hrep₁
      refine ⟨b₂, ?_, by simpa using hrep₂⟩
      rw [List.foldlM_cons, hb₁, ok_bind, hb₂]

end

/-- **A stream of responses is read as it was written**: any number of responses that keep the
connection open, and behind them possibly one that closes it. -/
theorem decode_responses {b : Buffer} (hb : b.Represents []) (keep : List HttpResponse)
    (last : Option HttpResponse) (hkeep : ∀ r ∈ keep, r.closeConnection = false)
    (hlast : ∀ r ∈ last, r.closeConnection = true)
    (hclean : ∀ r ∈ keep ++ last.toList, r.Clean) :
    ∃ b', (keep ++ last.toList).foldlM (fun b r => r.appendToBuffer b) b = .ok b' ∧
      decode b'.readable = some ((keep ++ last.toList).map content) := by
  obtain ⟨b', hb', hrep⟩ := appendAll_spec hb (keep ++ last.toList)
  refine ⟨b', hb', ?_⟩
  rw [List.nil_append] at hrep
  rw [hrep.readable_eq, decode]
  refine decodeAll_texts ?_ ?_ (Nat.le_refl _)
  · intro r hr
    exact ⟨hclean r (List.mem_append_right keep (Option.mem_toList.2 hr)), hlast r hr⟩
  · intro r hr
    exact ⟨hclean r (List.mem_append_left _ hr), hkeep r hr⟩

/-- A response whose body looks like the end of a response and the beginning of another one. -/
def demoKeep : HttpResponse :=
  (((HttpResponse.new false).setStatusCode .k200Ok).setStatusMessage
    (ascii "All is well")).addHeader (ascii "Server") (ascii "g5: v1")
    |>.setBody (ascii "\r\n\r\nHTTP/1.1 404 ")

/-- A response that closes the connection. -/
def demoClose : HttpResponse :=
  (((HttpResponse.new true).setStatusCode .k404NotFound).setBody (ascii "gone"))

/-- The theorem on two responses that keep the connection open and one that closes it. -/
theorem decode_responses_demo :
    ∃ b', ([demoKeep, demoKeep] ++ (some demoClose).toList).foldlM
        (fun b r => r.appendToBuffer b) (Buffer.empty 16) = .ok b' ∧
      decode b'.readable =
        some (([demoKeep, demoKeep] ++ (some demoClose).toList).map content) := by
  have hkeep : demoKeep.Clean :=
    ⟨by decide, by decide, by decide, by decide⟩
  have hclose : demoClose.Clean :=
    ⟨by decide, by decide, by decide, by decide⟩
  refine decode_responses (Buffer.represents_empty 16) [demoKeep, demoKeep] (some demoClose)
    (by decide) (by decide) ?_
  intro r hr
  simp only [Option.toList_some, List.cons_append, List.nil_append, List.mem_cons,
    List.not_mem_nil, or_false] at hr
  rcases hr with rfl | rfl | rfl
  · exact hkeep
  · exact hkeep
  · exact hclose

end ResponseStream

end G5
