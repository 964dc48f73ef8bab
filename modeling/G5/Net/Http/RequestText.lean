/-
**Requests as they are written, and what the parser makes of them.**

A well-formed request is its request line, its header lines and an empty line, each with CR LF
behind it.

Main definitions:

* `RequestText`, `RequestText.text` — a well-formed request without a body, and its bytes;
* `HttpRequest.Carries` — a parsed request says what was written;
* `RequestText.Awaits` — the parser has read the lines of a request up to some point.

Main results:

* `RequestText.Awaits.parses_all` — **when the rest of the request is there, it is parsed to its
  end**, and no byte behind it is touched;
* `RequestText.Awaits.parses_part` — when only a part of it is there, the parser waits for what is
  missing.
-/

import G5.Net.Http.RequestLine

set_option relaxedAutoImplicit false
set_option autoImplicit false

namespace G5

open Search

/-! ### Requests as they are written -/

/-- A header line: the bytes before its first colon, and the ones behind it. -/
structure HeaderLine where
  field : List Byte
  raw : List Byte
  colon_notMem : kColon ∉ field
  no_crlf : ¬kCRLF <:+: field ++ kColon :: raw

/-- The bytes of the line. -/
def HeaderLine.text (h : HeaderLine) : List Byte := h.field ++ kColon :: h.raw

/-- The line `method target HTTP/1.1`. -/
def requestLineText (method : HttpRequest.Method) (target : List Byte) : List Byte :=
  method.name ++ kSpace :: (target ++ kSpace :: ascii "HTTP/1.1")

/-- A well-formed HTTP/1.1 request without a body. -/
structure RequestText where
  method : HttpRequest.Method
  target : List Byte
  headers : List HeaderLine
  method_valid : method ≠ .kInvalid
  space_notMem : kSpace ∉ target
  no_crlf : ¬kCRLF <:+: requestLineText method target

/-- Lines with CR LF behind each. -/
def joinLines (lines : List (List Byte)) : List Byte := lines.flatMap (· ++ kCRLF)

@[simp] theorem joinLines_cons (line : List Byte) (lines : List (List Byte)) :
    joinLines (line :: lines) = line ++ (kCRLF ++ joinLines lines) := by
  rw [joinLines, List.flatMap_cons, List.append_assoc]
  rfl

/-- The lines behind the request line: the headers, and an empty line. -/
def headerLines (headers : List HeaderLine) : List (List Byte) :=
  headers.map HeaderLine.text ++ [[]]

namespace RequestText

def lines (R : RequestText) : List (List Byte) :=
  requestLineText R.method R.target :: headerLines R.headers

/-- The bytes of a request. -/
def text (R : RequestText) : List Byte := joinLines R.lines

theorem text_length_pos (R : RequestText) : 0 < R.text.length := by
  rw [text, lines, joinLines_cons, List.length_append, List.length_append]
  have htwo : kCRLF.length = 2 := rfl
  omega

end RequestText

/-- The value of a header: that of the last line with this field, without the spaces around it. -/
def headerValue (headers : List HeaderLine) (field : List Byte) : Option (List Byte) :=
  (headers.reverse.find? fun h => h.field = field).map fun h => HttpRequest.trim h.raw

/-- The request has the method, the version, the path, the query and the headers that were
written. -/
structure HttpRequest.Carries (r : HttpRequest) (method : HttpRequest.Method)
    (target : List Byte) (headers : List HeaderLine) : Prop where
  method_eq : r.method = method
  version_eq : r.version = .kHttp11
  path_eq : r.path = target.takeWhile (· ≠ kQuestion)
  query_eq : r.query = target.dropWhile (· ≠ kQuestion)
  headers_eq : ∀ field, r.headers.find? field = headerValue headers field

/-! ### Lines are cut where they were joined -/

/-- A line without CR LF has none across its end either. -/
theorem no_crlf_across {line : List Byte} (h : ¬kCRLF <:+: line) :
    ¬kCRLF <:+: line ++ kCRLF.dropLast := by
  have hlast : kCRLF.dropLast = [13] := rfl
  rw [hlast, List.infix_concat_iff]
  rintro (hsuffix | hinfix)
  · rcases List.suffix_concat_iff.1 hsuffix with hnil | ⟨t, ht, -⟩
    · cases hnil
    · have hend := congrArg List.getLast? ht
      simp [kCRLF] at hend
  · exact h hinfix

theorem cut_line {line : List Byte} (h : ¬kCRLF <:+: line) (rest : List Byte) :
    cut kCRLF (line ++ (kCRLF ++ rest)) = some (line, rest) :=
  cut_append (by decide) (no_crlf_across h) rest

/-- Of the bytes of a line and the ones behind it, either the line is not complete or it is all
there. -/
theorem cut_prefix {line q rest : List Byte} (h : ¬kCRLF <:+: line)
    (hq : q <+: line ++ (kCRLF ++ rest)) :
    cut kCRLF q = none ∨ ∃ q', q = line ++ (kCRLF ++ q') ∧ q' <+: rest := by
  have hline : line ++ kCRLF <+: line ++ (kCRLF ++ rest) := by
    rw [← List.append_assoc]
    exact List.prefix_append _ _
  have hlen : (line ++ kCRLF).length = line.length + kCRLF.length := List.length_append
  by_cases hlt : q.length < line.length + kCRLF.length
  · left
    refine cut_eq_none_of_prefix (no_crlf_across h) ?_ hlt
    exact List.prefix_of_prefix_length_le hq hline (by omega)
  · right
    obtain ⟨q', rfl⟩ := List.prefix_of_prefix_length_le hline hq (by omega)
    refine ⟨q', List.append_assoc _ _ _, ?_⟩
    rw [← List.append_assoc, List.prefix_append_right_inj] at hq
    exact hq

/-! ### What the parser has read -/

theorem HeaderLine.idxOf_colon (h : HeaderLine) : h.text.idxOf kColon = h.field.length := by
  rw [HeaderLine.text, List.idxOf_append_of_notMem h.colon_notMem, List.idxOf_cons_self,
    Nat.add_zero]

theorem HeaderLine.text_no_crlf (h : HeaderLine) : ¬kCRLF <:+: h.text := h.no_crlf

theorem HeaderLine.colon_mem (h : HeaderLine) : kColon ∈ h.text := by
  unfold HeaderLine.text
  exact List.mem_append_right _ List.mem_cons_self

section

variable {r : HttpRequest} {m : HttpRequest.Method} {target : List Byte}
  {headers : List HeaderLine}

/-- A header line more. -/
theorem HttpRequest.Carries.addHeader (hr : r.Carries m target headers) (h : HeaderLine) :
    (r.addHeader h.text (h.text.idxOf kColon)).Carries m target (headers ++ [h]) := by
  refine ⟨hr.method_eq, hr.version_eq, hr.path_eq, hr.query_eq, ?_⟩
  intro field
  rw [h.idxOf_colon, HeaderLine.text, HttpRequest.find?_addHeader, headerValue,
    List.reverse_append, List.reverse_singleton, List.singleton_append, List.find?_cons]
  by_cases hfield : h.field = field
  · rw [if_pos hfield]
    simp [hfield]
  · rw [if_neg hfield, hr.headers_eq, headerValue]
    simp [hfield]

/-- Behind a request line. -/
theorem HttpRequest.carries_setTarget (t : ℤ) :
    ((HttpContext.setTarget HttpRequest.new m target).setReceiveTime t).Carries m target [] where
  method_eq := rfl
  version_eq := rfl
  path_eq := rfl
  query_eq := rfl
  headers_eq _ := rfl

end

namespace RequestText

/-- In the context `c`, the lines of `R` before `lines` have been read. -/
inductive Awaits (R : RequestText) : HttpContext → List (List Byte) → Prop
  | requestLine : Awaits R HttpContext.new R.lines
  | headers {r : HttpRequest} {done rest : List HeaderLine} (hsplit : R.headers = done ++ rest)
      (hr : r.Carries R.method R.target done) : Awaits R ⟨.kExpectHeaders, r⟩ (headerLines rest)

section

variable {R : RequestText} {c : HttpContext} {r : HttpRequest} {t : ℤ}
  {done rest : List HeaderLine} {lines : List (List Byte)}

theorem joinLines_headerLines_cons (h : HeaderLine) (rest : List HeaderLine) :
    joinLines (headerLines (h :: rest)) = h.text ++ (kCRLF ++ joinLines (headerLines rest)) := by
  rw [headerLines, List.map_cons, List.cons_append, joinLines_cons]
  rfl

theorem joinLines_headerLines_nil : joinLines (headerLines []) = [] ++ (kCRLF ++ []) := rfl

/-- The request line of `R` is read by a new parser. -/
theorem processRequestLine_text (R : RequestText) :
    HttpContext.new.processRequestLine (requestLineText R.method R.target) =
      .ok (true, ⟨.kExpectRequestLine,
        HttpContext.setTarget HttpRequest.new R.method R.target⟩) :=
  HttpContext.processRequestLine_eq R.method_valid R.space_notMem rfl rfl

theorem parses_headers (hsplit : R.headers = done ++ rest) (hr : r.Carries R.method R.target done)
    (more : List Byte) :
    ∃ r', HttpContext.Parses t ⟨.kExpectHeaders, r⟩ (joinLines (headerLines rest) ++ more) true
      ⟨.kGotAll, r'⟩ more ∧ r'.Carries R.method R.target R.headers := by
  -- induction on the header lines that are left
  induction rest generalizing r done with
  | nil =>
      have hcut : cut kCRLF ([] ++ (kCRLF ++ more)) = some ([], more) :=
        cut_line (by decide) more
      refine ⟨r, HttpContext.Parses.lastLine rfl hcut (by decide), ?_⟩
      rw [hsplit, List.append_nil]
      exact hr
  | cons h rest ih =>
      have hsplit' : R.headers = (done ++ [h]) ++ rest := by rw [hsplit]; simp
      obtain ⟨r', hparse, hr'⟩ := ih hsplit' (hr.addHeader h)
      refine ⟨r', ?_, hr'⟩
      rw [joinLines_headerLines_cons, List.append_assoc, List.append_assoc]
      exact HttpContext.Parses.header rfl (cut_line h.text_no_crlf _) h.colon_mem hparse

/-- **When the rest of the request is there, it is parsed to its end.** -/
theorem Awaits.parses_all (h : R.Awaits c lines) (more : List Byte) :
    ∃ r', c.Parses t (joinLines lines ++ more) true ⟨.kGotAll, r'⟩ more ∧
      r'.Carries R.method R.target R.headers := by
  cases h with
  | requestLine =>
      obtain ⟨r', hparse, hr'⟩ := parses_headers (List.nil_append R.headers).symm
        (HttpRequest.carries_setTarget t) more
      refine ⟨r', ?_, hr'⟩
      rw [lines, joinLines_cons, List.append_assoc, List.append_assoc]
      exact HttpContext.Parses.requestLine rfl (cut_line R.no_crlf _) R.processRequestLine_text
        hparse
  | headers hsplit hr => exact parses_headers hsplit hr more

/-- The parser stops where it is. -/
theorem Awaits.wait {q : List Byte} (h : R.Awaits c lines) (hcut : cut kCRLF q = none) :
    ∃ c' lines' used q', c.Parses t q true c' q' ∧ c'.state ≠ .kGotAll ∧ R.Awaits c' lines' ∧
      q = used ++ q' ∧ joinLines lines = used ++ joinLines lines' := by
  cases h with
  | requestLine =>
      refine ⟨_, _, [], q, HttpContext.Parses.wait (Or.inl rfl) hcut, ?_, .requestLine, rfl, rfl⟩
      intro hstate
      cases hstate
  | headers hsplit hr =>
      refine ⟨_, _, [], q, HttpContext.Parses.wait (Or.inr rfl) hcut, ?_, .headers hsplit hr, rfl,
        rfl⟩
      intro hstate
      cases hstate

theorem parses_headers_part {q : List Byte} (hsplit : R.headers = done ++ rest)
    (hr : r.Carries R.method R.target done) (hq : q <+: joinLines (headerLines rest))
    (hlen : q.length < (joinLines (headerLines rest)).length) :
    ∃ c' lines' used q', HttpContext.Parses t ⟨.kExpectHeaders, r⟩ q true c' q' ∧
      c'.state ≠ .kGotAll ∧ R.Awaits c' lines' ∧ q = used ++ q' ∧
      joinLines (headerLines rest) = used ++ joinLines lines' := by
  -- induction on the header lines that are left
  induction rest generalizing r done q with
  | nil =>
      have hwait := (Awaits.headers hsplit hr).wait (t := t) (q := q)
      rw [joinLines_headerLines_nil] at hq hlen
      rcases cut_prefix (by decide) hq with hcut | ⟨q', rfl, -⟩
      · exact hwait hcut
      · rw [List.length_append, List.length_append, List.length_append, List.length_append,
          List.length_nil] at hlen
        omega
  | cons h rest ih =>
      have hsplit' : R.headers = (done ++ [h]) ++ rest := by rw [hsplit]; simp
      have hwait := (Awaits.headers hsplit hr).wait (t := t) (q := q)
      rw [joinLines_headerLines_cons] at hq hlen
      rcases cut_prefix h.text_no_crlf hq with hcut | ⟨q₁, rfl, hq₁⟩
      · exact hwait hcut
      · -- the line is complete, and the parser goes on behind it
        have hlen₁ : q₁.length < (joinLines (headerLines rest)).length := by
          rw [List.length_append, List.length_append, List.length_append,
            List.length_append] at hlen
          omega
        obtain ⟨c', lines', used, q', hparse, hstate, hawaits, hused, hlines⟩ :=
          ih hsplit' (hr.addHeader h) hq₁ hlen₁
        refine ⟨c', lines', h.text ++ (kCRLF ++ used), q', ?_, hstate, hawaits, ?_, ?_⟩
        · exact HttpContext.Parses.header rfl (cut_line h.text_no_crlf q₁) h.colon_mem hparse
        · rw [hused, List.append_assoc, List.append_assoc]
        · rw [joinLines_headerLines_cons, hlines, List.append_assoc, List.append_assoc]

/-- **When only a part of it is there, the parser waits for what is missing.** -/
theorem Awaits.parses_part {q : List Byte} (h : R.Awaits c lines) (hq : q <+: joinLines lines)
    (hlen : q.length < (joinLines lines).length) :
    ∃ c' lines' used q', c.Parses t q true c' q' ∧ c'.state ≠ .kGotAll ∧ R.Awaits c' lines' ∧
      q = used ++ q' ∧ joinLines lines = used ++ joinLines lines' := by
  have hwait := h.wait (t := t) (q := q)
  cases h with
  | requestLine =>
      rw [RequestText.lines, joinLines_cons] at hq hlen
      rcases cut_prefix R.no_crlf hq with hcut | ⟨q₁, rfl, hq₁⟩
      · exact hwait hcut
      · have hlen₁ : q₁.length < (joinLines (headerLines R.headers)).length := by
          rw [List.length_append, List.length_append, List.length_append,
            List.length_append] at hlen
          omega
        obtain ⟨c', lines', used, q', hparse, hstate, hawaits, hused, hlines⟩ :=
          parses_headers_part (t := t) (List.nil_append R.headers).symm
            (HttpRequest.carries_setTarget t) hq₁ hlen₁
        refine ⟨c', lines', requestLineText R.method R.target ++ (kCRLF ++ used), q', ?_, hstate,
          hawaits, ?_, ?_⟩
        · exact HttpContext.Parses.requestLine rfl (cut_line R.no_crlf q₁)
            R.processRequestLine_text hparse
        · rw [hused, List.append_assoc, List.append_assoc]
        · rw [RequestText.lines, joinLines_cons, hlines, List.append_assoc, List.append_assoc]
  | headers hsplit hr => exact parses_headers_part hsplit hr hq hlen

end

end RequestText

end G5
