/-
**Where the header section ends.**

The header lines of a request are followed by an empty line.  The parser looks for a colon in each
line instead, and takes the first line without one for the end, whatever stands in it: a line that
is not a header is swallowed as the end of the request, and what follows it is parsed as the next
request.

Main definitions:

* `HeaderSection.EndsAtEmptyLine`, `HeaderSection.HasBadHeader` — texts whose header section ends
  with an empty line, and texts with a line in it that is neither empty nor a header;
* `HeaderSection.Exact` — a call of the parser on a text accepts it when and only when it should.

Main results:

* `HeaderSection.gotAll_iff` — the parser accepts a text when there is any line without a colon
  behind the headers;
* `HeaderSection.exact_iff` — **the parser is exact on the texts without a bad header**, and on no
  others.
-/

import G5.Net.Http.Incremental
import G5.Net.Http.RequestText

set_option relaxedAutoImplicit false
set_option autoImplicit false

namespace G5

open Search HttpContext

/-- A line of a text: CR LF is not in it. -/
def IsLine (line : List Byte) : Prop := ¬kCRLF <:+: line

instance (line : List Byte) : Decidable (IsLine line) := inferInstanceAs (Decidable (¬_))

/-- A header line has a colon. -/
def IsHeader (line : List Byte) : Prop := IsLine line ∧ kColon ∈ line

namespace HeaderSection

/-- The text begins with a request line, header lines, and then the line `last`. -/
def LinesUpTo (last text : List Byte) : Prop :=
  ∃ (line : List Byte) (headers : List (List Byte)) (rest : List Byte),
    ValidRequestLine line ∧ IsLine line ∧ (∀ h ∈ headers, IsHeader h) ∧
      text = joinLines (line :: headers ++ [last]) ++ rest

/-- The headers are followed by an empty line. -/
def EndsAtEmptyLine (text : List Byte) : Prop := LinesUpTo [] text

/-- Among the header lines there is one that is neither empty nor has a colon. -/
def HasBadHeader (text : List Byte) : Prop :=
  ∃ bad, bad ≠ [] ∧ IsLine bad ∧ kColon ∉ bad ∧ LinesUpTo bad text

/-- A call of a new parser on the buffer accepts a request that ends with an empty line and nothing
else, and rejects one with a bad header. -/
def Exact (b : Buffer) (t : ℤ) : Prop :=
  ∃ ok c b', new.parseRequest b t = .ok (some (ok, c, b')) ∧
    (c.gotAll = true ↔ EndsAtEmptyLine b.readable) ∧
    (HasBadHeader b.readable → ok = false ∧ c.gotAll = false)

/-! ### The lines the parser reads -/

section

variable {t : ℤ} {c c' : HttpContext} {q q' line rest last text : List Byte} {ok : Bool}
  {headers : List (List Byte)}

theorem joinLines_append (lines lines' : List (List Byte)) :
    joinLines (lines ++ lines') = joinLines lines ++ joinLines lines' :=
  List.flatMap_append

/-- A line that is cut off is a line. -/
theorem line_of_cut (h : cut kCRLF q = some (line, rest)) :
    q = line ++ (kCRLF ++ rest) ∧ IsLine line := eq_of_cut (by decide) h

/-- Header lines are read up to a line without a colon, whatever it is. -/
theorem parses_headers_to (r : HttpRequest) (hheaders : ∀ h ∈ headers, IsHeader h)
    (hlast : IsLine last) (hcolon : kColon ∉ last) (rest : List Byte) :
    ∃ r', Parses t ⟨.kExpectHeaders, r⟩ (joinLines (headers ++ [last]) ++ rest) true
      ⟨.kGotAll, r'⟩ rest := by
  induction headers generalizing r with
  | nil =>
      refine ⟨r, ?_⟩
      rw [List.nil_append, joinLines_cons, List.append_assoc, List.append_assoc]
      exact .lastLine rfl (cut_line hlast rest) hcolon
  | cons h headers ih =>
      obtain ⟨hline, hmem⟩ := hheaders h List.mem_cons_self
      obtain ⟨r', hparse⟩ := ih (r.addHeader h (h.idxOf kColon))
        fun h' hh' => hheaders h' (List.mem_cons_of_mem h hh')
      refine ⟨r', ?_⟩
      rw [List.cons_append, joinLines_cons, List.append_assoc, List.append_assoc]
      exact .header rfl (cut_line hline _) hmem hparse

/-- A text with a line without a colon behind the headers is accepted. -/
theorem parses_linesUpTo (h : LinesUpTo last text) (hlast : IsLine last)
    (hcolon : kColon ∉ last) (t : ℤ) : ∃ r rest, new.Parses t text true ⟨.kGotAll, r⟩ rest := by
  obtain ⟨line, headers, rest, hvalid, hline, hheaders, rfl⟩ := h
  obtain ⟨c₁, hc₁⟩ := (processRequestLine_true_iff (c := new) rfl).2 hvalid
  obtain ⟨r, hparse⟩ := parses_headers_to (t := t) (c₁.request.setReceiveTime t) hheaders hlast
    hcolon rest
  refine ⟨r, rest, ?_⟩
  rw [List.cons_append, joinLines_cons, List.append_assoc, List.append_assoc]
  exact .requestLine rfl (cut_line hline _) hc₁ hparse

/-- Behind the request line, a call that accepts has read header lines and one line more. -/
theorem lines_of_parses (h : c.Parses t q ok c' q') (hstate : c.state = .kExpectHeaders)
    (hgot : c'.state = .kGotAll) :
    ok = true ∧ ∃ headers last, (∀ h ∈ headers, IsHeader h) ∧ IsLine last ∧ kColon ∉ last ∧
      q = joinLines (headers ++ [last]) ++ q' := by
  -- induction on the lines read
  induction h with
  | wait _ _ =>
      rw [hstate] at hgot
      cases hgot
  | badRequest hstate' _ _ =>
      rw [hstate] at hstate'
      cases hstate'
  | requestLine hstate' _ _ _ _ =>
      rw [hstate] at hstate'
      cases hstate'
  | @header c c' q line rest q' ok _ hcut hcolon _ ih =>
      obtain ⟨hok, headers, last, hheaders, hlast, hnot, rfl⟩ := ih hstate hgot
      obtain ⟨rfl, hline⟩ := line_of_cut hcut
      refine ⟨hok, line :: headers, last, ?_, hlast, hnot, ?_⟩
      · intro h hh
        rcases List.mem_cons.1 hh with rfl | hh
        · exact ⟨hline, hcolon⟩
        · exact hheaders h hh
      · rw [List.cons_append, joinLines_cons, List.append_assoc, List.append_assoc]
  | @lastLine c q line rest _ hcut hcolon =>
      obtain ⟨rfl, hline⟩ := line_of_cut hcut
      refine ⟨rfl, [], line, fun h hh => absurd hh List.not_mem_nil, hline, hcolon, ?_⟩
      rw [List.nil_append, joinLines_cons, List.append_assoc, List.append_assoc]
      rfl

/-- A text that is accepted has a line without a colon behind the headers. -/
theorem linesUpTo_of_parses (h : new.Parses t text ok c' q') (hgot : c'.state = .kGotAll) :
    ok = true ∧ ∃ last, IsLine last ∧ kColon ∉ last ∧ LinesUpTo last text := by
  cases h with
  | wait _ _ => cases hgot
  | badRequest _ _ hline =>
      obtain ⟨ok, r, htotal⟩ := processRequestLine_total (c := new) rfl _
      rw [hline] at htotal
      cases htotal
      cases hgot
  | requestLine _ hcut hline hrest =>
      obtain ⟨rfl, hisLine⟩ := line_of_cut hcut
      obtain ⟨hok, headers, last, hheaders, hlast, hcolon, rfl⟩ := lines_of_parses hrest rfl hgot
      have hvalid := (processRequestLine_true_iff (c := new) rfl).1 ⟨_, hline⟩
      refine ⟨hok, last, hlast, hcolon, _, headers, q', hvalid, hisLine, hheaders, ?_⟩
      rw [List.cons_append, joinLines_cons, List.append_assoc, List.append_assoc]
  | header hstate _ _ _ => cases hstate
  | lastLine hstate _ _ => cases hstate

/-! ### Which texts are accepted -/

/-- **A text is accepted when there is any line without a colon behind its headers**, and then the
call returns true. -/
theorem gotAll_iff {b : Buffer} (h : b.Represents text) (t : ℤ) :
    ∃ ok c b', new.parseRequest b t = .ok (some (ok, c, b')) ∧
      (c.gotAll = true → ok = true) ∧
      (c.gotAll = true ↔ ∃ last, IsLine last ∧ kColon ∉ last ∧ LinesUpTo last text) := by
  obtain ⟨ok, c, q', hparse, -⟩ := ready_new.parses t text
  obtain ⟨b', hb', -⟩ := parseRequest_spec hparse h
  have hgot : c.gotAll = true ↔ c.state = .kGotAll := decide_eq_true_iff
  refine ⟨ok, c, b', hb', ?_, ?_⟩
  · intro hg
    exact (linesUpTo_of_parses hparse (hgot.1 hg)).1
  · constructor
    · intro hg
      exact (linesUpTo_of_parses hparse (hgot.1 hg)).2
    · rintro ⟨last, hlast, hcolon, hlines⟩
      obtain ⟨r, rest, hparse'⟩ := parses_linesUpTo hlines hlast hcolon t
      obtain ⟨-, rfl, -⟩ := hparse.unique hparse'
      exact hgot.2 rfl

/-- **The parser is exact on the texts without a bad header**, and on no others. -/
theorem exact_iff {b : Buffer} (h : b.Represents text) (t : ℤ) :
    Exact b t ↔ ¬HasBadHeader text := by
  obtain ⟨ok, c, b', hparse, -, hiff⟩ := gotAll_iff h t
  unfold Exact
  rw [h.readable_eq]
  constructor
  · rintro ⟨ok₂, c₂, b₂, hparse₂, -, hreject⟩ hbad
    rw [hparse] at hparse₂
    cases hparse₂
    have hno := (hreject hbad).2
    -- the text is accepted all the same
    obtain ⟨bad, -, hline, hcolon, hlines⟩ := hbad
    rw [hiff.2 ⟨bad, hline, hcolon, hlines⟩] at hno
    cases hno
  · intro hgood
    refine ⟨ok, c, b', hparse, ?_, fun hbad => absurd hbad hgood⟩
    rw [hiff]
    constructor
    · rintro ⟨last, hline, hcolon, hlines⟩
      by_cases hnil : last = []
      · subst hnil
        exact hlines
      · exact absurd ⟨last, hnil, hline, hcolon, hlines⟩ hgood
    · intro hlines
      exact ⟨[], by decide, by decide, hlines⟩

end

/-- The theorem on a request with one header. -/
theorem exact_iff_demo :
    Exact (.holding (ascii "GET / HTTP/1.1\r\nHost: a\r\n\r\n")) 1 ↔
      ¬HasBadHeader (ascii "GET / HTTP/1.1\r\nHost: a\r\n\r\n") :=
  exact_iff (Buffer.represents_holding _) 1

/-- A request whose header has no colon, and behind it what looks like another request. -/
def badText : List Byte := ascii "GET / HTTP/1.1\r\nHost a\r\nDELETE /b HTTP/1.1\r\n\r\n"

theorem toOption_join_eq_some {α : Type} {x : Checked (Option α)} {a : α} :
    x.toOption.join = some a ↔ x = .ok (some a) := by
  cases x with
  | ok o => exact ⟨fun h => congrArg Except.ok h, fun h => Except.ok.inj h⟩
  | error e => exact ⟨nofun, nofun⟩

/-- The header without a colon ends the request, and what follows it is parsed as the next one. -/
theorem exists_bad_header :
    HasBadHeader badText ∧ ¬Exact (.holding badText) 1 ∧
      ∃ c b c₁ b₁, new.parseRequest (.holding badText) 1 = .ok (some (true, c, b)) ∧
        c.gotAll = true ∧ c.reset.parseRequest b 2 = .ok (some (true, c₁, b₁)) ∧
        c₁.gotAll = true ∧ c₁.request.method = .kDelete := by
  have hbad : HasBadHeader badText := by
    refine ⟨ascii "Host a", by decide, by decide, by decide, ascii "GET / HTTP/1.1", [],
      ascii "DELETE /b HTTP/1.1\r\n\r\n", ?_, by decide, by simp, by decide⟩
    exact ⟨.kGet, ascii "/", ascii "HTTP/1.1", by decide, by decide, Or.inl rfl, by decide⟩
  -- the parser accepts, and accepts what is left as a request of its own
  have hrun : ((new.parseRequest (.holding badText) 1).toOption.join.any fun r =>
      r.1 && r.2.1.gotAll && (r.2.1.reset.parseRequest r.2.2 2).toOption.join.any fun r₁ =>
        r₁.1 && r₁.2.1.gotAll && r₁.2.1.request.method = .kDelete) = true := by decide +kernel
  obtain ⟨⟨ok, c, b⟩, hparse, hnext⟩ := (Option.any_eq_true _ _).1 hrun
  rw [Bool.and_eq_true, Bool.and_eq_true] at hnext
  obtain ⟨⟨rfl, hgot⟩, hnext⟩ := hnext
  obtain ⟨⟨ok₁, c₁, b₁⟩, hparse₁, hnext⟩ := (Option.any_eq_true _ _).1 hnext
  rw [Bool.and_eq_true, Bool.and_eq_true, decide_eq_true_iff] at hnext
  obtain ⟨⟨rfl, hgot₁⟩, hmethod⟩ := hnext
  rw [toOption_join_eq_some] at hparse hparse₁
  refine ⟨hbad, ?_, c, b, c₁, b₁, hparse, hgot, hparse₁, hgot₁, hmethod⟩
  intro hexact
  obtain ⟨ok, c', b', hparse', -, hreject⟩ := hexact
  rw [(Buffer.represents_holding badText).readable_eq] at hreject
  rw [hparse', (hreject hbad).1] at hparse
  cases hparse

end HeaderSection

end G5
