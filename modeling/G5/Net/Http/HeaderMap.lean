/-
**The headers of a request.**

The lines of a request are read one by one, over any number of calls, and each header line assigns
to the map of the headers.  What the map holds in the end is a matter of the lines alone: a key is
what stands before the first colon of some line, and its value is what stands behind the colon in
the last line with this key, without the spaces around it.

Main definitions:

* `HttpContext.Taken` — a parser, and the bytes it has taken since it was new or reset;
* `fieldOf`, `rawOf`, `TrimmedTo` — the parts of a header line;
* `HttpRequest.MapsLines` — the map of the headers is that of the lines.

Main results:

* `HttpRequest.trimmedTo_trim` — the two loops of `addHeader` cut off the spaces, and nothing else;
* `HttpContext.Parses.stage` — what a call takes, and what it leaves in the map;
* `HttpContext.mapsLines_of_gotAll` — **the headers of a request, in every run of the parser**.
-/

import G5.Net.Http.HeaderSection
import G5.Net.Http.ParserRuns

set_option relaxedAutoImplicit false
set_option autoImplicit false

namespace G5

open Search Runs

/-! ### Header lines -/

/-- What stands before the first colon of a line. -/
def fieldOf (line : List Byte) : List Byte := line.takeWhile (· ≠ kColon)

/-- What stands behind the first colon of a line. -/
def rawOf (line : List Byte) : List Byte := (line.dropWhile (· ≠ kColon)).tail

/-- `value` is `raw` without the spaces at its beginning and at its end. -/
def TrimmedTo (raw value : List Byte) : Prop :=
  ∃ before after, raw = before ++ value ++ after ∧
    (∀ x ∈ before, isspace x = true) ∧ (∀ x ∈ after, isspace x = true) ∧
    (∀ x, value.head? = some x → isspace x = false) ∧
    ∀ x, value.getLast? = some x → isspace x = false

theorem fieldOf_eq {field : List Byte} (h : kColon ∉ field) (raw : List Byte) :
    fieldOf (field ++ kColon :: raw) = field := takeWhile_ne h raw

theorem rawOf_eq {field : List Byte} (h : kColon ∉ field) (raw : List Byte) :
    rawOf (field ++ kColon :: raw) = raw := by
  rw [rawOf, dropWhile_ne h, List.tail_cons]

namespace HttpRequest

/-- The keys of the map are those of the lines, the value of a key is that of the last line with
the key, and `getHeader` returns it, or the empty string where there is none. -/
structure MapsLines (r : HttpRequest) (lines : List (List Byte)) : Prop where
  keys_iff : ∀ f, f ∈ r.headers.keys ↔ ∃ line ∈ lines, fieldOf line = f
  value : ∀ before line after, lines = before ++ line :: after →
    (∀ line' ∈ after, fieldOf line' ≠ fieldOf line) →
      ∃ v, r.headers.find? (fieldOf line) = some v ∧ r.getHeader (fieldOf line) = v ∧
        TrimmedTo (rawOf line) v
  absent : ∀ f, (∀ line ∈ lines, fieldOf line ≠ f) → r.getHeader f = []

/-- **The two loops of `addHeader`** cut the spaces off both ends of a value. -/
theorem trimmedTo_trim (raw : List Byte) : TrimmedTo raw (trim raw) := by
  refine ⟨raw.takeWhile isspace, (raw.dropWhile isspace).rtakeWhile isspace, ?_, ?_, ?_, ?_, ?_⟩
  · rw [trim, List.append_assoc, List.rdropWhile_append_rtakeWhile,
      List.takeWhile_append_dropWhile]
  · intro x hx
    exact List.mem_takeWhile_imp hx
  · intro x hx
    exact List.mem_rtakeWhile_imp hx
  · intro x hx
    -- the first byte of the value is the first one behind the spaces
    obtain ⟨rest, hrest⟩ := List.rdropWhile_prefix isspace (raw.dropWhile isspace)
    have hhead : (raw.dropWhile isspace).head? = some x := by
      rw [← hrest, List.head?_append, ← trim, hx]
      rfl
    have hnot := List.head?_dropWhile_not isspace raw
    rw [hhead] at hnot
    exact hnot
  · intro x hx
    obtain ⟨hne, rfl⟩ := List.mem_getLast?_eq_getLast hx
    exact Bool.eq_false_of_not_eq_true (List.rdropWhile_last_not isspace _ hne)

section

variable {r : HttpRequest} {lines : List (List Byte)} {line : List Byte}

theorem mapsLines_nil (hr : r.headers = SortedMap.empty) : r.MapsLines [] where
  keys_iff f := by simp [hr, SortedMap.keys, SortedMap.empty]
  value before line after h := by simp at h
  absent f _ := by
    rw [getHeader, hr]
    rfl

/-- What a header line adds, in its parts. -/
theorem find?_addHeader_line (hcolon : kColon ∈ line) (key : List Byte) :
    (r.addHeader line (line.idxOf kColon)).headers.find? key =
      if fieldOf line = key then some (trim (rawOf line)) else r.headers.find? key := by
  obtain ⟨field, raw, rfl, hfield⟩ := List.eq_append_cons_of_mem hcolon
  have hidx : (field ++ kColon :: raw).idxOf kColon = field.length := by
    rw [List.idxOf_append_of_notMem hfield, List.idxOf_cons_self, Nat.add_zero]
  rw [hidx, find?_addHeader, fieldOf_eq hfield, rawOf_eq hfield]

/-- **A header line more.** -/
theorem MapsLines.addHeader (h : r.MapsLines lines) (hcolon : kColon ∈ line) :
    (r.addHeader line (line.idxOf kColon)).MapsLines (lines ++ [line]) := by
  have hfind := find?_addHeader_line (r := r) hcolon
  refine ⟨?_, ?_, ?_⟩
  · intro f
    have hold := h.keys_iff f
    rw [SortedMap.mem_keys_iff] at hold
    rw [SortedMap.mem_keys_iff, hfind]
    simp only [List.mem_append, List.mem_singleton, or_and_right, exists_or, exists_eq_left]
    by_cases hf : fieldOf line = f
    · simp [hf]
    · rw [if_neg hf, hold, or_iff_left hf]
  · intro before line' after hsplit hlast
    rcases List.eq_nil_or_concat after with rfl | ⟨after', last, rfl⟩
    · -- the line that has been added
      obtain ⟨-, hline⟩ := List.append_inj' hsplit rfl
      cases hline
      have hself := hfind (fieldOf line)
      rw [if_pos rfl] at hself
      exact ⟨_, hself, by rw [getHeader, hself, Option.getD_some], trimmedTo_trim _⟩
    · -- a line before it, with another key
      have hsplit' : lines ++ [line] = (before ++ line' :: after') ++ [last] := by
        rw [hsplit]
        simp
      obtain ⟨hlines, hend⟩ := List.append_inj' hsplit' rfl
      cases hend
      have hne : fieldOf line ≠ fieldOf line' := hlast line (by simp)
      obtain ⟨v, hv, hget, htrim⟩ := h.value before line' after' hlines
        fun l hl => hlast l (by simp [hl])
      have hkept := hfind (fieldOf line')
      rw [if_neg hne, hv] at hkept
      exact ⟨v, hkept, by rw [getHeader, hkept, Option.getD_some], htrim⟩
  · intro f habsent
    have hne : fieldOf line ≠ f := habsent line (by simp)
    have hkept := hfind f
    rw [if_neg hne] at hkept
    rw [getHeader, hkept]
    exact h.absent f fun l hl => habsent l (by simp [hl])

theorem MapsLines.of_headers_eq {r' : HttpRequest} (h : r.MapsLines lines)
    (heq : r'.headers = r.headers) : r'.MapsLines lines := by
  obtain ⟨hkeys, hvalue, habsent⟩ := h
  unfold getHeader at hvalue habsent
  rw [← heq] at hkeys hvalue habsent
  exact ⟨hkeys, hvalue, habsent⟩

end

end HttpRequest

namespace HttpContext

/-! ### A parser and what it has taken -/

/-- A parser, and the bytes it has taken out of the buffers since it was new or reset. -/
structure Taken where
  context : HttpContext
  bytes : List Byte

def Taken.new : Taken := ⟨HttpContext.new, []⟩

/-- A call: what it has taken is what is missing in the buffer behind it. -/
def Taken.step (s : Taken) : ParserCall → Option Taken
  | .parse b t _ =>
      match s.context.parseRequest b t with
      | .ok (some (_, c, b')) =>
          some ⟨c, s.bytes ++ b.readable.take (b.readable.length - b'.readable.length)⟩
      | _ => none
  | .reset => some ⟨s.context.reset, []⟩

/-- The bytes that have been taken are no matter to the calls. -/
theorem Taken.step_context (s : Taken) (call : ParserCall) :
    (s.step call).map Taken.context = s.context.step call := by
  cases call with
  | reset => rfl
  | parse b t valid =>
      simp only [Taken.step, HttpContext.step]
      rcases s.context.parseRequest b t with e | _ | ⟨ok, c, b'⟩ <;> rfl

/-- How far a request has been read, from its bytes that have been taken. -/
inductive Stage : HttpContext → List Byte → Prop
  | requestLine {c : HttpContext} (hstate : c.state = .kExpectRequestLine)
      (hmap : c.request.MapsLines []) : Stage c []
  | headers {c : HttpContext} {line : List Byte} {headers : List (List Byte)}
      (hstate : c.state = .kExpectHeaders) (hline : IsLine line)
      (hheaders : ∀ h ∈ headers, IsHeader h) (hmap : c.request.MapsLines headers) :
      Stage c (joinLines (line :: headers))
  | gotAll {c : HttpContext} {line last : List Byte} {headers : List (List Byte)}
      (hstate : c.state = .kGotAll) (hline : IsLine line) (hheaders : ∀ h ∈ headers, IsHeader h)
      (hlast : IsLine last) (hcolon : kColon ∉ last) (hmap : c.request.MapsLines headers) :
      Stage c (joinLines (line :: headers ++ [last]))

section

variable {t : ℤ} {c c' : HttpContext} {b b' : Buffer} {q q' line bytes : List Byte} {ok : Bool}

/-- A request line leaves the headers alone. -/
theorem headers_of_processRequestLine (h : c.processRequestLine line = .ok (ok, c')) :
    c'.request.headers = c.request.headers := by
  have hset : ∀ name known r, c.request.setMethod name = .ok (known, r) →
      r.headers = c.request.headers := by
    intro name known r hr
    obtain ⟨-, -, hr⟩ := bind_eq_ok.1 hr
    cases hr
    rfl
  have htarget : ∀ (r : HttpRequest) target, (withTarget r target).headers = r.headers := by
    intro r target
    unfold withTarget
    split <;> rfl
  rcases line_cases line with hno | ⟨name, rest, rfl, hname, hrest⟩ |
    ⟨name, target, tail, rfl, hname, htgt⟩
  · rw [processRequestLine_no_space c hno] at h
    cases h
    rfl
  · rw [processRequestLine_one_space c hname hrest] at h
    obtain ⟨⟨known, r⟩, hr, hp⟩ := bind_eq_ok.1 h
    cases hp
    exact hset name known r hr
  · rw [processRequestLine_parts c hname htgt] at h
    obtain ⟨⟨known, r⟩, hr, hp⟩ := bind_eq_ok.1 h
    simp only [pure_eq_ok, Except.ok.injEq] at hp
    have hkeep : (c.afterMethod target tail known r).2.request.headers = r.headers := by
      unfold afterMethod
      cases known with
      | false => rfl
      | true => cases versionOf? tail <;> exact htarget r target
    rw [← hset name known r hr, ← hkeep, hp]

/-- A stage by the state of the parser: in front of the request line nothing has been taken. -/
theorem Stage.of_requestLine (hc : Stage c bytes) (hstate : c.state = .kExpectRequestLine) :
    bytes = [] ∧ c.request.MapsLines [] := by
  cases hc with
  | requestLine _ hmap => exact ⟨rfl, hmap⟩
  | headers hstate' | gotAll hstate' =>
      rw [hstate] at hstate'
      cases hstate'

/-- Among the headers, a line and some headers have been taken. -/
theorem Stage.of_headers (hc : Stage c bytes) (hstate : c.state = .kExpectHeaders) :
    ∃ line headers, bytes = joinLines (line :: headers) ∧ IsLine line ∧
      (∀ h ∈ headers, IsHeader h) ∧ c.request.MapsLines headers := by
  cases hc with
  | headers _ hline hheaders hmap => exact ⟨_, _, rfl, hline, hheaders, hmap⟩
  | requestLine hstate' | gotAll hstate' =>
      rw [hstate] at hstate'
      cases hstate'

/-- With the whole request, a line without a colon has been taken behind them. -/
theorem Stage.lines_of_gotAll (hc : Stage c bytes) (hgot : c.state = .kGotAll) :
    ∃ line headers last, bytes = joinLines (line :: headers ++ [last]) ∧ IsLine line ∧
      (∀ h ∈ headers, IsHeader h) ∧ IsLine last ∧ kColon ∉ last ∧
      c.request.MapsLines headers := by
  cases hc with
  | gotAll _ hline hheaders hlast hcolon hmap =>
      exact ⟨_, _, _, rfl, hline, hheaders, hlast, hcolon, hmap⟩
  | requestLine hstate | headers hstate =>
      rw [hgot] at hstate
      cases hstate

/-- A line more. -/
theorem joinLines_concat (lines : List (List Byte)) (line : List Byte) :
    joinLines (lines ++ [line]) = joinLines lines ++ (line ++ kCRLF) := by
  rw [HeaderSection.joinLines_append, joinLines_cons]
  simp [joinLines]

/-- **What a call takes, and what it leaves in the map.** -/
theorem Parses.stage (h : c.Parses t q ok c' q') (hc : Stage c bytes) :
    ∃ gone, q = gone ++ q' ∧ Stage c' (bytes ++ gone) := by
  -- induction on the lines read
  induction h generalizing bytes with
  | wait _ _ => exact ⟨[], rfl, by rwa [List.append_nil]⟩
  | badRequest hstate _ hline =>
      obtain ⟨rfl, hmap⟩ := hc.of_requestLine hstate
      have hsame := state_of_processRequestLine hline
      have hheaders := headers_of_processRequestLine hline
      exact ⟨[], rfl, .requestLine (hsame.trans hstate) (hmap.of_headers_eq hheaders)⟩
  | @requestLine c c₁ c' q line rest q' ok hstate hcut hline _ ih =>
      obtain ⟨rfl, hisLine⟩ := HeaderSection.line_of_cut hcut
      obtain ⟨rfl, hmap⟩ := hc.of_requestLine hstate
      have hmap' : (c₁.request.setReceiveTime t).MapsLines [] :=
        hmap.of_headers_eq (headers_of_processRequestLine hline)
      have hstage : Stage ⟨.kExpectHeaders, c₁.request.setReceiveTime t⟩ (joinLines [line]) :=
        .headers rfl hisLine (fun h hh => absurd hh List.not_mem_nil) hmap'
      obtain ⟨gone, rfl, hstage'⟩ := ih hstage
      refine ⟨line ++ kCRLF ++ gone, by simp, ?_⟩
      have hjoin : joinLines [line] = line ++ kCRLF := joinLines_concat [] line
      rwa [hjoin] at hstage'
  | @header c c' q line rest q' ok hstate hcut hcolon _ ih =>
      obtain ⟨rfl, hisLine⟩ := HeaderSection.line_of_cut hcut
      obtain ⟨first, headers, rfl, hfirst, hheaders, hmap⟩ := hc.of_headers hstate
      have hall : ∀ h ∈ headers ++ [line], IsHeader h := by
        intro h hh
        rcases List.mem_append.1 hh with hh | hh
        · exact hheaders h hh
        · rw [List.mem_singleton.1 hh]
          exact ⟨hisLine, hcolon⟩
      obtain ⟨gone, rfl, hstage⟩ := ih (.headers hstate hfirst hall (hmap.addHeader hcolon))
      refine ⟨line ++ kCRLF ++ gone, by simp, ?_⟩
      rwa [← List.cons_append, joinLines_concat, List.append_assoc] at hstage
  | @lastLine c q line rest hstate hcut hcolon =>
      obtain ⟨rfl, hisLine⟩ := HeaderSection.line_of_cut hcut
      obtain ⟨first, headers, rfl, hfirst, hheaders, hmap⟩ := hc.of_headers hstate
      have hstage : Stage { c with state := .kGotAll } (joinLines (first :: headers ++ [line])) :=
        .gotAll rfl hfirst hheaders hisLine hcolon hmap
      refine ⟨line ++ kCRLF, by simp, ?_⟩
      rwa [joinLines_concat] at hstage

/-! ### Runs -/

/-- A call that returns has read the lines that `Parses` says. -/
theorem parses_of_parseRequest (hc : c.Reads) (h : b.Represents q)
    (hres : c.parseRequest b t = .ok (some (ok, c', b'))) :
    ∃ q', c.Parses t q ok c' q' ∧ b'.Represents q' := by
  have hdone : ∀ {ok₁ c₁ q₁}, c.Parses t q ok₁ c₁ q₁ →
      ∃ q', c.Parses t q ok c' q' ∧ b'.Represents q' := by
    intro ok₁ c₁ q₁ hparse
    obtain ⟨b₁, hb₁, hrep⟩ := parseRequest_spec hparse h
    rw [hres] at hb₁
    cases hb₁
    exact ⟨q₁, hparse, hrep⟩
  cases hcut : cut kCRLF q with
  | none => exact hdone (.wait hc hcut)
  | some p =>
      obtain ⟨line, rest⟩ := p
      rcases hc with hstate | hstate
      · cases hline : c.processRequestLine line with
        | error e =>
            obtain ⟨hfind, hslice, -, -⟩ := Buffer.findCRLF_of_cut h hcut
            have hfail : parseBody t ⟨true, true, c, b⟩ = .error e := by
              simp [parseBody, hstate, hfind, hslice, hline]
            rw [parseRequest, parseWhile_succ, hfail, error_bind] at hres
            cases hres
        | ok p =>
            obtain ⟨accepted, c₁⟩ := p
            cases accepted with
            | false => exact hdone (.badRequest hstate hcut hline)
            | true =>
                have hready : Ready ⟨.kExpectHeaders, c₁.request.setReceiveTime t⟩ := Or.inr rfl
                obtain ⟨ok₁, c₂, q₂, hrest, -⟩ := hready.parses t rest
                exact hdone (.requestLine hstate hcut hline hrest)
      · have hready : c.Ready := Or.inr hstate
        obtain ⟨ok₁, c₁, q₁, hparse, -⟩ := hready.parses t q
        exact hdone hparse

theorem Stage.reads_or_gotAll (hc : Stage c bytes) : c.Reads ∨ c.state = .kGotAll := by
  cases hc with
  | requestLine hstate => exact Or.inl (Or.inl hstate)
  | headers hstate => exact Or.inl (Or.inr hstate)
  | gotAll hstate => exact Or.inr hstate

theorem Stage.step {s s' : Taken} {call : ParserCall} (hs : Stage s.context s.bytes)
    (hstep : s.step call = some s') : Stage s'.context s'.bytes := by
  cases call with
  | reset =>
      cases hstep
      exact .requestLine rfl (HttpRequest.mapsLines_nil rfl)
  | parse b t valid =>
      simp only [Taken.step] at hstep
      split at hstep
      · rename_i ok c b' hres
        cases hstep
        rcases hs.reads_or_gotAll with hreads | hgot
        · obtain ⟨q', hparse, hrep⟩ := parses_of_parseRequest hreads valid hres
          obtain ⟨gone, hgone, hstage⟩ := hparse.stage hs
          have htake : b.readable.take (b.readable.length - b'.readable.length) = gone := by
            rw [hrep.readable_eq, hgone]
            exact List.take_left' (by simp)
          simp only [htake]
          exact hstage
        · have hnever := parseWhile_gotAll (t := t) hgot b (b.readableBytes + 1)
          rw [loopStart] at hnever
          rw [parseRequest, hnever] at hres
          cases hres
      · cases hstep

/-- **The headers of a request, in every run of the parser.**  Where the parser has the whole
request, it has taken a request line, header lines and one line without a colon since it was new or
reset; the map is that of the header lines, and the calls before the reset have left nothing. -/
theorem mapsLines_of_gotAll {calls : List ParserCall} {s : Taken}
    (h : exec Taken.step Taken.new calls = some s) (hgot : s.context.gotAll = true) :
    (∃ line headers last, s.bytes = joinLines (line :: headers ++ [last]) ∧ IsLine line ∧
      (∀ h ∈ headers, IsHeader h) ∧ IsLine last ∧ kColon ∉ last ∧
      s.context.request.MapsLines headers) ∧
    ∀ before after, calls = before ++ .reset :: after →
      exec Taken.step Taken.new after = some s := by
  have hstage : Stage s.context s.bytes :=
    exec_invariant (I := fun s => Stage s.context s.bytes) (fun _ _ _ hs hstep => hs.step hstep)
      (.requestLine rfl (HttpRequest.mapsLines_nil rfl)) h
  refine ⟨hstage.lines_of_gotAll (of_decide_eq_true hgot), ?_⟩
  rintro before after rfl
  obtain ⟨u, -, hu⟩ := exec_append_eq_some.1 h
  obtain ⟨v, hv, hafter⟩ := exec_cons_eq_some.1 hu
  cases hv
  exact hafter

/-- Behind another request, one in two pieces, with a key twice, a colon in a value, an empty key
and a value of spaces. -/
def headerCalls : List ParserCall :=
  [.parseBytes (ascii "GET / HTTP/1.1\r\nOld: 1\r\n\r\n"), .reset,
    .parseBytes (ascii "GET / HTTP/1.1\r\nA: 1\r\n"),
    .parseBytes (ascii "A:\t b:c \r\n:   \r\n\r\nmore")]

theorem mapsLines_of_gotAll_demo :
    ∃ s, exec Taken.step Taken.new headerCalls = some s ∧
      (∃ line headers last, s.bytes = joinLines (line :: headers ++ [last]) ∧ IsLine line ∧
        (∀ h ∈ headers, IsHeader h) ∧ IsLine last ∧ kColon ∉ last ∧
        s.context.request.MapsLines headers) ∧
      ∀ before after, headerCalls = before ++ .reset :: after →
        exec Taken.step Taken.new after = some s := by
  have hdemo : (exec Taken.step Taken.new headerCalls).map (·.context.gotAll) = some true := by
    decide +kernel
  obtain ⟨s, hrun, hgot⟩ := Option.map_eq_some_iff.1 hdemo
  exact ⟨s, hrun, mapsLines_of_gotAll hrun hgot⟩

end

end HttpContext

end G5
