/-
**The grammar of request lines, and the way back.**

The parser takes exactly the lines `M SP T SP HTTP/1.D` and sets the fields of the request from
their parts.  A handler reads the fields through accessors of its own.  From these it can put the
line together again, but for one method: `setMethod` knows `DELETE` and `methodString` does not.

Main definitions:

* `HttpContext.Writes`, `HttpContext.ReadAs` — a line in its parts, and a request with these parts;
* `HttpContext.render` — the line that a handler puts together;
* `HttpContext.GivesBack` — the accessors tell a line apart from all others and give it back.

Main results:

* `HttpContext.processRequestLine_exact` — **which lines are accepted, and what they set**;
* `HttpContext.givesBack_iff` — **a line is given back unless it is a `DELETE`**.
-/

import G5.Net.Http.RequestLine

set_option relaxedAutoImplicit false
set_option autoImplicit false

namespace G5

open Search

namespace HttpContext

/-! ### Lines and requests in their parts -/

/-- `L` is the method `m`, the target and the version `HTTP/1.d`, with a space between them. -/
structure Writes (L : List Byte) (m : HttpRequest.Method) (target : List Byte) (d : Byte) :
    Prop where
  method_mem : m ∈ [.kGet, .kPost, .kHead, .kPut, HttpRequest.Method.kDelete]
  space_notMem : kSpace ∉ target
  digit : d = 48 ∨ d = 49
  line_eq : L = m.name ++ [kSpace] ++ target ++ [kSpace] ++ ascii "HTTP/1." ++ [d]

/-- The version with the digit `d`. -/
def versionOfDigit (d : Byte) : HttpRequest.Version := if d = 49 then .kHttp11 else .kHttp10

/-- The fields of the request line are those of the parts. -/
structure ReadAs (r : HttpRequest) (m : HttpRequest.Method) (target : List Byte) (d : Byte) :
    Prop where
  method_eq : r.method = m
  version_eq : r.version = versionOfDigit d
  question_notMem : kQuestion ∉ r.path
  query_shape : r.query = [] ∨ ∃ rest, r.query = kQuestion :: rest
  target_eq : r.path ++ r.query = target

/-- The digit of a version, for a handler. -/
def digitOfVersion : HttpRequest.Version → List Byte
  | .kHttp11 => ascii "1"
  | .kHttp10 => ascii "0"
  | .kUnknown => []

/-- The line a handler puts together from what the accessors return. -/
def render (r : HttpRequest) : List Byte :=
  r.methodString ++ [kSpace] ++ r.path ++ r.query ++ [kSpace] ++ ascii "HTTP/1." ++
    digitOfVersion r.version

/-- The accessors return the same for the two requests. -/
structure SameAccess (r r' : HttpRequest) : Prop where
  methodString_eq : r.methodString = r'.methodString
  path_eq : r.path = r'.path
  query_eq : r.query = r'.query
  version_eq : r.version = r'.version

/-- The request read from the line `L` gives the line back, and no other line is read into a
request with the same accessors. -/
def GivesBack (L : List Byte) (r : HttpRequest) : Prop :=
  render r = L ∧
    ∀ L' c', new.processRequestLine L' = .ok (true, c') → SameAccess r c'.request → L' = L

/-! ### Which lines are accepted, and what they set -/

section

variable {L target : List Byte} {m : HttpRequest.Method} {d : Byte} {r : HttpRequest}

theorem Writes.valid (h : Writes L m target d) : m ≠ .kInvalid := by
  intro hm
  have hmem := h.method_mem
  rw [hm] at hmem
  revert hmem
  decide

theorem validRequestLine_iff : ValidRequestLine L ↔ ∃ m target d, Writes L m target d := by
  constructor
  · rintro ⟨m, target, tail, hm, hspace, htail, rfl⟩
    have hmem : m ∈ [.kGet, .kPost, .kHead, .kPut, HttpRequest.Method.kDelete] := by
      cases m <;> simp at hm ⊢
    rcases htail with rfl | rfl
    · have h11 : ascii "HTTP/1.1" = ascii "HTTP/1." ++ [49] := rfl
      exact ⟨m, target, 49, hmem, hspace, Or.inr rfl, by simp [h11]⟩
    · have h10 : ascii "HTTP/1.0" = ascii "HTTP/1." ++ [48] := rfl
      exact ⟨m, target, 48, hmem, hspace, Or.inl rfl, by simp [h10]⟩
  · rintro ⟨m, target, d, h⟩
    refine ⟨m, target, ascii "HTTP/1." ++ [d], h.valid, h.space_notMem, ?_, by simp [h.line_eq]⟩
    rcases h.digit with rfl | rfl
    · exact Or.inr rfl
    · exact Or.inl rfl

/-- The path and the query of a target. -/
theorem withTarget_spec (hquery : r.query = []) (target : List Byte) :
    kQuestion ∉ (withTarget r target).path ∧
      ((withTarget r target).query = [] ∨
        ∃ rest, (withTarget r target).query = kQuestion :: rest) ∧
      (withTarget r target).path ++ (withTarget r target).query = target := by
  unfold withTarget
  by_cases hmem : kQuestion ∈ target
  · obtain ⟨path, rest, rfl, hpath⟩ := List.eq_append_cons_of_mem hmem
    rw [if_pos hmem, takeWhile_ne hpath, dropWhile_ne hpath]
    exact ⟨hpath, Or.inr ⟨rest, rfl⟩, rfl⟩
  · rw [if_neg hmem]
    refine ⟨hmem, Or.inl hquery, ?_⟩
    rw [HttpRequest.setPath, hquery, List.append_nil]

/-- A line in its parts is read as these parts. -/
theorem processRequestLine_writes (h : Writes L m target d) :
    ∃ r, new.processRequestLine L = .ok (true, ⟨.kExpectRequestLine, r⟩) ∧
      ReadAs r m target d := by
  have hline : L = m.name ++ kSpace :: (target ++ kSpace :: (ascii "HTTP/1." ++ [d])) := by
    simp [h.line_eq]
  have hversion : versionOf? (ascii "HTTP/1." ++ [d]) = some (versionOfDigit d) := by
    rw [versionOf?_like]
    rcases h.digit with rfl | rfl <;> rfl
  have hset : new.request.setMethod m.name =
      .ok (true, { new.request with method := m }) := HttpRequest.setMethod_name h.valid rfl
  obtain ⟨hpath, hquery, htarget⟩ :=
    withTarget_spec (r := { new.request with method := m }) rfl target
  refine ⟨(withTarget { new.request with method := m } target).setVersion (versionOfDigit d),
    ?_, ?_, rfl, hpath, hquery, htarget⟩
  · rw [hline, processRequestLine_parts new (space_not_mem_name m) h.space_notMem, hset, ok_bind]
    simp only [afterMethod, if_true, hversion]
    rfl
  · unfold withTarget
    split <;> rfl

/-- **Which lines are accepted, and what they set**: a new parser decides every line, accepts the
lines `M SP T SP HTTP/1.D`, and reads them as their parts. -/
theorem processRequestLine_exact (L : List Byte) :
    ∃ ok c, new.processRequestLine L = .ok (ok, c) ∧
      (ok = true ↔ ∃ m target d, Writes L m target d) ∧
      ∀ m target d, Writes L m target d → ReadAs c.request m target d := by
  obtain ⟨ok, r, hread⟩ := processRequestLine_total (c := new) rfl L
  refine ⟨ok, _, hread, ?_, ?_⟩
  · rw [← validRequestLine_iff, ← processRequestLine_true_iff (c := new) rfl, hread]
    constructor
    · intro hok
      exact ⟨_, by rw [hok]⟩
    · rintro ⟨c', hc'⟩
      cases hc'
      rfl
  · intro m target d hwrites
    obtain ⟨r', hread', hparts⟩ := processRequestLine_writes hwrites
    rw [hread] at hread'
    cases hread'
    exact hparts

/-! ### The way back -/

/-- What `methodString` returns for a method that a line can have. -/
theorem methodString_eq (h : ReadAs r m target d) (hm : m ≠ .kInvalid) :
    r.methodString = if m = .kDelete then ascii "UNKNOWN" else m.name := by
  rw [HttpRequest.methodString, h.method_eq]
  cases m with
  | kInvalid => exact absurd rfl hm
  | kGet | kPost | kHead | kPut | kDelete => rfl

theorem digitOfVersion_eq (h : ReadAs r m target d) (hd : d = 48 ∨ d = 49) :
    digitOfVersion r.version = [d] := by
  rw [h.version_eq]
  rcases hd with rfl | rfl <;> rfl

/-- The line a handler puts together differs at most in the method. -/
theorem render_eq (h : ReadAs r m target d) (hw : Writes L m target d) :
    render r = (if m = .kDelete then ascii "UNKNOWN" else m.name) ++
      ([kSpace] ++ target ++ [kSpace] ++ ascii "HTTP/1." ++ [d]) := by
  rw [render, methodString_eq h hw.valid, digitOfVersion_eq h hw.digit, ← h.target_eq]
  simp only [List.append_assoc]

/-- The accessors tell the methods apart, `DELETE` being the only one that is unknown. -/
theorem method_of_methodString {m' : HttpRequest.Method}
    (h : (if m = .kDelete then ascii "UNKNOWN" else m.name) =
      if m' = .kDelete then ascii "UNKNOWN" else m'.name) : m = m' := by
  revert h
  cases m <;> cases m' <;> first | exact fun _ => rfl | decide

/-- No two lines are read into requests that a handler cannot tell apart. -/
theorem eq_of_sameAccess {L' target' : List Byte} {m' : HttpRequest.Method} {d' : Byte}
    {r' : HttpRequest} (hw : Writes L m target d) (h : ReadAs r m target d)
    (hw' : Writes L' m' target' d') (h' : ReadAs r' m' target' d') (hsame : SameAccess r r') :
    L' = L := by
  have hmethod : m = m' := by
    refine method_of_methodString ?_
    rw [← methodString_eq h hw.valid, ← methodString_eq h' hw'.valid]
    exact hsame.methodString_eq
  have htarget : target = target' := by
    rw [← h.target_eq, ← h'.target_eq, hsame.path_eq, hsame.query_eq]
  have hdigit : [d] = [d'] := by
    rw [← digitOfVersion_eq h hw.digit, ← digitOfVersion_eq h' hw'.digit, hsame.version_eq]
  rw [hw.line_eq, hw'.line_eq, hmethod, htarget, hdigit]

/-- A line begins with `DELETE` and a space if this is its method. -/
theorem delete_prefix_iff (hw : Writes L m target d) :
    ascii "DELETE " <+: L ↔ m = .kDelete := by
  have hline : L = m.name ++ [kSpace] ++ (target ++ [kSpace] ++ ascii "HTTP/1." ++ [d]) := by
    simp [hw.line_eq]
  constructor
  · rintro ⟨rest, hrest⟩
    rw [hline] at hrest
    have hvalid := hw.valid
    cases m with
    | kInvalid => exact absurd rfl hvalid
    | kDelete => rfl
    | kGet | kPost | kHead | kPut =>
        -- the two names differ in their first letter
        have hhead := congrArg List.head? hrest
        simp [ascii, HttpRequest.Method.name] at hhead
  · rintro rfl
    exact ⟨_, hline.symm⟩

/-- **A line is given back unless it is a `DELETE`.** -/
theorem givesBack_iff {c : HttpContext} (h : new.processRequestLine L = .ok (true, c)) :
    GivesBack L c.request ↔ ¬ascii "DELETE " <+: L := by
  obtain ⟨ok, c₁, hread, haccept, hparts⟩ := processRequestLine_exact L
  rw [h] at hread
  cases hread
  obtain ⟨m, target, d, hw⟩ := haccept.1 rfl
  have hr := hparts m target d hw
  rw [delete_prefix_iff hw]
  constructor
  · rintro ⟨hrender, -⟩ rfl
    rw [render_eq hr hw, hw.line_eq, if_pos rfl] at hrender
    -- what is put together is a byte longer than the line
    have hlen := congrArg List.length hrender
    simp [ascii, HttpRequest.Method.name] at hlen
  · intro hne
    refine ⟨?_, ?_⟩
    · rw [render_eq hr hw, hw.line_eq, if_neg hne]
      simp only [List.append_assoc]
    · intro L' c' h' hsame
      obtain ⟨ok, c₁, hread, haccept', hparts'⟩ := processRequestLine_exact L'
      rw [h'] at hread
      cases hread
      obtain ⟨m', target', d', hw'⟩ := haccept'.1 rfl
      exact eq_of_sameAccess hw hr hw' (hparts' m' target' d' hw') hsame

theorem givesBack_iff_demo :
    ∃ c, new.processRequestLine (ascii "PUT /a?b?c HTTP/1.0") = .ok (true, c) ∧
      GivesBack (ascii "PUT /a?b?c HTTP/1.0") c.request := by
  have hw : Writes (ascii "PUT /a?b?c HTTP/1.0") .kPut (ascii "/a?b?c") 48 :=
    ⟨by decide, by decide, by decide, by decide⟩
  obtain ⟨r, hread, -⟩ := processRequestLine_writes hw
  exact ⟨_, hread, (givesBack_iff hread).2 (by decide)⟩

/-- A `DELETE` is accepted, and put together as the line of an unknown method. -/
theorem exists_not_givesBack :
    ∃ c, new.processRequestLine (ascii "DELETE / HTTP/1.1") = .ok (true, c) ∧
      render c.request = ascii "UNKNOWN / HTTP/1.1" ∧
      ¬GivesBack (ascii "DELETE / HTTP/1.1") c.request := by
  have hw : Writes (ascii "DELETE / HTTP/1.1") .kDelete (ascii "/") 49 :=
    ⟨by decide, by decide, by decide, by decide⟩
  obtain ⟨r, hread, hparts⟩ := processRequestLine_writes hw
  have hrender : render r = ascii "UNKNOWN / HTTP/1.1" := by
    rw [render_eq hparts hw]
    decide
  refine ⟨_, hread, hrender, ?_⟩
  rintro ⟨hback, -⟩
  rw [hrender] at hback
  exact absurd hback (by decide)

end

end HttpContext

end G5
