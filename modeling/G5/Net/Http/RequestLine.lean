/-
**Request lines.**

A request line is a method, a target and a version with a space between them.

Main definitions:

* `HttpContext.versionOf?`, `HttpContext.withTarget`, `HttpContext.setTarget` — what the parts of a
  request line set;
* `HttpContext.ValidRequestLine` — the lines the parser takes for a request line.

Main results:

* `HttpContext.processRequestLine_parts` — **a request line is read in three parts**;
* `HttpContext.processRequestLine_eq` — a well-formed request line is read as it was written;
* `HttpContext.processRequestLine_true_iff` — **which lines are accepted**.
-/

import G5.Net.Http.HttpContext

set_option relaxedAutoImplicit false
set_option autoImplicit false

namespace G5

open Region Search

namespace HttpContext

/-! ### The parts of a request line -/

/-- The version a request line ends with. -/
def versionOf? (tail : List Byte) : Option HttpRequest.Version :=
  if tail = ascii "HTTP/1.1" then some .kHttp11
  else if tail = ascii "HTTP/1.0" then some .kHttp10
  else none

/-- The path and the query of a target. -/
def withTarget (r : HttpRequest) (target : List Byte) : HttpRequest :=
  if kQuestion ∈ target then
    (r.setPath (target.takeWhile (· ≠ kQuestion))).setQuery (target.dropWhile (· ≠ kQuestion))
  else r.setPath target

/-- What the request line `name target tail` does, once the method is set. -/
def afterMethod (c : HttpContext) (target tail : List Byte) (known : Bool)
    (request : HttpRequest) : Bool × HttpContext :=
  if known then
    match versionOf? tail with
    | some v => (true, { c with request := (withTarget request target).setVersion v })
    | none => (false, { c with request := withTarget request target })
  else (false, { c with request := request })

/-- What a request line with the target `target` sets. -/
def setTarget (r : HttpRequest) (m : HttpRequest.Method) (target : List Byte) : HttpRequest :=
  { r with
    method := m
    version := .kHttp11
    path := target.takeWhile (· ≠ kQuestion)
    query := target.dropWhile (· ≠ kQuestion) }

/-- A method of the enumeration, a target, and one of the two versions.  The target may be empty. -/
def ValidRequestLine (line : List Byte) : Prop :=
  ∃ (m : HttpRequest.Method) (target tail : List Byte),
    m ≠ .kInvalid ∧ kSpace ∉ target ∧ (tail = ascii "HTTP/1.1" ∨ tail = ascii "HTTP/1.0") ∧
      line = m.name ++ kSpace :: (target ++ kSpace :: tail)

theorem space_not_mem_name (m : HttpRequest.Method) : kSpace ∉ m.name := by
  cases m <;> decide

/-- The question mark of a target is where its path ends. -/
theorem idxOf_question (target : List Byte) :
    target.take (target.idxOf kQuestion) = target.takeWhile (· ≠ kQuestion) ∧
      target.drop (target.idxOf kQuestion) = target.dropWhile (· ≠ kQuestion) := by
  have hidx : target.idxOf kQuestion = target.findIdx fun x => !(decide (x ≠ kQuestion)) := by
    rw [List.idxOf]
    congr 1
    funext x
    by_cases hx : x = kQuestion <;> simp [hx]
  rw [hidx, ← List.takeWhile_eq_take_findIdx_not, ← List.dropWhile_eq_drop_findIdx_not]
  exact ⟨rfl, rfl⟩

/-- Where the parts of a request line with two spaces stand. -/
theorem slices_of_parts {name target tail L : List Byte} (hname : kSpace ∉ name)
    (htarget : kSpace ∉ target) (hL : L = name ++ kSpace :: (target ++ kSpace :: tail)) :
    find L 0 L.length kSpace = name.length ∧
      slice L 0 name.length = name ∧
      find L (name.length + 1) L.length kSpace = name.length + 1 + target.length ∧
      slice L (name.length + 1) (name.length + 1 + target.length) = target ∧
      L.drop (name.length + 1 + target.length + 1) = tail := by
  -- the line cut at its first space, and at its second one
  have hfirst : L = (name ++ [kSpace]) ++ (target ++ (kSpace :: tail)) := by
    rw [hL]
    simp
  have hsecond : L = (name ++ kSpace :: (target ++ [kSpace])) ++ tail := by
    rw [hL]
    simp
  refine ⟨?_, ?_, ?_, ?_, ?_⟩
  · have hall : slice L 0 L.length = L := by rw [slice_length, List.drop_zero]
    rw [find_eq (hall.trans hL) hname, Nat.zero_add]
  · rw [hL, slice, List.drop_zero, Nat.sub_zero, List.take_left]
  · have hrest : slice L (name.length + 1) L.length = target ++ kSpace :: tail := by
      rw [slice_length, hfirst, List.drop_left' (by simp)]
    exact find_eq hrest htarget
  · rw [hfirst]
    exact slice_middle (by simp) rfl
  · rw [hsecond]
    exact List.drop_left' (by simp; omega)

/-- What stands where a version is expected: eight characters that begin like one. -/
theorem like_version_iff (tail : List Byte) :
    tail.length = 8 ∧ tail.take 7 = ascii "HTTP/1." ↔ ∃ x, tail = ascii "HTTP/1." ++ [x] := by
  constructor
  · rintro ⟨hlen, htake⟩
    have hrest : (tail.drop 7).length = 1 := by rw [List.length_drop, hlen]
    obtain ⟨x, hx⟩ := List.length_eq_one_iff.1 hrest
    refine ⟨x, ?_⟩
    rw [← htake, ← hx, List.take_append_drop]
  · rintro ⟨x, rfl⟩
    exact ⟨rfl, rfl⟩

theorem versionOf?_like (x : Byte) :
    versionOf? (ascii "HTTP/1." ++ [x]) =
      if x = 49 then some .kHttp11 else if x = 48 then some .kHttp10 else none := by
  have h11 : ascii "HTTP/1.1" = ascii "HTTP/1." ++ [49] := rfl
  have h10 : ascii "HTTP/1.0" = ascii "HTTP/1." ++ [48] := rfl
  rw [versionOf?, h11, h10]
  simp only [List.append_right_inj, List.singleton_inj]

theorem versionOf?_unlike {tail : List Byte}
    (h : ¬(tail.length = 8 ∧ tail.take 7 = ascii "HTTP/1.")) : versionOf? tail = none := by
  rw [versionOf?, if_neg, if_neg]
  · rintro rfl
    exact h ⟨rfl, rfl⟩
  · rintro rfl
    exact h ⟨rfl, rfl⟩

/-- What is set from the range of a target: its path up to the question mark, and its query from
there on. -/
theorem withTarget_of_slice {L target : List Byte} {a : ℕ}
    (htgt : slice L a (a + target.length) = target) (r : HttpRequest) :
    (if a + target.idxOf kQuestion ≠ a + target.length then
      (r.setPath (slice L a (a + target.idxOf kQuestion))).setQuery
        (slice L (a + target.idxOf kQuestion) (a + target.length))
    else r.setPath (slice L a (a + target.length))) = withTarget r target := by
  obtain ⟨hpath, hrest⟩ := idxOf_question target
  unfold withTarget
  by_cases hmem : kQuestion ∈ target
  · have hlt : target.idxOf kQuestion < target.length := List.idxOf_lt_length_of_mem hmem
    have htake : slice L a (a + target.idxOf kQuestion) = target.take (target.idxOf kQuestion) :=
      (take_slice (by omega)).symm.trans (congrArg _ htgt)
    have hdrop : slice L (a + target.idxOf kQuestion) (a + target.length) =
        target.drop (target.idxOf kQuestion) :=
      (drop_slice _ _ _ _).symm.trans (congrArg _ htgt)
    rw [if_pos (by omega), if_pos hmem, htake, hdrop, hpath, hrest]
  · rw [List.idxOf_eq_length hmem, if_neg (by omega), if_neg hmem, htgt]

/-- The tests on what stands where the version is expected, the last one on the end of the line. -/
theorem afterMethod_eq (c : HttpContext) (target tail : List Byte) (request : HttpRequest)
    {last : Option Byte} (hlast : tail ≠ [] → last = tail.getLast?) :
    (if tail.length = 8 ∧ tail.take (tail.length - 1) = ascii "HTTP/1." then
      if last = some 49 then
        (true, { c with request := (withTarget request target).setVersion .kHttp11 })
      else if last = some 48 then
        (true, { c with request := (withTarget request target).setVersion .kHttp10 })
      else (false, { c with request := withTarget request target })
    else (false, { c with request := withTarget request target })) =
      c.afterMethod target tail true request := by
  unfold afterMethod
  by_cases hlike : tail.length = 8 ∧ tail.take 7 = ascii "HTTP/1."
  · obtain ⟨x, rfl⟩ := (like_version_iff tail).1 hlike
    rw [versionOf?_like, hlast (by simp), List.getLast?_concat]
    by_cases h49 : x = 49
    · subst h49
      rfl
    · by_cases h48 : x = 48
      · subst h48
        rfl
      · simp [h49, h48]
  · rw [versionOf?_unlike hlike]
    have hno : ¬(tail.length = 8 ∧ tail.take (tail.length - 1) = ascii "HTTP/1.") := by
      rintro ⟨hlen, htake⟩
      rw [hlen] at htake
      exact hlike ⟨hlen, htake⟩
    rw [if_neg hno]
    rfl

/-- **A request line is read in three parts**: up to the first space, up to the second one, and
the rest. -/
theorem processRequestLine_parts (c : HttpContext) {name target tail : List Byte}
    (hname : kSpace ∉ name) (htarget : kSpace ∉ target) :
    c.processRequestLine (name ++ kSpace :: (target ++ kSpace :: tail)) = (do
      let (known, request) ← c.request.setMethod name
      return c.afterMethod target tail known request) := by
  generalize hL : name ++ kSpace :: (target ++ kSpace :: tail) = L
  obtain ⟨hspace₁, hslice, hspace₂, htgt, hdrop⟩ := slices_of_parts hname htarget hL.symm
  have hlen : L.length = name.length + 1 + target.length + 1 + tail.length := by
    rw [← hL]
    simp only [List.length_append, List.length_cons]
    omega
  have hquestion : find L (name.length + 1) (name.length + 1 + target.length) kQuestion =
      name.length + 1 + target.idxOf kQuestion := by
    rw [find, htgt]
  have hne₁ : name.length ≠ L.length := by omega
  have hne₂ : name.length + 1 + target.length ≠ L.length := by omega
  have hsize : L.length - (name.length + 1 + target.length + 1) = tail.length := by omega
  have hver : slice L (name.length + 1 + target.length + 1) (L.length - 1) =
      tail.take (tail.length - 1) := by
    rw [slice, hdrop]
    congr 1
    omega
  have hlast : tail ≠ [] → L.getLast? = tail.getLast? := by
    intro hne
    have hL' : L = (name ++ kSpace :: (target ++ [kSpace])) ++ tail := by
      rw [← hL]
      simp
    rw [hL', List.getLast?_append_of_ne_nil _ hne]
  unfold processRequestLine
  simp only [hspace₁, if_pos hne₁, hslice, hspace₂, if_pos hne₂, hquestion, hsize, hver,
    withTarget_of_slice htgt]
  refine congrArg _ (funext fun p => ?_)
  obtain ⟨known, request⟩ := p
  cases known with
  | false => rfl
  | true =>
      refine Eq.trans ?_ (congrArg Except.ok (c.afterMethod_eq target tail request hlast))
      simp only [if_true, apply_ite Except.ok]
      rfl

/-- A request line has no space, one space, or two. -/
theorem line_cases (line : List Byte) :
    kSpace ∉ line ∨
      (∃ name rest, line = name ++ kSpace :: rest ∧ kSpace ∉ name ∧ kSpace ∉ rest) ∨
      ∃ name target tail, line = name ++ kSpace :: (target ++ kSpace :: tail) ∧
        kSpace ∉ name ∧ kSpace ∉ target := by
  by_cases hline : kSpace ∈ line
  · obtain ⟨name, rest, rfl, hname⟩ := List.eq_append_cons_of_mem hline
    right
    by_cases hrest : kSpace ∈ rest
    · obtain ⟨target, tail, rfl, htarget⟩ := List.eq_append_cons_of_mem hrest
      exact Or.inr ⟨name, target, tail, rfl, hname, htarget⟩
    · exact Or.inl ⟨name, rest, rfl, hname, hrest⟩
  · exact Or.inl hline

theorem processRequestLine_no_space (c : HttpContext) {line : List Byte} (h : kSpace ∉ line) :
    c.processRequestLine line = .ok (false, c) := by
  have hspace : find line 0 line.length kSpace = line.length := by
    rw [find, slice_length, List.drop_zero, List.idxOf_eq_length h, Nat.zero_add]
  unfold processRequestLine
  simp only [hspace]
  exact if_neg fun hne => hne rfl

theorem processRequestLine_one_space (c : HttpContext) {name rest : List Byte}
    (hname : kSpace ∉ name) (hrest : kSpace ∉ rest) :
    c.processRequestLine (name ++ kSpace :: rest) = (do
      let (_, request) ← c.request.setMethod name
      return (false, { c with request := request })) := by
  generalize hL : name ++ kSpace :: rest = L
  have hlen : L.length = name.length + 1 + rest.length := by
    rw [← hL, List.length_append, List.length_cons]
    omega
  have hspace₁ : find L 0 L.length kSpace = name.length := by
    have hall : slice L 0 L.length = L := by rw [slice_length, List.drop_zero]
    rw [find_eq (hall.trans hL.symm) hname, Nat.zero_add]
  have hslice : slice L 0 name.length = name := by
    rw [← hL, slice, List.drop_zero, Nat.sub_zero, List.take_left]
  have hspace₂ : find L (name.length + 1) L.length kSpace = L.length := by
    have hdrop : L.drop (name.length + 1) = rest := by
      rw [← hL, ← List.singleton_append, ← List.append_assoc]
      exact List.drop_left' (by simp)
    rw [find, slice_length, hdrop, List.idxOf_eq_length hrest, hlen]
  have hne : name.length ≠ L.length := by omega
  unfold processRequestLine
  simp only [hspace₁, if_pos hne, hslice, hspace₂]
  refine congrArg _ (funext fun p => ?_)
  obtain ⟨known, request⟩ := p
  cases known with
  | false => rfl
  | true => simp

/-! ### Which lines are accepted -/

theorem versionOf?_eq_some {tail : List Byte} {v : HttpRequest.Version}
    (h : versionOf? tail = some v) : tail = ascii "HTTP/1.1" ∨ tail = ascii "HTTP/1.0" := by
  unfold versionOf? at h
  split at h
  · rename_i h11
    exact Or.inl h11
  · split at h
    · rename_i h10
      exact Or.inr h10
    · cases h

/-- `setMethod` knows the names of the methods, and no other. -/
theorem setMethod_spec {r : HttpRequest} (hr : r.method = .kInvalid) (name : List Byte) :
    (∃ m, m ≠ HttpRequest.Method.kInvalid ∧ name = m.name ∧
      r.setMethod name = .ok (true, { r with method := m })) ∨
    r.setMethod name = .ok (false, r) := by
  by_cases hname : ∃ m, m ≠ HttpRequest.Method.kInvalid ∧ name = m.name
  · obtain ⟨m, hm, rfl⟩ := hname
    exact Or.inl ⟨m, hm, rfl, HttpRequest.setMethod_name hm hr⟩
  · right
    have hne : ∀ m, m ≠ HttpRequest.Method.kInvalid → name ≠ m.name :=
      fun m hm he => hname ⟨m, hm, he⟩
    have hget : name ≠ ascii "GET" := hne .kGet (by decide)
    have hpost : name ≠ ascii "POST" := hne .kPost (by decide)
    have hhead : name ≠ ascii "HEAD" := hne .kHead (by decide)
    have hput : name ≠ ascii "PUT" := hne .kPut (by decide)
    have hdelete : name ≠ ascii "DELETE" := hne .kDelete (by decide)
    rw [HttpRequest.setMethod, assertThat_pos hr, ok_bind]
    simp only [if_neg hget, if_neg hpost, if_neg hhead, if_neg hput, if_neg hdelete]
    cases r
    cases hr
    rfl

section

variable {c : HttpContext} {line : List Byte}

/-- **A well-formed request line is read as it was written.** -/
theorem processRequestLine_eq {m : HttpRequest.Method} {target : List Byte}
    (hm : m ≠ .kInvalid) (hspace : kSpace ∉ target) (hc : c.request.method = .kInvalid)
    (hquery : c.request.query = []) :
    c.processRequestLine (m.name ++ kSpace :: (target ++ kSpace :: ascii "HTTP/1.1")) =
      .ok (true, { c with request := setTarget c.request m target }) := by
  have hversion : versionOf? (ascii "HTTP/1.1") = some .kHttp11 := rfl
  rw [processRequestLine_parts c (space_not_mem_name m) hspace, HttpRequest.setMethod_name hm hc,
    ok_bind]
  simp only [afterMethod, if_true, hversion, pure_eq_ok]
  unfold withTarget
  by_cases hmem : kQuestion ∈ target
  · rw [if_pos hmem]
    rfl
  · obtain ⟨hpath, hrest⟩ := idxOf_question target
    rw [List.idxOf_eq_length hmem, List.take_length] at hpath
    rw [List.idxOf_eq_length hmem, List.drop_length] at hrest
    rw [if_neg hmem, setTarget, ← hpath, ← hrest, ← hquery]
    rfl

/-- While no method is set, reading a line fails no assertion. -/
theorem processRequestLine_total (hc : c.request.method = .kInvalid) (line : List Byte) :
    ∃ ok r, c.processRequestLine line = .ok (ok, ⟨c.state, r⟩) := by
  rcases line_cases line with hno | ⟨name, rest, rfl, hname, hrest⟩ |
    ⟨name, target, tail, rfl, hname, htarget⟩
  · exact ⟨_, _, processRequestLine_no_space c hno⟩
  · rw [processRequestLine_one_space c hname hrest]
    rcases setMethod_spec hc name with ⟨m, -, -, hset⟩ | hset
    · exact ⟨_, _, by rw [hset]; rfl⟩
    · exact ⟨_, _, by rw [hset]; rfl⟩
  · rw [processRequestLine_parts c hname htarget]
    have hafter : ∀ known request, ∃ ok r,
        c.afterMethod target tail known request = (ok, ⟨c.state, r⟩) := by
      intro known request
      cases known with
      | false => exact ⟨_, _, rfl⟩
      | true =>
          rw [afterMethod, if_pos rfl]
          cases versionOf? tail with
          | none => exact ⟨_, _, rfl⟩
          | some v => exact ⟨_, _, rfl⟩
    rcases setMethod_spec hc name with ⟨m, -, -, hset⟩ | hset
    · obtain ⟨ok, r, h⟩ := hafter true { c.request with method := m }
      exact ⟨ok, r, by rw [hset, ok_bind, ← h]; rfl⟩
    · obtain ⟨ok, r, h⟩ := hafter false c.request
      exact ⟨ok, r, by rw [hset, ok_bind, ← h]; rfl⟩

/-- **Which lines are accepted**: the valid request lines. -/
theorem processRequestLine_true_iff (hc : c.request.method = .kInvalid) :
    (∃ c', c.processRequestLine line = .ok (true, c')) ↔ ValidRequestLine line := by
  constructor
  · rintro ⟨c', h⟩
    rcases line_cases line with hno | ⟨name, rest, rfl, hname, hrest⟩ |
      ⟨name, target, tail, rfl, hname, htarget⟩
    · rw [processRequestLine_no_space c hno] at h
      cases h
    · rw [processRequestLine_one_space c hname hrest] at h
      rcases setMethod_spec hc name with ⟨m, -, -, hset⟩ | hset <;> rw [hset] at h <;> cases h
    · rw [processRequestLine_parts c hname htarget] at h
      rcases setMethod_spec hc name with ⟨m, hm, rfl, hset⟩ | hset
      · rw [hset, ok_bind] at h
        cases hversion : versionOf? tail with
        | none =>
            simp only [afterMethod, if_true, hversion] at h
            cases h
        | some v => exact ⟨m, target, tail, hm, htarget, versionOf?_eq_some hversion, rfl⟩
      · rw [hset] at h
        cases h
  · rintro ⟨m, target, tail, hm, htarget, htail, rfl⟩
    rw [processRequestLine_parts c (space_not_mem_name m) htarget,
      HttpRequest.setMethod_name hm hc, ok_bind]
    rcases htail with rfl | rfl
    · exact ⟨_, rfl⟩
    · exact ⟨_, rfl⟩

end

end HttpContext

end G5
