/-
**A parsed request** (`src/net/http/HttpRequest.h`).

A range of characters passed as a pair of pointers is the list of its bytes.

Main definitions:

* `HttpRequest` and its functions, under the names of the source; `kHead`, which `setMethod` uses,
  is added to the enumeration;
* `HttpRequest.Method.name` — how a method is written.

Main results:

* `HttpRequest.setMethod_name` — `setMethod` reads every method that is written so;
* `HttpRequest.find?_addHeader` — what a header line adds.
-/

import G5.Base.Timestamp
import G5.Lib.SortedMap
import Mathlib.Data.List.DropRight
import Mathlib.Data.List.Lex

set_option relaxedAutoImplicit false
set_option autoImplicit false

namespace G5

namespace HttpRequest

inductive Method
  | kInvalid
  | kGet
  | kPost
  | kHead
  | kPut
  | kDelete
  deriving DecidableEq, Repr

inductive Version
  | kUnknown
  | kHttp10
  | kHttp11
  deriving DecidableEq, Repr

end HttpRequest

structure HttpRequest where
  method : HttpRequest.Method
  version : HttpRequest.Version
  path : List Byte
  query : List Byte
  receiveTime : ℤ
  headers : SortedMap (List Byte) (List Byte)
  deriving DecidableEq

/-- The `isspace` of the "C" locale. -/
def isspace (c : Byte) : Bool := c = 32 ∨ 9 ≤ c ∧ c ≤ 13

namespace HttpRequest

/-! ### The functions -/

/-- The fields the constructor sets. -/
def new : HttpRequest where
  method := .kInvalid
  version := .kUnknown
  path := []
  query := []
  receiveTime := Timestamp.invalid
  headers := SortedMap.empty

def setVersion (r : HttpRequest) (v : Version) : HttpRequest := { r with version := v }

/-- The argument is the range from `start` to `end`. -/
def setMethod (r : HttpRequest) (m : List Byte) : Checked (Bool × HttpRequest) := do
  assertThat (r.method = .kInvalid)
  let method : Method :=
    if m = ascii "GET" then .kGet
    else if m = ascii "POST" then .kPost
    else if m = ascii "HEAD" then .kHead
    else if m = ascii "PUT" then .kPut
    else if m = ascii "DELETE" then .kDelete
    else .kInvalid
  return (method ≠ .kInvalid, { r with method := method })

/-- The name of the method, for a handler. -/
def methodString (r : HttpRequest) : List Byte :=
  match r.method with
  | .kGet => ascii "GET"
  | .kPost => ascii "POST"
  | .kHead => ascii "HEAD"
  | .kPut => ascii "PUT"
  | _ => ascii "UNKNOWN"

def setPath (r : HttpRequest) (path : List Byte) : HttpRequest := { r with path := path }

def setQuery (r : HttpRequest) (query : List Byte) : HttpRequest := { r with query := query }

def setReceiveTime (r : HttpRequest) (t : ℤ) : HttpRequest := { r with receiveTime := t }

/-- The two loops of `addHeader`, which cut the spaces off a value. -/
def trim (value : List Byte) : List Byte := (value.dropWhile isspace).rdropWhile isspace

/-- `line` is the range from `start` to `end`, and `colon` is counted from `start`. -/
def addHeader (r : HttpRequest) (line : List Byte) (colon : ℕ) : HttpRequest :=
  { r with headers := r.headers.insert (line.take colon) (trim (line.drop (colon + 1))) }

/-- The value of a header, or the empty string. -/
def getHeader (r : HttpRequest) (field : List Byte) : List Byte :=
  (r.headers.find? field).getD []

/-! ### Methods and headers as they are written -/

/-- How a method is written in a request line. -/
def Method.name : Method → List Byte
  | .kInvalid => []
  | .kGet => ascii "GET"
  | .kPost => ascii "POST"
  | .kHead => ascii "HEAD"
  | .kPut => ascii "PUT"
  | .kDelete => ascii "DELETE"

theorem setMethod_name {r : HttpRequest} {m : Method} (hm : m ≠ .kInvalid)
    (hr : r.method = .kInvalid) : r.setMethod m.name = .ok (true, { r with method := m }) := by
  rw [setMethod, assertThat_pos hr, ok_bind]
  cases m with
  | kInvalid => exact absurd rfl hm
  | kGet | kPost | kHead | kPut | kDelete => rfl

/-- **What a header line adds**: the value of its key, whatever the key had before. -/
theorem find?_addHeader (r : HttpRequest) (field raw key : List Byte) (c : Byte) :
    (r.addHeader (field ++ c :: raw) field.length).headers.find? key =
      if field = key then some (trim raw) else r.headers.find? key := by
  have hfield : (field ++ c :: raw).take field.length = field := List.take_left
  have hraw : (field ++ c :: raw).drop (field.length + 1) = raw := by
    rw [← List.drop_drop, List.drop_left]
    rfl
  have hins := SortedMap.find?_insert r.headers field key (trim raw)
  rw [addHeader, hfield, hraw]
  by_cases hkey : field = key
  · rw [if_pos hkey] at hins ⊢
    exact hins
  · rw [if_neg hkey] at hins ⊢
    exact hins

end HttpRequest

end G5
