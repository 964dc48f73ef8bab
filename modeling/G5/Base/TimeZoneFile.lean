/-
**Zone files** (`readTimeZoneFile` and the constructor of `TimeZone` from a file,
`src/base/TimeZone.cc`).

A zone file has a header with six counts, the moments of the transitions, the type each begins, the
types, and the text of the abbreviations.  What is read goes into the data one element at a time.
A `std::logic_error` on the way is caught and printed, and leaves what has been read so far; a file
that ends in the middle of a number throws a text, which nothing catches; and a file that cannot be
opened leaves the data empty.  In each case but the second, the zone counts as valid.

Text is read into an array on the stack, as long as the file says.  How long it can be is a
parameter; the vectors grow on the heap, which is unlimited here.

Main definitions:

* `Stack` — what the stack has room for;
* `Thrown`, `Reading`, `Reader` — what ends the reading, and the state an exception leaves;
* `File.readBytes`, `File.readInt32`, `File.readUInt8`, `readTimeZoneFile`, `TimeZone.ofFile`.
-/

import G5.Base.TimeZone

set_option relaxedAutoImplicit false
set_option autoImplicit false

namespace G5

open TimeZone (Transition Localtime Data)

/-- How long an array on the stack can be.  Those for the fields of the header fit. -/
structure Stack where
  room : ℕ
  header_le : 15 ≤ room

/-- The stack that a process has by default. -/
def Stack.eightMiB : Stack := ⟨8 * 1024 * 1024, by decide⟩

/-- What the header needs. -/
theorem Stack.fits_header (stack : Stack) {n : ℤ} (h : n ≤ 15) : n ≤ stack.room := by
  have hroom := stack.header_le
  omega

/-- What ends the reading of a file. -/
inductive Thrown
  /-- `std::logic_error`, and the classes derived from it -/
  | logicError (what : String)
  /-- a `const char*` -/
  | text (what : String)
  /-- the behaviour is undefined -/
  | fault (fault : Fault)
  /-- an array does not fit the stack, and the process is killed -/
  | stackOverflow
  deriving DecidableEq, Repr

/-- The position in the file, and the data read so far. -/
structure Reading where
  pos : ℕ
  data : Data
  deriving DecidableEq, Repr

/-- A part of the program that reads: an exception leaves the state as it is. -/
abbrev Reader (α : Type) : Type := ExceptT Thrown (StateM Reading) α

/-- What a part of the program does to a state. -/
def Reader.exec {α : Type} (m : Reader α) (s : Reading) : Except Thrown α × Reading :=
  (ExceptT.run m).run s

/-! ### Reading numbers and text -/

/-- The 32-bit number whose bytes stand from a position on, the highest first. -/
def int32At (bytes : List Byte) (pos : ℕ) : ℤ :=
  toInt32 (((bytes.drop pos).take 4).foldl (fun n b => 256 * n + b.toNat) 0 : ℕ)

def byteAt (bytes : List Byte) (pos : ℕ) : ℤ := (bytes.getD pos 0).toNat

/-- `fread` of `n` bytes: as many as there are. -/
def fread (bytes : List Byte) (n : ℕ) : Reader (List Byte) := do
  let s ← get
  let got := (bytes.drop s.pos).take n
  set { s with pos := s.pos + got.length }
  return got

namespace File

/-- The array `char buf[n]` is on the stack.  One of negative length is undefined. -/
def readBytes (stack : Stack) (bytes : List Byte) (n : ℤ) : Reader (List Byte) := do
  if n < 0 then
    throw (.fault .outOfBounds)
  if stack.room < n then
    throw .stackOverflow
  let buf ← fread bytes n.toNat
  if buf.length ≠ n.toNat then
    throw (.logicError "no enough data")
  return buf

def readInt32 (bytes : List Byte) : Reader ℤ := do
  let x ← fread bytes 4
  if x.length ≠ 4 then
    throw (.text "bad int32_t data")
  return int32At x 0

def readUInt8 (bytes : List Byte) : Reader ℤ := do
  let x ← fread bytes 1
  if x.length ≠ 1 then
    throw (.logicError "bad uint8_t data")
  return byteAt x 0

end File

/-! ### Reading a file -/

/-- A loop that reads into a vector. -/
def readVector {α : Type} (read : Reader α) : ℕ → Reader (List α)
  | 0 => return []
  | n + 1 => do
      let x ← read
      let xs ← readVector read n
      return x :: xs

/-- `reserve` of a vector. -/
def reserve (n : ℤ) : Reader Unit := do
  if n < 0 then
    throw (.logicError "vector::reserve")

/-- The loop that reads the types of local time. -/
def readLocaltimes (bytes : List Byte) : ℕ → Reader Unit
  | 0 => return ()
  | n + 1 => do
      let gmtoff ← File.readInt32 bytes
      let isdst ← File.readUInt8 bytes
      let abbrind ← File.readUInt8 bytes
      modify fun s => { s with data :=
        { s.data with localtimes := s.data.localtimes ++ [⟨gmtoff, isdst ≠ 0, abbrind⟩] } }
      readLocaltimes bytes n

/-- The loop that puts the transitions together. -/
def pushTransitions : List (ℤ × ℤ) → Reader Unit
  | [] => return ()
  | (gmttime, localIdx) :: rest => do
      let s ← get
      match elementAt s.data.localtimes localIdx with
      | .error fault => throw (.fault fault)
      | .ok type =>
          let localtime := gmttime + type.gmtOffset
          let tr : Transition := ⟨gmttime, localtime, localIdx⟩
          set { s with data := { s.data with transitions := s.data.transitions ++ [tr] } }
          pushTransitions rest

/-- The `try` block behind the header. -/
def readTables (stack : Stack) (bytes : List Byte) (timecnt typecnt charcnt : ℤ) : Reader Unit := do
  reserve timecnt
  let trans ← readVector (File.readInt32 bytes) timecnt.toNat
  let localtimes ← readVector (File.readUInt8 bytes) timecnt.toNat
  readLocaltimes bytes typecnt.toNat
  pushTransitions (trans.zip localtimes)
  let abbreviation ← File.readBytes stack bytes charcnt
  modify fun s => { s with data := { s.data with abbreviation := abbreviation } }

/-- The `try` block. -/
def readData (stack : Stack) (bytes : List Byte) : Reader Unit := do
  let head ← File.readBytes stack bytes 4
  if head ≠ ascii "TZif" then
    throw (.logicError "bad head")
  let _version ← File.readBytes stack bytes 1
  let _reserved ← File.readBytes stack bytes 15
  let _isgmtcnt ← File.readInt32 bytes
  let _isstdcnt ← File.readInt32 bytes
  let _leapcnt ← File.readInt32 bytes
  let timecnt ← File.readInt32 bytes
  let typecnt ← File.readInt32 bytes
  let charcnt ← File.readInt32 bytes
  readTables stack bytes timecnt typecnt charcnt

/-- The value returned, which is always `true`, and the data.  The file is `none` where it cannot
be opened. -/
def readTimeZoneFile (stack : Stack) (file : Option (List Byte)) (data : Data) :
    Except Thrown (Bool × Data) :=
  match file with
  | none => .ok (true, data)
  | some bytes =>
      match (readData stack bytes).exec ⟨0, data⟩ with
      | (.ok (), s) => .ok (true, s.data)
      | (.error (.logicError _), s) => .ok (true, s.data)
      | (.error thrown, _) => .error thrown

/-- The constructor from a file. -/
def TimeZone.ofFile (stack : Stack) (file : Option (List Byte)) : Except Thrown TimeZone := do
  let (ok, data) ← readTimeZoneFile stack file {}
  return ⟨if ok then some data else none⟩

/-! ### What the parts do -/

namespace Reader

variable {α β : Type} {m : Reader α} {f : α → Reader β} {s s' : Reading}

theorem exec_bind_ok {a : α} (h : m.exec s = (.ok a, s')) : (m >>= f).exec s = (f a).exec s' := by
  unfold exec at *
  simp only [ExceptT.run_bind, StateT.run_bind]
  rw [h]
  rfl

theorem exec_bind_error {e : Thrown} (h : m.exec s = (.error e, s')) :
    (m >>= f).exec s = (.error e, s') := by
  unfold exec at *
  simp only [ExceptT.run_bind, StateT.run_bind]
  rw [h]
  rfl

@[simp] theorem exec_pure (a : α) : (pure a : Reader α).exec s = (.ok a, s) := rfl

end Reader

/-- A part ends with an exception, and has not touched the abbreviations. -/
def Reader.Fails {α : Type} (m : Reader α) (s : Reading) (e : Thrown) : Prop :=
  ∃ s', m.exec s = (.error e, s') ∧ s'.data.abbreviation = s.data.abbreviation

section

variable {α β : Type} {m : Reader α} {f : α → Reader β} {s s' : Reading} {e : Thrown}

theorem Reader.Fails.bind (h : m.Fails s e) : Reader.Fails (m >>= f) s e := by
  obtain ⟨s', hexec, hdata⟩ := h
  exact ⟨s', Reader.exec_bind_error hexec, hdata⟩

theorem Reader.Fails.after {a : α} (h : m.exec s = (.ok a, s'))
    (hdata : s'.data.abbreviation = s.data.abbreviation) (hf : (f a).Fails s' e) :
    Reader.Fails (m >>= f) s e := by
  obtain ⟨s'', hexec, hdata'⟩ := hf
  exact ⟨s'', by rw [Reader.exec_bind_ok h, hexec], hdata'.trans hdata⟩

end

section

variable {stack : Stack} {bytes : List Byte} {p : ℕ} {data : Data}

/-- Enough bytes are left. -/
theorem fread_ok (bytes : List Byte) (p : ℕ) (data : Data) {n : ℕ} (h : p + n ≤ bytes.length) :
    (fread bytes n).exec ⟨p, data⟩ = (.ok ((bytes.drop p).take n), ⟨p + n, data⟩) ∧
      ((bytes.drop p).take n).length = n := by
  have hlength : ((bytes.drop p).take n).length = n := by
    rw [List.length_take, List.length_drop]
    omega
  refine ⟨?_, hlength⟩
  change (Except.ok _, (⟨p + ((bytes.drop p).take n).length, data⟩ : Reading)) = _
  rw [hlength]

/-- The file is at its end. -/
theorem fread_short (bytes : List Byte) (p : ℕ) (data : Data) {n : ℕ}
    (h : bytes.length < p + n) (hn : n ≠ 0) :
    ∃ p' got, (fread bytes n).exec ⟨p, data⟩ = (.ok got, ⟨p', data⟩) ∧ got.length ≠ n := by
  refine ⟨_, (bytes.drop p).take n, rfl, ?_⟩
  rw [List.length_take, List.length_drop]
  omega

namespace File

theorem readBytes_ok {n : ℤ} (h₀ : 0 ≤ n) (hroom : n ≤ stack.room) (h : p + n ≤ bytes.length) :
    (readBytes stack bytes n).exec ⟨p, data⟩ =
      (.ok ((bytes.drop p).take n.toNat), ⟨p + n.toNat, data⟩) := by
  obtain ⟨hread, hlength⟩ := fread_ok bytes p data (n := n.toNat) (by omega)
  unfold readBytes
  rw [if_neg (not_lt.2 h₀)]
  change ((if _ then _ else _) : Reader _).exec _ = _
  rw [if_neg (not_lt.2 hroom)]
  change ((fread bytes n.toNat >>= _) : Reader _).exec _ = _
  rw [Reader.exec_bind_ok hread, if_neg (not_not.2 hlength)]
  rfl

theorem readBytes_short {n : ℤ} (h₀ : 0 < n) (hroom : n ≤ stack.room)
    (h : bytes.length < p + n) :
    (readBytes stack bytes n).Fails ⟨p, data⟩ (.logicError "no enough data") := by
  obtain ⟨p', got, hread, hlength⟩ :=
    fread_short bytes p data (n := n.toNat) (by omega) (by omega)
  unfold readBytes
  rw [if_neg (by omega)]
  change Reader.Fails (if _ then _ else _) _ _
  rw [if_neg (not_lt.2 hroom)]
  refine Reader.Fails.after hread rfl ?_
  rw [if_pos hlength]
  exact ⟨_, rfl, rfl⟩

theorem readBytes_neg {n : ℤ} (h : n < 0) :
    (readBytes stack bytes n).Fails ⟨p, data⟩ (.fault .outOfBounds) := by
  unfold readBytes
  rw [if_pos h]
  exact ⟨_, rfl, rfl⟩

/-- The array does not fit. -/
theorem readBytes_overflow {n : ℤ} (h : stack.room < n) :
    (readBytes stack bytes n).Fails ⟨p, data⟩ .stackOverflow := by
  unfold readBytes
  rw [if_neg (by omega)]
  change Reader.Fails (if _ then _ else _) _ _
  rw [if_pos h]
  exact ⟨_, rfl, rfl⟩

theorem readInt32_ok (h : p + 4 ≤ bytes.length) :
    (readInt32 bytes).exec ⟨p, data⟩ = (.ok (int32At bytes p), ⟨p + 4, data⟩) := by
  obtain ⟨hread, hlength⟩ := fread_ok bytes p data h
  have hvalue : int32At ((bytes.drop p).take 4) 0 = int32At bytes p := by
    unfold int32At
    rw [List.drop_zero, List.take_take, Nat.min_self]
  unfold readInt32
  rw [Reader.exec_bind_ok hread, if_neg (not_not.2 hlength), ← hvalue]
  rfl

theorem readInt32_short (h : bytes.length < p + 4) :
    (readInt32 bytes).Fails ⟨p, data⟩ (.text "bad int32_t data") := by
  obtain ⟨p', got, hread, hlength⟩ := fread_short bytes p data h (by decide)
  refine Reader.Fails.after hread rfl ?_
  rw [if_pos hlength]
  exact ⟨_, rfl, rfl⟩

theorem readUInt8_ok (h : p + 1 ≤ bytes.length) :
    (readUInt8 bytes).exec ⟨p, data⟩ = (.ok (byteAt bytes p), ⟨p + 1, data⟩) := by
  obtain ⟨hread, hlength⟩ := fread_ok bytes p data h
  have hvalue : byteAt ((bytes.drop p).take 1) 0 = byteAt bytes p := by
    unfold byteAt
    rw [List.getD_eq_getElem?_getD, List.getElem?_take_of_lt (by decide), List.getElem?_drop,
      Nat.add_zero, ← List.getD_eq_getElem?_getD]
  unfold readUInt8
  rw [Reader.exec_bind_ok hread, if_neg (not_not.2 hlength), ← hvalue]
  rfl

theorem readUInt8_short (h : bytes.length < p + 1) :
    (readUInt8 bytes).Fails ⟨p, data⟩ (.logicError "bad uint8_t data") := by
  obtain ⟨p', got, hread, hlength⟩ := fread_short bytes p data h (by decide)
  refine Reader.Fails.after hread rfl ?_
  rw [if_pos hlength]
  exact ⟨_, rfl, rfl⟩

end File

/-! ### What the constructor makes of it -/

section

variable {stack : Stack} {bytes : List Byte} {s : Reading}

theorem TimeZone.ofFile_ok (h : (readData stack bytes).exec ⟨0, {}⟩ = (.ok (), s)) :
    TimeZone.ofFile stack (some bytes) = .ok ⟨some s.data⟩ := by
  unfold TimeZone.ofFile readTimeZoneFile
  simp only
  rw [h]
  rfl

/-- A `std::logic_error` is caught, and what has been read so far stays. -/
theorem TimeZone.ofFile_logicError {what : String}
    (h : (readData stack bytes).exec ⟨0, {}⟩ = (.error (.logicError what), s)) :
    TimeZone.ofFile stack (some bytes) = .ok ⟨some s.data⟩ := by
  unfold TimeZone.ofFile readTimeZoneFile
  simp only
  rw [h]
  rfl

/-- Nothing else is caught. -/
theorem TimeZone.ofFile_thrown {thrown : Thrown} (hthrown : ∀ what, thrown ≠ .logicError what)
    (h : (readData stack bytes).exec ⟨0, {}⟩ = (.error thrown, s)) :
    TimeZone.ofFile stack (some bytes) = .error thrown := by
  unfold TimeZone.ofFile readTimeZoneFile
  simp only
  rw [h]
  cases thrown with
  | logicError what => exact absurd rfl (hthrown what)
  | text what => rfl
  | fault fault => rfl
  | stackOverflow => rfl

/-- A zone that the constructor returns counts as valid. -/
theorem TimeZone.valid_of_ofFile {file : Option (List Byte)} {zone : TimeZone}
    (h : TimeZone.ofFile stack file = .ok zone) : zone.valid = true := by
  cases file with
  | none =>
      cases h
      rfl
  | some bytes =>
      rcases hexec : (readData stack bytes).exec ⟨0, {}⟩ with ⟨_ | _, s⟩
      · rename_i thrown
        cases thrown with
        | logicError what =>
            rw [ofFile_logicError hexec] at h
            cases h
            rfl
        | text what =>
            rw [ofFile_thrown (fun _ => by simp) hexec] at h
            cases h
        | fault fault =>
            rw [ofFile_thrown (fun _ => by simp) hexec] at h
            cases h
        | stackOverflow =>
            rw [ofFile_thrown (fun _ => by simp) hexec] at h
            cases h
      · rw [ofFile_ok hexec] at h
        cases h
        rfl

end

/-! ### What the loops do -/

theorem readVector_ok {α : Type} {read : Reader α} {value : ℕ → α} {w : ℕ}
    (hread : ∀ p, p + w ≤ bytes.length → read.exec ⟨p, data⟩ = (.ok (value p), ⟨p + w, data⟩))
    {n : ℕ} (h : p + w * n ≤ bytes.length) :
    (readVector read n).exec ⟨p, data⟩ =
      (.ok ((List.range n).map fun i => value (p + w * i)), ⟨p + w * n, data⟩) := by
  induction n generalizing p with
  | zero => rfl
  | succ n ih =>
      have hnext : p + w + w * n = p + w * (n + 1) := by
        rw [Nat.mul_succ]
        omega
      have hrest := ih (p := p + w) (by omega)
      rw [readVector, Reader.exec_bind_ok (hread p (by omega)), Reader.exec_bind_ok hrest,
        Reader.exec_pure, hnext, List.range_succ_eq_map, List.map_cons, List.map_map]
      have hvalues :
          (fun i => value (p + w + w * i)) = (fun i => value (p + w * i)) ∘ Nat.succ := by
        funext i
        rw [Function.comp_apply, Nat.mul_succ]
        exact congrArg value (by omega)
      rw [hvalues]
      rfl

theorem readVector_short {α : Type} {read : Reader α} {value : ℕ → α} {w : ℕ} {e : Thrown}
    (hread : ∀ p, p + w ≤ bytes.length → read.exec ⟨p, data⟩ = (.ok (value p), ⟨p + w, data⟩))
    (hshort : ∀ p, bytes.length < p + w → read.Fails ⟨p, data⟩ e)
    {n : ℕ} (hp : p ≤ bytes.length) (h : bytes.length < p + w * n) :
    (readVector read n).Fails ⟨p, data⟩ e := by
  induction n generalizing p with
  | zero => omega
  | succ n ih =>
      have hnext : p + w + w * n = p + w * (n + 1) := by
        rw [Nat.mul_succ]
        omega
      rw [readVector]
      rcases Nat.lt_or_ge bytes.length (p + w) with hlt | hge
      · exact (hshort p hlt).bind
      · exact Reader.Fails.after (hread p hge) rfl (ih hge (by omega)).bind

/-- The type of local time whose six bytes stand from a position on. -/
def localtimeAt (bytes : List Byte) (pos : ℕ) : Localtime :=
  ⟨int32At bytes pos, byteAt bytes (pos + 4) ≠ 0, byteAt bytes (pos + 5)⟩

/-- Six bytes are left for the next type. -/
theorem readLocaltimes_succ {n : ℕ} (h : p + 6 ≤ bytes.length) :
    (readLocaltimes bytes (n + 1)).exec ⟨p, data⟩ =
      (readLocaltimes bytes n).exec
        ⟨p + 6, { data with localtimes := data.localtimes ++ [localtimeAt bytes p] }⟩ := by
  rw [readLocaltimes, Reader.exec_bind_ok (File.readInt32_ok (by omega)),
    Reader.exec_bind_ok (File.readUInt8_ok (by omega)),
    Reader.exec_bind_ok (File.readUInt8_ok (by omega))]
  rfl

theorem readLocaltimes_ok {n : ℕ} (h : p + 6 * n ≤ bytes.length) :
    (readLocaltimes bytes n).exec ⟨p, data⟩ =
      (.ok (), ⟨p + 6 * n, { data with localtimes := data.localtimes ++
        ((List.range n).map fun k => localtimeAt bytes (p + 6 * k)) }⟩) := by
  induction n generalizing p data with
  | zero =>
      rw [List.range_zero, List.map_nil, List.append_nil]
      rfl
  | succ n ih =>
      rw [readLocaltimes_succ (by omega), ih (by omega), List.range_succ_eq_map, List.map_cons,
        List.map_map, List.append_assoc]
      have hvalues : (fun k => localtimeAt bytes (p + 6 + 6 * k)) =
          (fun k => localtimeAt bytes (p + 6 * k)) ∘ Nat.succ := by
        funext k
        exact congrArg (localtimeAt bytes) (by omega)
      have hnext : p + 6 + 6 * n = p + 6 * (n + 1) := by omega
      rw [hvalues, hnext]
      rfl

/-- The file ends in the offset of a type. -/
theorem readLocaltimes_cut_number {n k : ℕ} (hk : k < n) (h : p + 6 * k ≤ bytes.length)
    (h' : bytes.length < p + 6 * k + 4) :
    (readLocaltimes bytes n).Fails ⟨p, data⟩ (.text "bad int32_t data") := by
  induction k generalizing n p data with
  | zero =>
      obtain ⟨n, rfl⟩ : ∃ m, n = m + 1 := ⟨n - 1, by omega⟩
      exact (File.readInt32_short h').bind
  | succ k ih =>
      obtain ⟨n, rfl⟩ : ∃ m, n = m + 1 := ⟨n - 1, by omega⟩
      unfold Reader.Fails
      rw [readLocaltimes_succ (by omega)]
      exact ih (by omega) (by omega) (by omega)

/-- The file ends behind the offset of a type. -/
theorem readLocaltimes_cut_byte {n k : ℕ} (hk : k < n) (h : p + 6 * k + 4 ≤ bytes.length)
    (h' : bytes.length < p + 6 * k + 6) :
    (readLocaltimes bytes n).Fails ⟨p, data⟩ (.logicError "bad uint8_t data") := by
  induction k generalizing n p data with
  | zero =>
      obtain ⟨n, rfl⟩ : ∃ m, n = m + 1 := ⟨n - 1, by omega⟩
      refine Reader.Fails.after (File.readInt32_ok h) rfl ?_
      rcases Nat.lt_or_ge bytes.length (p + 5) with hlt | hge
      · exact (File.readUInt8_short hlt).bind
      · exact Reader.Fails.after (File.readUInt8_ok hge) rfl (File.readUInt8_short h').bind
  | succ k ih =>
      obtain ⟨n, rfl⟩ : ∃ m, n = m + 1 := ⟨n - 1, by omega⟩
      unfold Reader.Fails
      rw [readLocaltimes_succ (by omega)]
      exact ih (by omega) (by omega) (by omega)

/-- The type of a transition is looked up among those read. -/
theorem pushTransitions_cons {gmttime localIdx : ℤ} {rest : List (ℤ × ℤ)} {type : Localtime}
    (h : elementAt data.localtimes localIdx = .ok type) :
    (pushTransitions ((gmttime, localIdx) :: rest)).exec ⟨p, data⟩ =
      (pushTransitions rest).exec ⟨p, { data with transitions := data.transitions ++
        [⟨gmttime, gmttime + type.gmtOffset, localIdx⟩] }⟩ := by
  have hget : (get : Reader Reading).exec ⟨p, data⟩ = (.ok ⟨p, data⟩, ⟨p, data⟩) := rfl
  rw [pushTransitions, Reader.exec_bind_ok hget]
  simp only
  rw [h]
  rfl

/-- Every transition has a type among those read. -/
theorem pushTransitions_ok {pairs : List (ℤ × ℤ)}
    (h : ∀ x ∈ pairs, 0 ≤ x.2 ∧ x.2 < data.localtimes.length) :
    ∃ transitions, (pushTransitions pairs).exec ⟨p, data⟩ =
        (.ok (), ⟨p, { data with transitions := data.transitions ++ transitions }⟩) ∧
      transitions.map Transition.localtimeIdx = pairs.map Prod.snd := by
  induction pairs generalizing data with
  | nil =>
      refine ⟨[], ?_, rfl⟩
      rw [List.append_nil]
      rfl
  | cons x pairs ih =>
      obtain ⟨gmttime, localIdx⟩ := x
      obtain ⟨h₀, hlt⟩ := h _ List.mem_cons_self
      obtain ⟨type, -, htype⟩ := elementAt_of_lt h₀ hlt
      obtain ⟨transitions, hexec, hidx⟩ := @ih { data with transitions :=
        data.transitions ++ [⟨gmttime, gmttime + type.gmtOffset, localIdx⟩] }
          fun y hy => h y (List.mem_cons_of_mem _ hy)
      refine ⟨⟨gmttime, gmttime + type.gmtOffset, localIdx⟩ :: transitions, ?_,
        by rw [List.map_cons, hidx, List.map_cons]⟩
      rw [pushTransitions_cons htype, hexec, List.append_assoc]
      rfl

/-- A transition has no type. -/
theorem pushTransitions_fault {pairs : List (ℤ × ℤ)}
    (h : ∃ x ∈ pairs, ¬(0 ≤ x.2 ∧ x.2 < data.localtimes.length)) :
    (pushTransitions pairs).Fails ⟨p, data⟩ (.fault .outOfBounds) := by
  induction pairs generalizing data with
  | nil =>
      obtain ⟨x, hx, -⟩ := h
      cases hx
  | cons x pairs ih =>
      obtain ⟨gmttime, localIdx⟩ := x
      by_cases hin : 0 ≤ localIdx ∧ localIdx < data.localtimes.length
      · obtain ⟨type, -, htype⟩ := elementAt_of_lt hin.1 hin.2
        unfold Reader.Fails
        rw [pushTransitions_cons htype]
        obtain ⟨y, hy, hout⟩ := h
        rcases List.mem_cons.1 hy with rfl | hy
        · exact absurd hin hout
        · exact ih ⟨y, hy, hout⟩
      · have hat := elementAt_out hin
        have hget : (get : Reader Reading).exec ⟨p, data⟩ = (.ok ⟨p, data⟩, ⟨p, data⟩) := rfl
        refine Reader.Fails.after hget rfl ?_
        simp only
        rw [hat]
        exact ⟨_, rfl, rfl⟩

end

end G5
