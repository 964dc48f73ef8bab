/-
**Which zone files give usable zones.**

A zone that counts as valid should be usable: its conversions should never look for an element that
is not there.  The constructor counts every zone as valid, also when the file could not be opened or
its reading was broken off, so that the property holds for three kinds of files only: complete ones
whose indices are right, those that end in the middle of a number, for which the constructor
throws, and those whose abbreviations do not fit the stack, for which it does not return either.

Main definitions:

* `TimeZone.Data.InBounds`, `TimeZone.ValidIsUsable` — the property;
* `ZoneFile.Complete`, `ZoneFile.CutInNumber`, `ZoneFile.TooLong`, `ZoneFile.Good` — the files for
  which it holds.

Main results:

* `TimeZone.validIsUsable_iff` — **the property holds for exactly these files**.
-/

import G5.Base.TimeZoneFile

set_option relaxedAutoImplicit false
set_option autoImplicit false

namespace G5

open TimeZone (Transition Localtime Data)

/-! ### The property -/

namespace TimeZone

/-- There is a type of local time, and every index is that of an element. -/
structure Data.InBounds (data : Data) : Prop where
  localtimes : data.localtimes ≠ []
  localtimeIdx : ∀ tr ∈ data.transitions,
    0 ≤ tr.localtimeIdx ∧ tr.localtimeIdx < data.localtimes.length
  arrbIdx : ∀ type ∈ data.localtimes,
    0 ≤ type.arrbIdx ∧ type.arrbIdx < data.abbreviation.length

theorem Data.InBounds.usable {data : Data} (h : data.InBounds) : data.Usable where
  localtimes := h.localtimes
  localtimeIdx := h.localtimeIdx
  arrbIdx type htype := ⟨(h.arrbIdx type htype).1, le_of_lt (h.arrbIdx type htype).2⟩

/-- If the constructor returns with a valid zone, every index is in bounds and no conversion looks
for an element that is not there; and the constructor itself does not. -/
def ValidIsUsable (stack : Stack) (file : Option (List Byte)) : Prop :=
  match ofFile stack file with
  | .ok zone => zone.valid = true → ∃ data, zone.data = some data ∧ data.InBounds ∧
      ∀ libc, (∀ seconds, ∃ tm, toLocalTime libc zone seconds = .ok tm) ∧
        ∀ tm, ∃ seconds, fromLocalTime libc zone tm = .ok seconds
  | .error (.fault _) => False
  | .error _ => True

/-- What has been read makes the difference. -/
theorem validIsUsable_of_ok {stack : Stack} {bytes : List Byte} {s : Reading}
    (h : (readData stack bytes).exec ⟨0, {}⟩ = (.ok (), s)) :
    ValidIsUsable stack (some bytes) ↔ s.data.InBounds := by
  unfold ValidIsUsable
  rw [ofFile_ok h]
  constructor
  · intro hvalid
    obtain ⟨data, hdata, hbounds, -⟩ := hvalid rfl
    obtain rfl := Option.some.inj hdata
    exact hbounds
  · intro hbounds _
    exact ⟨s.data, rfl, hbounds, fun libc =>
      ⟨toLocalTime_usable hbounds.usable libc, fromLocalTime_usable hbounds.usable libc⟩⟩

/-- The constructor throws. -/
theorem validIsUsable_of_text {stack : Stack} {bytes : List Byte} {what : String}
    (h : (readData stack bytes).Fails ⟨0, {}⟩ (.text what)) : ValidIsUsable stack (some bytes) := by
  obtain ⟨s, hexec, -⟩ := h
  unfold ValidIsUsable
  rw [ofFile_thrown (fun _ => by simp) hexec]
  trivial

/-- The constructor does not return. -/
theorem validIsUsable_of_overflow {stack : Stack} {bytes : List Byte}
    (h : (readData stack bytes).Fails ⟨0, {}⟩ .stackOverflow) :
    ValidIsUsable stack (some bytes) := by
  obtain ⟨s, hexec, -⟩ := h
  unfold ValidIsUsable
  rw [ofFile_thrown (fun _ => by simp) hexec]
  trivial

/-- Without abbreviations nothing is in bounds. -/
theorem not_inBounds {data : Data} (h : data.abbreviation = []) : ¬data.InBounds := by
  intro hbounds
  obtain ⟨front, rest, hfront⟩ := List.exists_cons_of_ne_nil hbounds.localtimes
  obtain ⟨h₀, hlt⟩ := hbounds.arrbIdx front (by rw [hfront]; exact List.mem_cons_self)
  rw [h, List.length_nil] at hlt
  omega

/-- The reading is broken off, and the zone counts as valid. -/
theorem not_validIsUsable_of_logicError {stack : Stack} {bytes : List Byte} {what : String}
    (h : (readData stack bytes).Fails ⟨0, {}⟩ (.logicError what)) :
    ¬ValidIsUsable stack (some bytes) := by
  obtain ⟨s, hexec, hdata⟩ := h
  unfold ValidIsUsable
  rw [ofFile_logicError hexec]
  intro hvalid
  obtain ⟨data, hsome, hbounds, -⟩ := hvalid rfl
  obtain rfl := Option.some.inj hsome
  exact not_inBounds hdata hbounds

/-- The constructor uses an index that is out of range. -/
theorem not_validIsUsable_of_fault {stack : Stack} {bytes : List Byte} {fault : Fault}
    (h : (readData stack bytes).Fails ⟨0, {}⟩ (.fault fault)) :
    ¬ValidIsUsable stack (some bytes) := by
  obtain ⟨s, hexec, -⟩ := h
  unfold ValidIsUsable
  rw [ofFile_thrown (fun _ => by simp) hexec]
  exact id

/-- The file cannot be opened. -/
theorem not_validIsUsable_none (stack : Stack) : ¬ValidIsUsable stack none := by
  intro hvalid
  obtain ⟨data, hsome, hbounds, -⟩ := hvalid rfl
  obtain rfl := Option.some.inj hsome
  exact hbounds.localtimes rfl

end TimeZone

/-! ### The files -/

namespace ZoneFile

def timecnt (bytes : List Byte) : ℤ := int32At bytes 32

def typecnt (bytes : List Byte) : ℤ := int32At bytes 36

def charcnt (bytes : List Byte) : ℤ := int32At bytes 40

/-- The file ends in a count of the header, in a moment of a transition, or in the offset of a
type. -/
def CutInNumber (bytes : List Byte) : Prop :=
  bytes.length < 44 ∨ 0 ≤ timecnt bytes ∧ (bytes.length < 44 + 4 * timecnt bytes ∨
    ∃ k : ℕ, k < typecnt bytes ∧ 44 + 5 * timecnt bytes + 6 * k ≤ bytes.length ∧
      bytes.length < 44 + 5 * timecnt bytes + 6 * k + 4)

/-- The file has a type, each transition has one of the types, each type has a place in the text,
and nothing is missing. -/
structure Complete (bytes : List Byte) : Prop where
  timecnt_nonneg : 0 ≤ timecnt bytes
  typecnt_pos : 0 < typecnt bytes
  length_le : 44 + 5 * timecnt bytes + 6 * typecnt bytes + charcnt bytes ≤ bytes.length
  localtimeIdx : ∀ i : ℕ, i < timecnt bytes →
    byteAt bytes (44 + 4 * (timecnt bytes).toNat + i) < typecnt bytes
  arrbIdx : ∀ k : ℕ, k < typecnt bytes →
    byteAt bytes (44 + 5 * (timecnt bytes).toNat + 6 * k + 5) < charcnt bytes

/-- The types are there, each transition has one of them, and the text of the abbreviations does not
fit the stack. -/
structure TooLong (stack : Stack) (bytes : List Byte) : Prop where
  timecnt_nonneg : 0 ≤ timecnt bytes
  length_le : 44 + 5 * (timecnt bytes).toNat + 6 * (typecnt bytes).toNat ≤ bytes.length
  localtimeIdx : ∀ i : ℕ, i < timecnt bytes →
    byteAt bytes (44 + 4 * (timecnt bytes).toNat + i) < typecnt bytes
  room_lt : stack.room < charcnt bytes

/-- The file begins like a zone file; and it is complete, ends in a number, or has a text that is
too long. -/
structure Good (stack : Stack) (bytes : List Byte) : Prop where
  head : bytes.take 4 = ascii "TZif"
  length : 20 ≤ bytes.length
  rest : CutInNumber bytes ∨ Complete bytes ∨ TooLong stack bytes

theorem byteAt_nonneg (bytes : List Byte) (pos : ℕ) : 0 ≤ byteAt bytes pos :=
  Int.natCast_nonneg _

theorem Complete.charcnt_pos {bytes : List Byte} (h : Complete bytes) :
    0 < ZoneFile.charcnt bytes :=
  lt_of_le_of_lt (byteAt_nonneg _ _) (h.arrbIdx 0 h.typecnt_pos)

/-! ### The header -/

section

variable {stack : Stack} {bytes : List Byte}

theorem readBytes_head (h : 4 ≤ bytes.length) :
    (File.readBytes stack bytes 4).exec ⟨0, {}⟩ = (.ok (bytes.take 4), ⟨4, {}⟩) :=
  File.readBytes_ok (by decide) (stack.fits_header (by decide)) (by omega)

theorem readBytes_version (h : 5 ≤ bytes.length) :
    (File.readBytes stack bytes 1).exec ⟨4, {}⟩ = (.ok ((bytes.drop 4).take 1), ⟨5, {}⟩) :=
  File.readBytes_ok (by decide) (stack.fits_header (by decide)) (by omega)

theorem readBytes_reserved (h : 20 ≤ bytes.length) :
    (File.readBytes stack bytes 15).exec ⟨5, {}⟩ = (.ok ((bytes.drop 5).take 15), ⟨20, {}⟩) :=
  File.readBytes_ok (by decide) (stack.fits_header (by decide)) (by omega)

theorem readData_head_fails (h : ¬(bytes.take 4 = ascii "TZif" ∧ 20 ≤ bytes.length)) :
    ∃ what, (readData stack bytes).Fails ⟨0, {}⟩ (.logicError what) := by
  rcases Nat.lt_or_ge bytes.length 4 with h4 | h4
  · exact ⟨_, (File.readBytes_short (by decide) (stack.fits_header (by decide)) (by omega)).bind⟩
  by_cases hhead : bytes.take 4 = ascii "TZif"
  · refine ⟨"no enough data", Reader.Fails.after (readBytes_head h4) rfl ?_⟩
    rw [if_neg (not_not.2 hhead)]
    rcases Nat.lt_or_ge bytes.length 5 with h5 | h5
    · exact (File.readBytes_short (by decide) (stack.fits_header (by decide)) (by omega)).bind
    · refine Reader.Fails.after (readBytes_version h5) rfl ?_
      have hshort : bytes.length < 20 := not_le.1 fun hge => h ⟨hhead, hge⟩
      exact (File.readBytes_short (by decide) (stack.fits_header (by decide)) (by omega)).bind
  · refine ⟨"bad head", Reader.Fails.after (readBytes_head h4) rfl ?_⟩
    rw [if_pos hhead]
    exact ⟨_, rfl, rfl⟩

/-- The counts are read behind the head. -/
theorem readData_head_ok (hhead : bytes.take 4 = ascii "TZif") (h : 20 ≤ bytes.length) :
    (readData stack bytes).exec ⟨0, {}⟩ = Reader.exec (do
      let _isgmtcnt ← File.readInt32 bytes
      let _isstdcnt ← File.readInt32 bytes
      let _leapcnt ← File.readInt32 bytes
      let timecnt ← File.readInt32 bytes
      let typecnt ← File.readInt32 bytes
      let charcnt ← File.readInt32 bytes
      readTables stack bytes timecnt typecnt charcnt) ⟨20, {}⟩ := by
  unfold readData
  rw [Reader.exec_bind_ok (readBytes_head (by omega)), if_neg (not_not.2 hhead)]
  change Reader.exec (File.readBytes stack bytes 1 >>= _) _ = _
  rw [Reader.exec_bind_ok (readBytes_version (by omega)),
    Reader.exec_bind_ok (readBytes_reserved h)]

theorem readData_counts_fails (hhead : bytes.take 4 = ascii "TZif") (h : 20 ≤ bytes.length)
    (hshort : bytes.length < 44) :
    (readData stack bytes).Fails ⟨0, {}⟩ (.text "bad int32_t data") := by
  unfold Reader.Fails
  rw [readData_head_ok hhead h]
  rcases Nat.lt_or_ge bytes.length 24 with h24 | h24
  · exact (File.readInt32_short h24).bind
  refine Reader.Fails.after (File.readInt32_ok h24) rfl ?_
  rcases Nat.lt_or_ge bytes.length 28 with h28 | h28
  · exact (File.readInt32_short h28).bind
  refine Reader.Fails.after (File.readInt32_ok h28) rfl ?_
  rcases Nat.lt_or_ge bytes.length 32 with h32 | h32
  · exact (File.readInt32_short h32).bind
  refine Reader.Fails.after (File.readInt32_ok h32) rfl ?_
  rcases Nat.lt_or_ge bytes.length 36 with h36 | h36
  · exact (File.readInt32_short h36).bind
  refine Reader.Fails.after (File.readInt32_ok h36) rfl ?_
  rcases Nat.lt_or_ge bytes.length 40 with h40 | h40
  · exact (File.readInt32_short h40).bind
  refine Reader.Fails.after (File.readInt32_ok h40) rfl ?_
  exact (File.readInt32_short hshort).bind

theorem readData_counts_ok (hhead : bytes.take 4 = ascii "TZif") (h : 44 ≤ bytes.length) :
    (readData stack bytes).exec ⟨0, {}⟩ =
      (readTables stack bytes (timecnt bytes) (typecnt bytes) (charcnt bytes)).exec ⟨44, {}⟩ := by
  rw [readData_head_ok hhead (by omega), Reader.exec_bind_ok (File.readInt32_ok (by omega)),
    Reader.exec_bind_ok (File.readInt32_ok (by omega)),
    Reader.exec_bind_ok (File.readInt32_ok (by omega)),
    Reader.exec_bind_ok (File.readInt32_ok (by omega)),
    Reader.exec_bind_ok (File.readInt32_ok (by omega)),
    Reader.exec_bind_ok (File.readInt32_ok (by omega))]
  rfl

/-! ### The tables -/

/-- The moments of the transitions. -/
def gmttimes (bytes : List Byte) (n : ℕ) : List ℤ :=
  (List.range n).map fun i => int32At bytes (44 + 4 * i)

/-- The indices of the types the transitions begin. -/
def localtimeIdxs (bytes : List Byte) (n : ℕ) : List ℤ :=
  (List.range n).map fun i => byteAt bytes (44 + 4 * n + 1 * i)

/-- The types, of six bytes each. -/
def localtimes (bytes : List Byte) (n c : ℕ) : List Localtime :=
  (List.range c).map fun k => localtimeAt bytes (44 + 5 * n + 6 * k)

theorem readTables_reserve_fails {timecnt : ℤ} (typecnt charcnt : ℤ) (h : timecnt < 0) :
    (readTables stack bytes timecnt typecnt charcnt).Fails ⟨44, {}⟩
      (.logicError "vector::reserve") := by
  refine Reader.Fails.bind ?_
  unfold reserve
  rw [if_pos h]
  exact ⟨_, rfl, rfl⟩

theorem reserve_ok {n : ℤ} (h : 0 ≤ n) (s : Reading) : (reserve n).exec s = (.ok (), s) := by
  unfold reserve
  rw [if_neg (not_lt.2 h)]
  rfl

theorem readTables_trans_fails {timecnt : ℤ} (typecnt charcnt : ℤ) (h₀ : 0 ≤ timecnt)
    (h44 : 44 ≤ bytes.length) (h : bytes.length < 44 + 4 * timecnt) :
    (readTables stack bytes timecnt typecnt charcnt).Fails ⟨44, {}⟩ (.text "bad int32_t data") := by
  refine Reader.Fails.after (reserve_ok h₀ _) rfl (Reader.Fails.bind ?_)
  exact readVector_short (fun p => File.readInt32_ok) (fun p => File.readInt32_short) h44 (by omega)

theorem readTables_localtimes_fails {timecnt : ℤ} (typecnt charcnt : ℤ) (h₀ : 0 ≤ timecnt)
    (h : 44 + 4 * timecnt ≤ bytes.length) (hshort : bytes.length < 44 + 5 * timecnt) :
    (readTables stack bytes timecnt typecnt charcnt).Fails ⟨44, {}⟩
      (.logicError "bad uint8_t data") := by
  refine Reader.Fails.after (reserve_ok h₀ _) rfl ?_
  refine Reader.Fails.after (readVector_ok (fun p => File.readInt32_ok) (by omega)) rfl ?_
  refine Reader.Fails.bind ?_
  exact readVector_short (fun p => File.readUInt8_ok) (fun p => File.readUInt8_short)
    (by omega) (by omega)

/-- The types are read behind the transitions. -/
theorem readTables_types {timecnt : ℤ} (typecnt charcnt : ℤ) (h₀ : 0 ≤ timecnt)
    (h : 44 + 5 * timecnt ≤ bytes.length) :
    (readTables stack bytes timecnt typecnt charcnt).exec ⟨44, {}⟩ = Reader.exec (do
      readLocaltimes bytes typecnt.toNat
      pushTransitions ((gmttimes bytes timecnt.toNat).zip (localtimeIdxs bytes timecnt.toNat))
      let abbreviation ← File.readBytes stack bytes charcnt
      modify fun s => { s with data := { s.data with abbreviation := abbreviation } })
      ⟨44 + 5 * timecnt.toNat, {}⟩ := by
  have htrans : (readVector (File.readInt32 bytes) timecnt.toNat).exec ⟨44, {}⟩ =
      (.ok (gmttimes bytes timecnt.toNat), ⟨44 + 4 * timecnt.toNat, {}⟩) :=
    readVector_ok (fun p => File.readInt32_ok) (by omega)
  have hlocal : (readVector (File.readUInt8 bytes) timecnt.toNat).exec
      ⟨44 + 4 * timecnt.toNat, {}⟩ = (.ok (localtimeIdxs bytes timecnt.toNat),
        ⟨44 + 4 * timecnt.toNat + 1 * timecnt.toNat, {}⟩) :=
    readVector_ok (fun p => File.readUInt8_ok) (by omega)
  have hpos : 44 + 4 * timecnt.toNat + 1 * timecnt.toNat = 44 + 5 * timecnt.toNat := by omega
  unfold readTables
  rw [Reader.exec_bind_ok (reserve_ok h₀ _), Reader.exec_bind_ok htrans,
    Reader.exec_bind_ok hlocal, hpos]

theorem map_snd_pairs (bytes : List Byte) (n : ℕ) :
    ((gmttimes bytes n).zip (localtimeIdxs bytes n)).map Prod.snd = localtimeIdxs bytes n := by
  refine List.map_snd_zip ?_
  rw [gmttimes, localtimeIdxs, List.length_map, List.length_map]

/-- A file that is long enough for its types, and whose transitions have one of them each. -/
theorem readTables_text {timecnt typecnt : ℤ} (charcnt : ℤ) (h₀ : 0 ≤ timecnt)
    (h : 44 + 5 * timecnt.toNat + 6 * typecnt.toNat ≤ bytes.length)
    (hidx : ∀ i < timecnt.toNat,
      byteAt bytes (44 + 4 * timecnt.toNat + i) < typecnt.toNat) :
    ∃ transitions : List Transition,
      transitions.map Transition.localtimeIdx = localtimeIdxs bytes timecnt.toNat ∧
      (readTables stack bytes timecnt typecnt charcnt).exec ⟨44, {}⟩ = Reader.exec (do
        let abbreviation ← File.readBytes stack bytes charcnt
        modify fun s => { s with data := { s.data with abbreviation := abbreviation } })
        ⟨44 + 5 * timecnt.toNat + 6 * typecnt.toNat,
          { transitions := transitions
            localtimes := localtimes bytes timecnt.toNat typecnt.toNat }⟩ := by
  have htypes : (readLocaltimes bytes typecnt.toNat).exec ⟨44 + 5 * timecnt.toNat, {}⟩ =
      (.ok (), ⟨44 + 5 * timecnt.toNat + 6 * typecnt.toNat,
        { localtimes := localtimes bytes timecnt.toNat typecnt.toNat }⟩) := readLocaltimes_ok h
  have hlength : (localtimes bytes timecnt.toNat typecnt.toNat).length = typecnt.toNat := by
    rw [localtimes, List.length_map, List.length_range]
  have hin : ∀ x ∈ (gmttimes bytes timecnt.toNat).zip (localtimeIdxs bytes timecnt.toNat),
      0 ≤ x.2 ∧ x.2 < (localtimes bytes timecnt.toNat typecnt.toNat).length := by
    intro x hx
    have hmem : x.2 ∈ localtimeIdxs bytes timecnt.toNat := (List.of_mem_zip hx).2
    obtain ⟨i, hi, hxi⟩ := List.mem_map.1 hmem
    have hlt := hidx i (List.mem_range.1 hi)
    rw [one_mul] at hxi
    rw [← hxi, hlength]
    exact ⟨byteAt_nonneg _ _, hlt⟩
  obtain ⟨transitions, hexec, hmap⟩ := @pushTransitions_ok
    (44 + 5 * timecnt.toNat + 6 * typecnt.toNat)
    { localtimes := localtimes bytes timecnt.toNat typecnt.toNat } _ hin
  refine ⟨transitions, hmap.trans (map_snd_pairs _ _), ?_⟩
  rw [readTables_types typecnt charcnt h₀ (by omega), Reader.exec_bind_ok htypes,
    Reader.exec_bind_ok hexec]
  rfl

theorem readText_ok {p : ℕ} {data : Data} {charcnt : ℤ} (h₀ : 0 ≤ charcnt)
    (hroom : charcnt ≤ stack.room) (h : p + charcnt ≤ bytes.length) :
    Reader.exec (do
      let abbreviation ← File.readBytes stack bytes charcnt
      modify fun s => { s with data := { s.data with abbreviation := abbreviation } }) ⟨p, data⟩ =
      (.ok (), ⟨p + charcnt.toNat,
        { data with abbreviation := (bytes.drop p).take charcnt.toNat }⟩) := by
  rw [Reader.exec_bind_ok (File.readBytes_ok h₀ hroom h)]
  rfl

/-- A transition begins a type that is not there. -/
theorem readTables_fault {timecnt typecnt : ℤ} (charcnt : ℤ) (h₀ : 0 ≤ timecnt)
    (h : 44 + 5 * timecnt.toNat + 6 * typecnt.toNat ≤ bytes.length) {i : ℕ}
    (hi : i < timecnt.toNat)
    (hidx : typecnt.toNat ≤ byteAt bytes (44 + 4 * timecnt.toNat + i)) :
    (readTables stack bytes timecnt typecnt charcnt).Fails ⟨44, {}⟩ (.fault .outOfBounds) := by
  have htypes : (readLocaltimes bytes typecnt.toNat).exec ⟨44 + 5 * timecnt.toNat, {}⟩ =
      (.ok (), ⟨44 + 5 * timecnt.toNat + 6 * typecnt.toNat,
        { localtimes := localtimes bytes timecnt.toNat typecnt.toNat }⟩) := readLocaltimes_ok h
  have hlength : (localtimes bytes timecnt.toNat typecnt.toNat).length = typecnt.toNat := by
    rw [localtimes, List.length_map, List.length_range]
  have hmem : byteAt bytes (44 + 4 * timecnt.toNat + i) ∈
      ((gmttimes bytes timecnt.toNat).zip (localtimeIdxs bytes timecnt.toNat)).map Prod.snd := by
    rw [map_snd_pairs]
    exact List.mem_map.2 ⟨i, List.mem_range.2 hi, by rw [one_mul]⟩
  obtain ⟨x, hx, hx2⟩ := List.mem_map.1 hmem
  unfold Reader.Fails
  rw [readTables_types typecnt charcnt h₀ (by omega)]
  refine Reader.Fails.after htypes rfl (pushTransitions_fault ⟨x, hx, ?_⟩).bind
  rw [hx2, hlength]
  omega

/-- The file ends among the types. -/
theorem readTables_localtimes_cut {timecnt typecnt : ℤ} (charcnt : ℤ) (h₀ : 0 ≤ timecnt)
    (h : 44 + 5 * timecnt.toNat ≤ bytes.length) {e : Thrown}
    (hcut : (readLocaltimes bytes typecnt.toNat).Fails ⟨44 + 5 * timecnt.toNat, {}⟩ e) :
    (readTables stack bytes timecnt typecnt charcnt).Fails ⟨44, {}⟩ e := by
  unfold Reader.Fails
  rw [readTables_types typecnt charcnt h₀ (by omega)]
  exact hcut.bind

/-- The text of the abbreviations decides about a file that is long enough for its types. -/
theorem inBounds_iff {timecnt typecnt : ℤ} (charcnt : ℤ) {transitions : List Transition}
    (hmap : transitions.map Transition.localtimeIdx = localtimeIdxs bytes timecnt.toNat)
    (hidx : ∀ i < timecnt.toNat,
      byteAt bytes (44 + 4 * timecnt.toNat + i) < typecnt.toNat) {abbreviation : List Byte}
    (hlength : abbreviation.length = charcnt.toNat) :
    Data.InBounds ⟨transitions, localtimes bytes timecnt.toNat typecnt.toNat, abbreviation⟩ ↔
      0 < typecnt ∧ ∀ k < typecnt.toNat,
        byteAt bytes (44 + 5 * timecnt.toNat + 6 * k + 5) < charcnt.toNat := by
  constructor
  · intro hbounds
    refine ⟨?_, fun k hk => ?_⟩
    · by_contra hle
      have hzero : typecnt.toNat = 0 := Int.toNat_of_nonpos (not_lt.1 hle)
      refine hbounds.localtimes ?_
      change localtimes bytes timecnt.toNat typecnt.toNat = []
      rw [hzero]
      rfl
    · have harrb := (hbounds.arrbIdx (localtimeAt bytes (44 + 5 * timecnt.toNat + 6 * k))
        (List.mem_map.2 ⟨k, List.mem_range.2 hk, rfl⟩)).2
      simp only at harrb
      rw [hlength] at harrb
      exact harrb
  · rintro ⟨htypecnt, harrb⟩
    have hcount : (localtimes bytes timecnt.toNat typecnt.toNat).length = typecnt.toNat := by
      rw [localtimes, List.length_map, List.length_range]
    refine ⟨fun hnil => ?_, fun tr htr => ?_, fun type htype => ?_⟩
    · simp only at hnil
      rw [hnil, List.length_nil] at hcount
      omega
    · have hmem : tr.localtimeIdx ∈ localtimeIdxs bytes timecnt.toNat := by
        rw [← hmap]
        exact List.mem_map_of_mem htr
      obtain ⟨i, hi, heq⟩ := List.mem_map.1 hmem
      have hlt := hidx i (List.mem_range.1 hi)
      rw [one_mul] at heq
      simp only
      rw [← heq, hcount]
      exact ⟨byteAt_nonneg _ _, hlt⟩
    · obtain ⟨k, hk, rfl⟩ := List.mem_map.1 htype
      simp only
      rw [hlength]
      exact ⟨byteAt_nonneg _ _, harrb k (List.mem_range.1 hk)⟩

end

end ZoneFile

namespace TimeZone

open ZoneFile

section

variable {stack : Stack} {bytes : List Byte}

/-- What happens to the tables happens to the file. -/
theorem readData_fails (hhead : bytes.take 4 = ascii "TZif") (h : 44 ≤ bytes.length) {e : Thrown}
    (hfails : (readTables stack bytes (timecnt bytes) (typecnt bytes) (charcnt bytes)).Fails
      ⟨44, {}⟩ e) :
    (readData stack bytes).Fails ⟨0, {}⟩ e := by
  unfold Reader.Fails
  rw [readData_counts_ok hhead h]
  exact hfails

/-- A file that ends in front of its types. -/
theorem validIsUsable_iff_of_short (hhead : bytes.take 4 = ascii "TZif") (h : 44 ≤ bytes.length)
    (hshort : timecnt bytes < 0 ∨ bytes.length < 44 + 5 * timecnt bytes) :
    ValidIsUsable stack (some bytes) ↔ Good stack bytes := by
  have hrest' : ¬(Complete bytes ∨ TooLong stack bytes) := by
    rintro (hcomplete | hlong)
    · have hcharcnt := hcomplete.charcnt_pos
      have htypecnt := hcomplete.typecnt_pos
      have htimecnt := hcomplete.timecnt_nonneg
      have hlength := hcomplete.length_le
      omega
    · have htimecnt := hlong.timecnt_nonneg
      have hlength := hlong.length_le
      omega
  have hgood : Good stack bytes ↔ 0 ≤ timecnt bytes ∧ bytes.length < 44 + 4 * timecnt bytes := by
    constructor
    · intro hgood
      rcases hgood.rest with (hlt | ⟨h₀, hlt | ⟨k, -, hle, -⟩⟩) | hrest
      · omega
      · exact ⟨h₀, hlt⟩
      · omega
      · exact absurd hrest hrest'
    · rintro ⟨h₀, hlt⟩
      exact ⟨hhead, by omega, Or.inl (Or.inr ⟨h₀, Or.inl hlt⟩)⟩
  rcases lt_or_ge (timecnt bytes) 0 with hneg | h₀
  · refine iff_of_false ?_ fun hgood' => ?_
    · exact not_validIsUsable_of_logicError
        (readData_fails hhead h (readTables_reserve_fails _ _ hneg))
    · have htimecnt := (hgood.1 hgood').1
      omega
  rcases lt_or_ge (bytes.length : ℤ) (44 + 4 * timecnt bytes) with hlt | hge
  · exact iff_of_true (validIsUsable_of_text
      (readData_fails hhead h (readTables_trans_fails _ _ h₀ h hlt))) (hgood.2 ⟨h₀, hlt⟩)
  · refine iff_of_false ?_ fun hgood' => ?_
    · exact not_validIsUsable_of_logicError
        (readData_fails hhead h (readTables_localtimes_fails _ _ h₀ hge (by omega)))
    · have hlength := (hgood.1 hgood').2
      omega

/-- A file that ends among its types. -/
theorem validIsUsable_iff_of_types (hhead : bytes.take 4 = ascii "TZif")
    (h₀ : 0 ≤ timecnt bytes) (h : 44 + 5 * timecnt bytes ≤ bytes.length)
    (hshort : bytes.length < 44 + 5 * timecnt bytes + 6 * typecnt bytes) :
    ValidIsUsable stack (some bytes) ↔ Good stack bytes := by
  obtain ⟨k, hk⟩ : ∃ k, k = (bytes.length - (44 + 5 * (timecnt bytes).toNat)) / 6 := ⟨_, rfl⟩
  have hrest' : ¬(Complete bytes ∨ TooLong stack bytes) := by
    rintro (hcomplete | hlong)
    · have hcharcnt := hcomplete.charcnt_pos
      have hlength := hcomplete.length_le
      omega
    · have hlength := hlong.length_le
      omega
  rcases Nat.lt_or_ge bytes.length (44 + 5 * (timecnt bytes).toNat + 6 * k + 4) with hlt | hge
  · refine iff_of_true (validIsUsable_of_text (readData_fails hhead (by omega)
      (readTables_localtimes_cut _ h₀ (by omega)
        (readLocaltimes_cut_number (k := k) (by omega) (by omega) hlt)))) ?_
    exact ⟨hhead, by omega, Or.inl (Or.inr ⟨h₀, Or.inr ⟨k, by omega, by omega, by omega⟩⟩)⟩
  · refine iff_of_false (not_validIsUsable_of_logicError (readData_fails hhead (by omega)
      (readTables_localtimes_cut _ h₀ (by omega)
        (readLocaltimes_cut_byte (k := k) (by omega) hge (by omega))))) fun hgood => ?_
    rcases hgood.rest with (hlt | ⟨-, hlt | ⟨k', -, hle, hlt⟩⟩) | hrest
    · omega
    · omega
    · omega
    · exact hrest' hrest

/-- Among the files that have all their types, those are good that are complete or have too long a
text. -/
theorem good_iff_of_types (hhead : bytes.take 4 = ascii "TZif") (h₀ : 0 ≤ timecnt bytes)
    (h : 44 + 5 * (timecnt bytes).toNat + 6 * (typecnt bytes).toNat ≤ bytes.length) :
    Good stack bytes ↔ Complete bytes ∨ TooLong stack bytes := by
  constructor
  · intro hgood
    rcases hgood.rest with (hlt | ⟨-, hlt | ⟨k, hk, -, hlt⟩⟩) | hrest
    · omega
    · omega
    · omega
    · exact hrest
  · intro hrest
    exact ⟨hhead, by omega, Or.inr hrest⟩

/-- A file that has all its types, where the index of every transition is that of a type, and whose
text fits the stack. -/
theorem validIsUsable_iff_of_fits (hhead : bytes.take 4 = ascii "TZif")
    (h₀ : 0 ≤ timecnt bytes)
    (h : 44 + 5 * (timecnt bytes).toNat + 6 * (typecnt bytes).toNat ≤ bytes.length)
    (hidx : ∀ i < (timecnt bytes).toNat,
      byteAt bytes (44 + 4 * (timecnt bytes).toNat + i) < (typecnt bytes).toNat)
    (hcharcnt : 0 ≤ charcnt bytes) (hroom : charcnt bytes ≤ stack.room) :
    ValidIsUsable stack (some bytes) ↔ Complete bytes := by
  obtain ⟨transitions, hmap, hexec⟩ := readTables_text (charcnt bytes) h₀ h hidx
  rcases lt_or_ge (bytes.length : ℤ) ((44 + 5 * (timecnt bytes).toNat +
      6 * (typecnt bytes).toNat : ℕ) + charcnt bytes) with hlt | hge
  · have hfails : (readTables stack bytes (timecnt bytes) (typecnt bytes) (charcnt bytes)).Fails
        ⟨44, {}⟩ (.logicError "no enough data") := by
      unfold Reader.Fails
      rw [hexec]
      exact (File.readBytes_short (by omega) hroom hlt).bind
    refine iff_of_false (not_validIsUsable_of_logicError
      (readData_fails hhead (by omega) hfails)) fun hcomplete => ?_
    have hlength := hcomplete.length_le
    have htypecnt := hcomplete.typecnt_pos
    omega
  · -- everything has been read
    have hfinal : (readData stack bytes).exec ⟨0, {}⟩ =
        (.ok (), ⟨44 + 5 * (timecnt bytes).toNat + 6 * (typecnt bytes).toNat +
          (charcnt bytes).toNat,
          ⟨transitions, localtimes bytes (timecnt bytes).toNat (typecnt bytes).toNat,
          (bytes.drop (44 + 5 * (timecnt bytes).toNat + 6 * (typecnt bytes).toNat)).take
            (charcnt bytes).toNat⟩⟩) := by
      rw [readData_counts_ok hhead (by omega), hexec, readText_ok hcharcnt hroom hge]
    rw [validIsUsable_of_ok hfinal, inBounds_iff (charcnt bytes) hmap hidx
      (by rw [List.length_take, List.length_drop]; omega)]
    constructor
    · rintro ⟨htypecnt, harrb⟩
      refine ⟨h₀, htypecnt, by omega, fun i hi => ?_, fun k hk => ?_⟩
      · have hlt := hidx i (by omega)
        omega
      · have hlt := harrb k (by omega)
        omega
    · intro hcomplete
      refine ⟨hcomplete.typecnt_pos, fun k hk => ?_⟩
      have hlt := hcomplete.arrbIdx k (by omega)
      omega

/-- A file that has all its types, where the index of every transition is that of a type. -/
theorem validIsUsable_iff_of_indices (hhead : bytes.take 4 = ascii "TZif")
    (h₀ : 0 ≤ timecnt bytes)
    (h : 44 + 5 * (timecnt bytes).toNat + 6 * (typecnt bytes).toNat ≤ bytes.length)
    (hidx : ∀ i < (timecnt bytes).toNat,
      byteAt bytes (44 + 4 * (timecnt bytes).toNat + i) < (typecnt bytes).toNat) :
    ValidIsUsable stack (some bytes) ↔ Complete bytes ∨ TooLong stack bytes := by
  obtain ⟨transitions, -, hexec⟩ := readTables_text (charcnt bytes) h₀ h hidx
  rcases lt_or_ge (charcnt bytes) 0 with hneg | hcharcnt
  · have hfails : (readTables stack bytes (timecnt bytes) (typecnt bytes) (charcnt bytes)).Fails
        ⟨44, {}⟩ (.fault .outOfBounds) := by
      unfold Reader.Fails
      rw [hexec]
      exact (File.readBytes_neg hneg).bind
    refine iff_of_false (not_validIsUsable_of_fault (readData_fails hhead (by omega) hfails)) ?_
    rintro (hcomplete | hlong)
    · exact absurd hcomplete.charcnt_pos (by omega)
    · have hroom := hlong.room_lt
      omega
  rcases lt_or_ge (stack.room : ℤ) (charcnt bytes) with hroom | hroom
  · have hfails : (readTables stack bytes (timecnt bytes) (typecnt bytes) (charcnt bytes)).Fails
        ⟨44, {}⟩ .stackOverflow := by
      unfold Reader.Fails
      rw [hexec]
      exact (File.readBytes_overflow hroom).bind
    refine iff_of_true (validIsUsable_of_overflow (readData_fails hhead (by omega) hfails))
      (Or.inr ⟨h₀, h, fun i hi => ?_, hroom⟩)
    have hlt := hidx i (by omega)
    have hnonneg := byteAt_nonneg bytes (44 + 4 * (timecnt bytes).toNat + i)
    omega
  · rw [validIsUsable_iff_of_fits hhead h₀ h hidx hcharcnt hroom, or_iff_left]
    exact fun hlong => absurd hlong.room_lt (not_lt.2 hroom)

/-- A file that has all its types. -/
theorem validIsUsable_iff_of_text (hhead : bytes.take 4 = ascii "TZif")
    (h₀ : 0 ≤ timecnt bytes)
    (h : 44 + 5 * (timecnt bytes).toNat + 6 * (typecnt bytes).toNat ≤ bytes.length) :
    ValidIsUsable stack (some bytes) ↔ Good stack bytes := by
  rw [good_iff_of_types hhead h₀ h]
  by_cases hidx : ∀ i < (timecnt bytes).toNat,
      byteAt bytes (44 + 4 * (timecnt bytes).toNat + i) < (typecnt bytes).toNat
  · exact validIsUsable_iff_of_indices hhead h₀ h hidx
  · refine iff_of_false ?_ fun hrest => hidx fun i hi => ?_
    · obtain ⟨i, hi, hge⟩ : ∃ i < (timecnt bytes).toNat,
          ((typecnt bytes).toNat : ℤ) ≤ byteAt bytes (44 + 4 * (timecnt bytes).toNat + i) := by
        by_contra hnone
        exact hidx fun i hi => not_le.1 fun hge => hnone ⟨i, hi, hge⟩
      exact not_validIsUsable_of_fault
        (readData_fails hhead (by omega) (readTables_fault _ h₀ h hi hge))
    · have hlt : byteAt bytes (44 + 4 * (timecnt bytes).toNat + i) < typecnt bytes :=
        hrest.elim (fun hcomplete => hcomplete.localtimeIdx i (by omega))
          fun hlong => hlong.localtimeIdx i (by omega)
      omega

end

/-- **A valid zone is usable for exactly the good files.** -/
theorem validIsUsable_iff (stack : Stack) (file : Option (List Byte)) :
    ValidIsUsable stack file ↔ ∃ bytes, file = some bytes ∧ Good stack bytes := by
  cases file with
  | none =>
      refine iff_of_false (not_validIsUsable_none stack) ?_
      rintro ⟨bytes, hbytes, -⟩
      cases hbytes
  | some bytes =>
      have hsome : (∃ bytes', some bytes = some bytes' ∧ Good stack bytes') ↔ Good stack bytes := by
        constructor
        · rintro ⟨bytes', heq, hgood⟩
          obtain rfl := Option.some.inj heq
          exact hgood
        · exact fun hgood => ⟨bytes, rfl, hgood⟩
      rw [hsome]
      by_cases hhead : bytes.take 4 = ascii "TZif" ∧ 20 ≤ bytes.length
      · rcases Nat.lt_or_ge bytes.length 44 with hlt | hge
        · exact iff_of_true (validIsUsable_of_text (readData_counts_fails hhead.1 hhead.2 hlt))
            ⟨hhead.1, hhead.2, Or.inl (Or.inl hlt)⟩
        · by_cases hshort : timecnt bytes < 0 ∨ bytes.length < 44 + 5 * timecnt bytes
          · exact validIsUsable_iff_of_short hhead.1 hge hshort
          · rcases lt_or_ge (bytes.length : ℤ)
              (44 + 5 * timecnt bytes + 6 * typecnt bytes) with hlt | hge'
            · exact validIsUsable_iff_of_types hhead.1 (by omega) (by omega) hlt
            · exact validIsUsable_iff_of_text hhead.1 (by omega) (by omega)
      · obtain ⟨what, hfails⟩ := readData_head_fails hhead
        exact iff_of_false (not_validIsUsable_of_logicError hfails)
          fun hgood => hhead ⟨hgood.head, hgood.length⟩

/-- A file that cannot be opened gives a valid zone none of whose times can be converted. -/
theorem valid_without_file :
    (∃ zone, ofFile .eightMiB none = .ok zone ∧ zone.valid = true ∧
      ∀ libc seconds, toLocalTime libc zone seconds = .error .outOfBounds) ∧
    ¬ValidIsUsable .eightMiB none :=
  ⟨⟨_, rfl, rfl, fun _ _ => rfl⟩, not_validIsUsable_none _⟩

end TimeZone

end G5
