/-
**Zone files as they are written.**

A zone file of version 1 is a header with six counts, and behind it the moments of the transitions,
the index of the type each begins, the types, and the text of the abbreviations.  The counts of the
sections come in another order than the sections.  Reading a file gives back what was written into
it, and is not disturbed by what follows, as long as the text of the abbreviations fits the stack.

Main definitions:

* `ZoneText` — what a zone file says; the counts are signed numbers of 32 bits, so that a section
  has fewer than 2³¹ elements;
* `ZoneText.encode`, `ZoneText.data` — its bytes, and the data it stands for;
* `ZoneText.ReadsBack` — what is read is what was written.

Main results:

* `pushTransitions_eq` — the transitions that the loop puts together;
* `ZoneText.readsBack_iff` — **reading a zone file inverts its encoding** exactly where its text
  fits the stack.
-/

import G5.Base.ZoneValidity
import G5.Lib.BigEndian

set_option relaxedAutoImplicit false
set_option autoImplicit false

namespace G5

open TimeZone (Transition Localtime Data)

/-! ### What a file says -/

/-- A type of local time: its offset, whether it is summer time, and its abbreviation. -/
structure ZoneType where
  offset : BitVec 32
  isDst : Bool
  arrbIdx : Byte

/-- A transition: its moment, and the index of the type it begins. -/
structure ZoneTransition where
  gmttime : BitVec 32
  typeIdx : Byte

/-- What a zone file says; the first fields are those the library does not use. -/
structure ZoneText where
  version : Byte
  reserved : List Byte
  isgmtcnt : BitVec 32
  isstdcnt : BitVec 32
  leapcnt : BitVec 32
  types : List ZoneType
  transitions : List ZoneTransition
  abbreviation : List Byte
  reserved_length : reserved.length = 15
  typeIdx_lt : ∀ tr ∈ transitions, tr.typeIdx.toNat < types.length
  transitions_lt : transitions.length < 2 ^ 31
  types_lt : types.length < 2 ^ 31
  abbreviation_lt : abbreviation.length < 2 ^ 31

/-- A number of 32 bits, the highest byte first. -/
def bigEndian (v : BitVec 32) : List Byte := BigEndian.encode 4 v

/-- The six bytes of a type. -/
def ZoneType.encode (type : ZoneType) : List Byte :=
  bigEndian type.offset ++ [if type.isDst then 1 else 0, type.arrbIdx]

def ZoneType.localtime (type : ZoneType) : Localtime :=
  ⟨type.offset.toInt, type.isDst, type.arrbIdx.toNat⟩

namespace ZoneText

/-- The counts, in the order of the header. -/
def counts (z : ZoneText) : List (BitVec 32) :=
  [z.isgmtcnt, z.isstdcnt, z.leapcnt, BitVec.ofNat 32 z.transitions.length,
    BitVec.ofNat 32 z.types.length, BitVec.ofNat 32 z.abbreviation.length]

def header (z : ZoneText) : List Byte :=
  ascii "TZif" ++ ([z.version] ++ (z.reserved ++ z.counts.flatMap bigEndian))

/-- The bytes of the file. -/
def encode (z : ZoneText) : List Byte :=
  z.header ++ (z.transitions.flatMap (fun tr => bigEndian tr.gmttime) ++
    (z.transitions.flatMap (fun tr => [tr.typeIdx]) ++
      (z.types.flatMap ZoneType.encode ++ z.abbreviation)))

/-- The offset of a type. -/
def offsetAt (z : ZoneText) (i : ℕ) : ℤ := (z.types[i]?.map fun type => type.offset.toInt).getD 0

/-- A transition with the reading of the clock it begins with. -/
def transition (z : ZoneText) (tr : ZoneTransition) : Transition where
  gmttime := tr.gmttime.toInt
  localtime := tr.gmttime.toInt + z.offsetAt tr.typeIdx.toNat
  localtimeIdx := tr.typeIdx.toNat

/-- What the file stands for. -/
def data (z : ZoneText) : Data where
  transitions := z.transitions.map z.transition
  localtimes := z.types.map ZoneType.localtime
  abbreviation := z.abbreviation

end ZoneText

/-! ### Numbers and records -/

@[simp] theorem length_bigEndian (v : BitVec 32) : (bigEndian v).length = 4 :=
  BigEndian.length_encode 4 v

theorem ZoneType.length_encode (type : ZoneType) : type.encode.length = 6 := by
  rw [ZoneType.encode, List.length_append, length_bigEndian]
  rfl

/-- A number is read where it has been written. -/
theorem int32At_bigEndian (v : BitVec 32) (before after : List Byte) :
    int32At (before ++ (bigEndian v ++ after)) before.length = v.toInt := by
  have hvalue : (bigEndian v).foldl (fun n b => 256 * n + b.toNat) 0 = v.toNat :=
    BigEndian.valueOf_encode 4 v
  rw [int32At, List.drop_left, List.take_left' (length_bigEndian v), hvalue, toInt32,
    BitVec.toInt_eq_toNat_bmod]

/-- A byte is read where it has been written. -/
theorem byteAt_append (b : Byte) (before after : List Byte) :
    byteAt (before ++ ([b] ++ after)) before.length = b.toNat := by
  rw [byteAt, List.getD_eq_getElem?_getD, List.getElem?_append_right le_rfl, Nat.sub_self]
  rfl

/-- A type is read where it has been written. -/
theorem localtimeAt_encode (type : ZoneType) (before after : List Byte) :
    localtimeAt (before ++ (type.encode ++ after)) before.length = type.localtime := by
  have hflag : before ++ (type.encode ++ after) = (before ++ bigEndian type.offset) ++
      ([if type.isDst then 1 else 0] ++ ([type.arrbIdx] ++ after)) := by
    simp [ZoneType.encode]
  have harrb : before ++ (type.encode ++ after) = (before ++ bigEndian type.offset ++
      [if type.isDst then 1 else 0]) ++ ([type.arrbIdx] ++ after) := by
    simp [ZoneType.encode]
  have hoffset : before ++ (type.encode ++ after) = before ++ (bigEndian type.offset ++
      ([if type.isDst then 1 else 0, type.arrbIdx] ++ after)) := by
    simp [ZoneType.encode]
  have hat₄ := byteAt_append (if type.isDst then 1 else 0) (before ++ bigEndian type.offset)
    ([type.arrbIdx] ++ after)
  have hat₅ := byteAt_append type.arrbIdx
    (before ++ bigEndian type.offset ++ [if type.isDst then 1 else 0]) after
  rw [← hflag, List.length_append, length_bigEndian] at hat₄
  rw [← harrb, List.length_append, List.length_append, length_bigEndian,
    List.length_singleton] at hat₅
  have hat₀ := int32At_bigEndian type.offset before
    ([if type.isDst then 1 else 0, type.arrbIdx] ++ after)
  rw [← hoffset] at hat₀
  rw [localtimeAt, hat₀, hat₄, hat₅, ZoneType.localtime]
  cases type.isDst <;> rfl

/-! ### The transitions -/

/-- **The transitions that the loop puts together**, where each has a type among those read. -/
theorem pushTransitions_eq (offset : ℤ → ℤ) {p : ℕ} {data : Data} {pairs : List (ℤ × ℤ)}
    (h : ∀ x ∈ pairs, ∃ type, elementAt data.localtimes x.2 = .ok type ∧
      type.gmtOffset = offset x.2) :
    (pushTransitions pairs).exec ⟨p, data⟩ =
      (.ok (), ⟨p, { data with transitions := data.transitions ++
        (pairs.map fun x => ⟨x.1, x.1 + offset x.2, x.2⟩) }⟩) := by
  induction pairs generalizing data with
  | nil =>
      rw [List.map_nil, List.append_nil]
      rfl
  | cons x pairs ih =>
      obtain ⟨gmttime, localIdx⟩ := x
      obtain ⟨type, htype, hoffset⟩ := h _ List.mem_cons_self
      have hrest := @ih { data with transitions :=
        data.transitions ++ [⟨gmttime, gmttime + type.gmtOffset, localIdx⟩] }
          fun y hy => h y (List.mem_cons_of_mem _ hy)
      simp only at hoffset
      rw [pushTransitions_cons htype, hrest, List.append_assoc, hoffset]
      rfl

/-! ### Reading a file -/

namespace ZoneText

open ZoneFile

section

variable (z : ZoneText) (trailing : List Byte)

theorem length_header : z.header.length = 44 := by
  rw [header, List.length_append, List.length_append, List.length_append, z.reserved_length,
    Records.length_flatMap length_bigEndian]
  rfl

/-- The bytes of the file, cut behind the header. -/
theorem encode_append : z.encode ++ trailing = z.header ++
    (z.transitions.flatMap (fun tr => bigEndian tr.gmttime) ++
      (z.transitions.flatMap (fun tr => [tr.typeIdx]) ++
        (z.types.flatMap ZoneType.encode ++ (z.abbreviation ++ trailing)))) := by
  rw [encode]
  simp only [List.append_assoc]

/-- The length of the file. -/
theorem length_encode_append : (z.encode ++ trailing).length =
    44 + 5 * z.transitions.length + 6 * z.types.length + z.abbreviation.length +
      trailing.length := by
  have htimes := Records.length_flatMap (w := 4)
    (fun tr : ZoneTransition => length_bigEndian tr.gmttime) z.transitions
  have hidxs := Records.length_flatMap (w := 1)
    (fun tr : ZoneTransition => List.length_singleton (a := tr.typeIdx)) z.transitions
  have htypes := Records.length_flatMap ZoneType.length_encode z.types
  rw [encode_append]
  simp only [List.length_append, length_header, htimes, hidxs, htypes]
  omega

theorem take_head : (z.encode ++ trailing).take 4 = ascii "TZif" := by
  rw [encode_append, header]
  simp only [List.append_assoc]
  exact List.take_left' rfl

/-- A count of the header is read where it has been written. -/
theorem int32At_count {i : ℕ} {v : BitVec 32} (hv : z.counts[i]? = some v) :
    int32At (z.encode ++ trailing) (20 + 4 * i) = v.toInt := by
  have hmap := Records.map_at int32At bigEndian BitVec.toInt length_bigEndian
    int32At_bigEndian (ascii "TZif" ++ ([z.version] ++ z.reserved)) z.counts
    (z.transitions.flatMap (fun tr => bigEndian tr.gmttime) ++
      (z.transitions.flatMap (fun tr => [tr.typeIdx]) ++
        (z.types.flatMap ZoneType.encode ++ (z.abbreviation ++ trailing))))
  have hlength : (ascii "TZif" ++ ([z.version] ++ z.reserved)).length = 20 := by
    rw [List.length_append, List.length_append, z.reserved_length]
    rfl
  have hi := (List.getElem?_eq_some_iff.1 hv).1
  have hbytes : (ascii "TZif" ++ ([z.version] ++ z.reserved)) ++ (z.counts.flatMap bigEndian ++
      (z.transitions.flatMap (fun tr => bigEndian tr.gmttime) ++
      (z.transitions.flatMap (fun tr => [tr.typeIdx]) ++
        (z.types.flatMap ZoneType.encode ++ (z.abbreviation ++ trailing))))) =
      z.encode ++ trailing := by
    rw [encode_append, header]
    simp only [List.append_assoc]
  rw [hbytes, hlength] at hmap
  have hget := congrArg (fun xs => xs[i]?) hmap
  simp only [List.getElem?_map, List.getElem?_range hi, hv, Option.map_some,
    Option.some.injEq] at hget
  exact hget

/-- A length that fits a signed count is the count. -/
theorem toInt_ofNat {n : ℕ} (h : n < 2 ^ 31) : (BitVec.ofNat 32 n).toInt = n := by
  rw [BitVec.toInt_eq_toNat_bmod, BitVec.toNat_ofNat, Int.bmod_def]
  omega

theorem timecnt_eq : timecnt (z.encode ++ trailing) = z.transitions.length :=
  (z.int32At_count trailing (i := 3) rfl).trans (toInt_ofNat z.transitions_lt)

theorem typecnt_eq : typecnt (z.encode ++ trailing) = z.types.length :=
  (z.int32At_count trailing (i := 4) rfl).trans (toInt_ofNat z.types_lt)

theorem charcnt_eq : charcnt (z.encode ++ trailing) = z.abbreviation.length :=
  (z.int32At_count trailing (i := 5) rfl).trans (toInt_ofNat z.abbreviation_lt)

/-- The moments are read as they were written. -/
theorem gmttimes_eq : gmttimes (z.encode ++ trailing) z.transitions.length =
    z.transitions.map fun tr => tr.gmttime.toInt := by
  have hmap := Records.map_at int32At (fun tr : ZoneTransition => bigEndian tr.gmttime)
    (fun tr => tr.gmttime.toInt) (fun tr => length_bigEndian tr.gmttime)
    (fun tr => int32At_bigEndian tr.gmttime) z.header z.transitions
    (z.transitions.flatMap (fun tr => [tr.typeIdx]) ++
        (z.types.flatMap ZoneType.encode ++ (z.abbreviation ++ trailing)))
  rw [← encode_append, length_header] at hmap
  exact hmap

/-- The indices are read as they were written. -/
theorem localtimeIdxs_eq : localtimeIdxs (z.encode ++ trailing) z.transitions.length =
    z.transitions.map fun tr => (tr.typeIdx.toNat : ℤ) := by
  have hmap := Records.map_at byteAt (fun tr : ZoneTransition => [tr.typeIdx])
    (fun tr => (tr.typeIdx.toNat : ℤ)) (fun _ => List.length_singleton)
    (fun tr => byteAt_append tr.typeIdx)
    (z.header ++ z.transitions.flatMap fun tr => bigEndian tr.gmttime) z.transitions
    (z.types.flatMap ZoneType.encode ++ (z.abbreviation ++ trailing))
  have hlength : (z.header ++ z.transitions.flatMap fun tr => bigEndian tr.gmttime).length =
      44 + 4 * z.transitions.length := by
    rw [List.length_append, length_header, Records.length_flatMap (w := 4)
      (fun tr : ZoneTransition => length_bigEndian tr.gmttime)]
  rw [List.append_assoc, ← encode_append, hlength] at hmap
  exact hmap

/-- The types are read as they were written. -/
theorem localtimes_eq :
    localtimes (z.encode ++ trailing) z.transitions.length z.types.length =
      z.types.map ZoneType.localtime := by
  have hmap := Records.map_at localtimeAt ZoneType.encode ZoneType.localtime
    ZoneType.length_encode localtimeAt_encode
    (z.header ++ (z.transitions.flatMap (fun tr => bigEndian tr.gmttime) ++
      z.transitions.flatMap fun tr => [tr.typeIdx])) z.types (z.abbreviation ++ trailing)
  have hlength : (z.header ++ (z.transitions.flatMap (fun tr => bigEndian tr.gmttime) ++
      z.transitions.flatMap fun tr => [tr.typeIdx])).length = 44 + 5 * z.transitions.length := by
    rw [List.length_append, List.length_append, length_header, Records.length_flatMap (w := 4)
      (fun tr : ZoneTransition => length_bigEndian tr.gmttime), Records.length_flatMap (w := 1)
      (fun tr : ZoneTransition => List.length_singleton (a := tr.typeIdx))]
    omega
  have hbytes := z.encode_append trailing
  simp only [← List.append_assoc] at hbytes hmap hlength
  rw [hlength] at hmap
  rw [hbytes]
  exact hmap

/-- The text is read as it was written. -/
theorem text_eq : ((z.encode ++ trailing).drop
    (44 + 5 * z.transitions.length + 6 * z.types.length)).take z.abbreviation.length =
      z.abbreviation := by
  have hlength := z.length_encode_append []
  have hbytes : z.encode ++ trailing = (z.header ++
      (z.transitions.flatMap (fun tr => bigEndian tr.gmttime) ++
        (z.transitions.flatMap (fun tr => [tr.typeIdx]) ++
          z.types.flatMap ZoneType.encode))) ++ (z.abbreviation ++ trailing) := by
    rw [encode_append]
    simp only [List.append_assoc]
  rw [encode_append] at hlength
  simp only [List.append_nil, List.length_append, List.length_nil, Nat.add_zero] at hlength
  rw [hbytes, List.drop_left' (by simp only [List.length_append]; omega), List.take_left]

/-- The transitions are put together as the file says. -/
theorem pushTransitions_encode (p : ℕ) :
    (pushTransitions ((z.transitions.map fun tr => tr.gmttime.toInt).zip
      (z.transitions.map fun tr => (tr.typeIdx.toNat : ℤ)))).exec
        ⟨p, { localtimes := z.types.map ZoneType.localtime }⟩ =
      (.ok (), ⟨p, { transitions := z.transitions.map z.transition
                     localtimes := z.types.map ZoneType.localtime }⟩) := by
  rw [List.zip_map', pushTransitions_eq fun i => z.offsetAt i.toNat]
  · rw [List.map_map, List.nil_append]
    rfl
  · intro x hx
    obtain ⟨tr, htr, rfl⟩ := List.mem_map.1 hx
    obtain ⟨type, hget⟩ : ∃ type, z.types[tr.typeIdx.toNat]? = some type :=
      ⟨_, List.getElem?_eq_getElem (z.typeIdx_lt tr htr)⟩
    refine ⟨type.localtime, elementAt_natCast ?_, ?_⟩
    · rw [List.getElem?_map, hget]
      rfl
    · simp only [offsetAt, Int.toNat_natCast, hget]
      rfl

end

/-- The file is read to its end without an exception, whatever follows it, and the data are those
that were written. -/
def ReadsBack (stack : Stack) (z : ZoneText) (trailing : List Byte) : Prop :=
  (readData stack (z.encode ++ trailing)).exec ⟨0, {}⟩ = (.ok (), ⟨z.encode.length, z.data⟩) ∧
    readTimeZoneFile stack (some (z.encode ++ trailing)) {} = .ok (true, z.data)

section

variable {stack : Stack} (z : ZoneText) (trailing : List Byte)

/-- Everything in front of the text is read as it was written. -/
theorem exec_readData_encode : (readData stack (z.encode ++ trailing)).exec ⟨0, {}⟩ =
    Reader.exec (do
      let abbreviation ← File.readBytes stack (z.encode ++ trailing) z.abbreviation.length
      modify fun s => { s with data := { s.data with abbreviation := abbreviation } })
      ⟨44 + 5 * z.transitions.length + 6 * z.types.length,
        { transitions := z.transitions.map z.transition
          localtimes := z.types.map ZoneType.localtime }⟩ := by
  have hlength := z.length_encode_append trailing
  have htypes : (readLocaltimes (z.encode ++ trailing) z.types.length).exec
      ⟨44 + 5 * z.transitions.length, {}⟩ =
        (.ok (), ⟨44 + 5 * z.transitions.length + 6 * z.types.length,
          { localtimes := z.types.map ZoneType.localtime }⟩) := by
    have hread : (readLocaltimes (z.encode ++ trailing) z.types.length).exec
        ⟨44 + 5 * z.transitions.length, {}⟩ = _ := readLocaltimes_ok (by omega)
    rw [← localtimes_eq z trailing]
    exact hread
  rw [readData_counts_ok (z.take_head trailing) (by omega), timecnt_eq, typecnt_eq, charcnt_eq,
    readTables_types _ _ (Int.natCast_nonneg _) (by omega)]
  simp only [Int.toNat_natCast]
  rw [Reader.exec_bind_ok htypes, gmttimes_eq, localtimeIdxs_eq,
    Reader.exec_bind_ok (z.pushTransitions_encode _)]

/-- The text fits the stack. -/
theorem readTimeZoneFile_encode (h : z.abbreviation.length ≤ stack.room) :
    z.ReadsBack stack trailing := by
  have hlength := z.length_encode_append trailing
  have hself := z.length_encode_append []
  rw [List.append_nil, List.length_nil, Nat.add_zero] at hself
  have hdata : (readData stack (z.encode ++ trailing)).exec ⟨0, {}⟩ =
      (.ok (), ⟨z.encode.length, z.data⟩) := by
    rw [exec_readData_encode, readText_ok (Int.natCast_nonneg _) (Int.ofNat_le.2 h) (by omega),
      Int.toNat_natCast, text_eq, hself]
    rfl
  refine ⟨hdata, ?_⟩
  unfold readTimeZoneFile
  simp only
  rw [hdata]

/-- The text does not fit the stack, and the process is killed. -/
theorem readTimeZoneFile_overflow (h : stack.room < z.abbreviation.length) :
    readTimeZoneFile stack (some (z.encode ++ trailing)) {} = .error .stackOverflow := by
  have hfails : (readData stack (z.encode ++ trailing)).Fails ⟨0, {}⟩ .stackOverflow := by
    unfold Reader.Fails
    rw [exec_readData_encode]
    exact (File.readBytes_overflow (Int.ofNat_lt.2 h)).bind
  obtain ⟨s, hexec, -⟩ := hfails
  unfold readTimeZoneFile
  simp only
  rw [hexec]

end

/-- **Reading a zone file inverts its encoding exactly where its text fits the stack.** -/
theorem readsBack_iff (stack : Stack) (z : ZoneText) (trailing : List Byte) :
    z.ReadsBack stack trailing ↔ z.abbreviation.length ≤ stack.room := by
  constructor
  · rintro ⟨-, hread⟩
    by_contra hroom
    rw [readTimeZoneFile_overflow z trailing (not_le.1 hroom)] at hread
    cases hread
  · exact readTimeZoneFile_encode z trailing

/-- One type, and a text of nine million bytes. -/
def longText : ZoneText where
  version := 0
  reserved := List.replicate 15 0
  isgmtcnt := 0
  isstdcnt := 0
  leapcnt := 0
  types := [⟨3600, false, 0⟩]
  transitions := []
  abbreviation := List.replicate 9000000 65
  reserved_length := List.length_replicate
  typeIdx_lt _ htr := absurd htr List.not_mem_nil
  transitions_lt := by decide
  types_lt := by decide
  abbreviation_lt := by
    rw [List.length_replicate]
    decide

/-- A complete file whose text is longer than the stack. -/
theorem longText_not_readsBack :
    readTimeZoneFile .eightMiB (some (longText.encode ++ [])) {} = .error .stackOverflow ∧
      ¬longText.ReadsBack .eightMiB [] := by
  have hlength : longText.abbreviation.length = 9000000 := List.length_replicate
  have hread : readTimeZoneFile .eightMiB (some (longText.encode ++ [])) {} =
      .error .stackOverflow :=
    readTimeZoneFile_overflow longText [] (by rw [hlength]; decide)
  refine ⟨hread, ?_⟩
  rintro ⟨-, hok⟩
  rw [hread] at hok
  cases hok

end ZoneText

end G5
