/-
**Truncated zone files.**

A file that ends too early should give a zone that is not valid, and no exception should leave the
constructor.  A number that is cut throws a text, which the `catch` clause does not name; and where
the reading is broken off by an exception that is caught, `readTimeZoneFile` returns true all the
same, so that the zone counts as valid.  The property holds where nothing is missing and the text of
the abbreviations fits the stack, and nowhere else.

The header announces three sections behind the text, which are not read: the leap seconds, of eight
bytes each, and two sections of one byte an element.

Main definitions:

* `ZoneFile.Plausible`, `ZoneFile.Whole`, `ZoneFile.Fits` — the counts and the indices of a file can
  be right, none of its sections is cut, and its text fits the stack;
* `TimeZone.Reported` — the property.

Main results:

* `TimeZone.reported_iff` — **the property holds for exactly the files that are not cut**, and whose
  text fits;
* `TimeZone.not_reported_prefix` — for no proper prefix of a well-formed file.
-/

import G5.Base.ZoneEncoding

set_option relaxedAutoImplicit false
set_option autoImplicit false

namespace G5

namespace ZoneFile

def isgmtcnt (bytes : List Byte) : ℤ := int32At bytes 20

def isstdcnt (bytes : List Byte) : ℤ := int32At bytes 24

def leapcnt (bytes : List Byte) : ℤ := int32At bytes 28

/-- No count of a complete header is negative, and the indices that are there are those of
types. -/
structure Plausible (bytes : List Byte) : Prop where
  counts : 44 ≤ bytes.length → 0 ≤ timecnt bytes ∧ 0 ≤ typecnt bytes ∧ 0 ≤ charcnt bytes ∧
    0 ≤ leapcnt bytes ∧ 0 ≤ isstdcnt bytes ∧ 0 ≤ isgmtcnt bytes
  typeIdx_lt : 44 ≤ bytes.length → ∀ i : ℕ, i < timecnt bytes →
    44 + 4 * timecnt bytes + i < bytes.length →
      byteAt bytes (44 + 4 * (timecnt bytes).toNat + i) < typecnt bytes

/-- The header is complete, and so is each section it announces. -/
def Whole (bytes : List Byte) : Prop :=
  44 ≤ bytes.length ∧
    44 + 5 * timecnt bytes + 6 * typecnt bytes + charcnt bytes +
      8 * leapcnt bytes + isstdcnt bytes + isgmtcnt bytes ≤ bytes.length

/-- The sections that are read are there. -/
theorem Whole.length_le {bytes : List Byte} (h : Plausible bytes) (hwhole : Whole bytes) :
    44 + 5 * timecnt bytes + 6 * typecnt bytes + charcnt bytes ≤ bytes.length := by
  obtain ⟨h44, hlength⟩ := hwhole
  obtain ⟨-, -, -, hleap, hstd, hgmt⟩ := h.counts h44
  generalize leapcnt bytes = l, isstdcnt bytes = s, isgmtcnt bytes = g at hleap hstd hgmt hlength
  omega

instance (bytes : List Byte) : Decidable (Whole bytes) := inferInstanceAs (Decidable (_ ∧ _))

/-- If the file begins like a zone file, its text fits the stack. -/
def Fits (stack : Stack) (bytes : List Byte) : Prop :=
  bytes.take 4 = ascii "TZif" → charcnt bytes ≤ stack.room

instance (stack : Stack) (bytes : List Byte) : Decidable (Fits stack bytes) :=
  inferInstanceAs (Decidable (_ → _))

section

variable {stack : Stack} {bytes : List Byte}

/-- A plausible zone file in which nothing is missing is read up to its text. -/
theorem exec_of_whole (h : Plausible bytes) (hwhole : Whole bytes)
    (hhead : bytes.take 4 = ascii "TZif") :
    ∃ (p : ℕ) (data : TimeZone.Data), p + charcnt bytes ≤ bytes.length ∧
      (readData stack bytes).exec ⟨0, {}⟩ = Reader.exec (do
        let abbreviation ← File.readBytes stack bytes (charcnt bytes)
        modify fun s => { s with data := { s.data with abbreviation := abbreviation } })
        ⟨p, data⟩ := by
  have h44 := hwhole.1
  have hlength := hwhole.length_le h
  obtain ⟨htime, htype, hchar, -⟩ := h.counts h44
  have hidx : ∀ i < (timecnt bytes).toNat,
      byteAt bytes (44 + 4 * (timecnt bytes).toNat + i) < (typecnt bytes).toNat := by
    intro i hi
    have hlt := h.typeIdx_lt h44 i (by omega) (by omega)
    omega
  obtain ⟨transitions, -, hexec⟩ := readTables_text (charcnt bytes) htime (by omega) hidx
  exact ⟨44 + 5 * (timecnt bytes).toNat + 6 * (typecnt bytes).toNat, _, by omega,
    (readData_counts_ok hhead h44).trans hexec⟩

end

end ZoneFile

namespace TimeZone

open ZoneFile

/-- The constructor returns, and if something is missing in the file, it returns a zone that is not
valid. -/
def Reported (stack : Stack) (bytes : List Byte) : Prop :=
  ∃ zone, ofFile stack (some bytes) = .ok zone ∧ (¬Whole bytes → zone.valid = false)

section

variable {stack : Stack} {bytes : List Byte}

/-- Whatever the constructor returns is valid. -/
theorem not_reported (h : ¬Whole bytes) : ¬Reported stack bytes := by
  rintro ⟨zone, hzone, hvalid⟩
  have hnot := hvalid h
  rw [valid_of_ofFile hzone] at hnot
  cases hnot

/-- The text does not fit, and the constructor does not return. -/
theorem not_reported_overflow (h : Plausible bytes) (hwhole : Whole bytes)
    (hfits : ¬Fits stack bytes) : ¬Reported stack bytes := by
  obtain ⟨hhead, hroom⟩ := Classical.not_imp.1 hfits
  obtain ⟨p, data, -, hexec⟩ := exec_of_whole h hwhole hhead
  have hfails : ∃ s, (readData stack bytes).exec ⟨0, {}⟩ = (.error .stackOverflow, s) := by
    obtain ⟨s, hread, -⟩ := (File.readBytes_overflow (not_le.1 hroom)).bind
    exact ⟨s, hexec.trans hread⟩
  obtain ⟨s, hread⟩ := hfails
  rintro ⟨zone, hzone, -⟩
  rw [ofFile_thrown (fun _ => by simp) hread] at hzone
  cases hzone

/-- Nothing is missing and the text fits: the file is read to its end, or is not a zone file. -/
theorem reported_of_whole (h : Plausible bytes) (hwhole : Whole bytes)
    (hfits : Fits stack bytes) : Reported stack bytes := by
  by_cases hhead : bytes.take 4 = ascii "TZif"
  · obtain ⟨p, data, hlength, hexec⟩ := exec_of_whole h hwhole hhead
    obtain ⟨-, -, hchar, -⟩ := h.counts hwhole.1
    rw [readText_ok hchar (hfits hhead) hlength] at hexec
    exact ⟨_, ofFile_ok hexec, fun hnot => absurd hwhole hnot⟩
  · obtain ⟨what, s, hexec, -⟩ :=
      readData_head_fails fun hboth => hhead hboth.1
    exact ⟨_, ofFile_logicError hexec, fun hnot => absurd hwhole hnot⟩

/-- **Truncated files are reported exactly where nothing is missing and the text fits the
stack.** -/
theorem reported_iff (h : Plausible bytes) :
    Reported stack bytes ↔ Whole bytes ∧ Fits stack bytes := by
  constructor
  · intro hreported
    have hwhole : Whole bytes := by
      by_contra hnot
      exact not_reported hnot hreported
    refine ⟨hwhole, ?_⟩
    by_contra hnot
    exact not_reported_overflow h hwhole hnot hreported
  · rintro ⟨hwhole, hfits⟩
    exact reported_of_whole h hwhole hfits

/-- Two types and two transitions, a leap second, and the two sections of one byte a type. -/
def summerTimeText : ZoneText where
  version := 0
  reserved := List.replicate 15 32
  isgmtcnt := 2
  isstdcnt := 2
  leapcnt := 1
  types := [⟨3600, false, 0⟩, ⟨7200, true, 4⟩]
  transitions := [⟨1711846800, 1⟩, ⟨1729990800, 0⟩]
  abbreviation := ascii "CET" ++ 0 :: ascii "CEST" ++ [0]
  reserved_length := List.length_replicate
  typeIdx_lt := by decide
  transitions_lt := by decide
  types_lt := by decide
  abbreviation_lt := by decide

def summerTimeFile : List Byte := summerTimeText.encode ++ List.replicate 12 0

theorem reported_iff_demo : Plausible summerTimeFile ∧ Whole summerTimeFile ∧
    Fits .eightMiB summerTimeFile ∧ Reported .eightMiB summerTimeFile := by
  have hwhole : Whole summerTimeFile := by decide +kernel
  have hfits : Fits .eightMiB summerTimeFile := by decide +kernel
  have hcounts : Plausible summerTimeFile := by
    refine ⟨fun _ => by decide +kernel, fun _ i hi _ => ?_⟩
    have htime : timecnt summerTimeFile = 2 := by decide +kernel
    rw [htime] at hi
    have hi' : i = 0 ∨ i = 1 := by omega
    rcases hi' with rfl | rfl
    · decide +kernel
    · decide +kernel
  exact ⟨hcounts, hwhole, hfits, (reported_iff hcounts).2 ⟨hwhole, hfits⟩⟩

/-- A header with counts of zero. -/
def emptyZoneFile : List Byte := ascii "TZif" ++ List.replicate 40 0

/-- A file cut in its header lets an exception out, and one cut in front of its counts gives a
valid zone. -/
theorem exists_not_reported :
    Plausible (emptyZoneFile.take 22) ∧
    ofFile .eightMiB (some (emptyZoneFile.take 22)) = .error (.text "bad int32_t data") ∧
    ¬Reported .eightMiB (emptyZoneFile.take 22) ∧
    (∃ zone, ofFile .eightMiB (some (emptyZoneFile.take 10)) = .ok zone ∧ zone.valid = true) ∧
    ¬Reported .eightMiB (emptyZoneFile.take 10) := by
  refine ⟨⟨fun h => absurd h (by decide), fun h => absurd h (by decide)⟩, ?_,
    not_reported (by decide), ⟨⟨some {}⟩, ?_, rfl⟩, not_reported (by decide)⟩
  · decide +kernel
  · decide +kernel

/-- **No proper prefix of a well-formed file is reported**: of an encoding with the sections that
its header announces behind it. -/
theorem not_reported_prefix (z : ZoneText) {sections : List Byte}
    (hsections : (sections.length : ℤ) =
      8 * z.leapcnt.toInt + z.isstdcnt.toInt + z.isgmtcnt.toInt)
    (hcut : bytes <+: z.encode ++ sections)
    (hne : bytes.length < (z.encode ++ sections).length) : ¬Reported stack bytes := by
  refine not_reported ?_
  rintro ⟨h44, hlength⟩
  obtain ⟨rest, hrest⟩ := hcut
  -- the counts are those of the whole file
  have hcount : ∀ pos, pos + 4 ≤ 44 →
      int32At bytes pos = int32At (z.encode ++ sections) pos := by
    intro pos hpos
    rw [← hrest, int32At, int32At, List.drop_append_of_le_length (by omega),
      List.take_append_of_le_length (by rw [List.length_drop]; omega)]
  have hself := z.length_encode_append sections
  have htime : timecnt bytes = z.transitions.length :=
    (hcount 32 (by omega)).trans (z.timecnt_eq sections)
  have htype : typecnt bytes = z.types.length :=
    (hcount 36 (by omega)).trans (z.typecnt_eq sections)
  have hchar : charcnt bytes = z.abbreviation.length :=
    (hcount 40 (by omega)).trans (z.charcnt_eq sections)
  have hgmt : isgmtcnt bytes = z.isgmtcnt.toInt :=
    (hcount 20 (by omega)).trans (z.int32At_count sections (i := 0) rfl)
  have hstd : isstdcnt bytes = z.isstdcnt.toInt :=
    (hcount 24 (by omega)).trans (z.int32At_count sections (i := 1) rfl)
  have hleap : leapcnt bytes = z.leapcnt.toInt :=
    (hcount 28 (by omega)).trans (z.int32At_count sections (i := 2) rfl)
  rw [htime, htype, hchar, hgmt, hstd, hleap] at hlength
  generalize z.leapcnt.toInt = l, z.isstdcnt.toInt = s, z.isgmtcnt.toInt = g at *
  omega

end

end TimeZone

end G5
