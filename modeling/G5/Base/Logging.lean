/-
**Log records** (`src/base/Logging.cc`).

A statement makes a `Logger`: the constructor inserts the time into its stream, the statement
inserts the message, and the destructor the location and a newline, before it hands the block to
`output`.  The destructor does not look at the room that is left.

Main definitions:

* `Logger`, `Logger.new`, `Logger.insertAll`, `Logger.delete` — the life of a logger;
* `Logger.record` — the block that is handed to `output`;
* `Terminated` — the destructor has added the location, and a newline behind it.

Main results:

* `Logger.kept_suffix_iff` — when the five pieces of the destructor are all kept;
* `Logger.terminated_iff` — **when a record is terminated**, which depends on the fill level and
  on the length of the file name only.
-/

import G5.Base.LogStream

set_option relaxedAutoImplicit false
set_option autoImplicit false

namespace G5

/-- The stream of a logger, and where it stands in the program. -/
structure Logger where
  stream : LogBuffer
  line : IntegerType.int.Value
  basename : List Byte

namespace Logger

/-- `str_t` is the array that `strftime` has filled. -/
def formatTime (stream : LogBuffer) (str_t : List Byte) : Checked LogBuffer :=
  stream.insert (.cString (some str_t))

/-- The constructor, with the array of the stream, and the file name as a C string. -/
def new (data filename : List Byte) (line : IntegerType.int.Value) (str_t : List Byte) :
    Checked Logger := do
  let stream ← formatTime (LogBuffer.new data) str_t
  return ⟨stream, line, filename.takeWhile (· ≠ 0)⟩

/-- The insertions of the statement. -/
def insertAll (l : Logger) (ps : List Piece) : Checked Logger := do
  let stream ← l.stream.insertAll ps
  return { l with stream := stream }

/-- What the destructor inserts. -/
def suffix (basename : List Byte) (line : IntegerType.int.Value) : List Piece :=
  [.cString (some (ascii " -- ")), .string basename, .cString (some (ascii ":")),
    .integer .int line, .char 10]

/-- The destructor, with the block that it hands to `output`. -/
def delete (l : Logger) : Checked (List Byte) := do
  let stream ← l.stream.insertAll (suffix l.basename l.line)
  return stream.data.take stream.length.toNat

/-- The block of one statement. -/
def record (data filename : List Byte) (line : IntegerType.int.Value) (str_t : List Byte)
    (ps : List Piece) : Checked (List Byte) := do
  let l ← new data filename line str_t
  let l ← l.insertAll ps
  l.delete

/-- The pieces before those of the destructor: the time and the message. -/
def message (str_t : List Byte) (ps : List Piece) : List Piece := .cString (some str_t) :: ps

/-- The text in the stream when the destructor is called. -/
def filled (str_t : List Byte) (ps : List Piece) : List Byte :=
  (kept 0 (message str_t ps)).flatMap Piece.text

/-- ` -- file:line` -/
def location (basename : List Byte) (line : IntegerType.int.Value) : List Byte :=
  ascii " -- " ++ (basename ++ (ascii ":" ++ decimal line.val))

/-- Behind what was there before, the location and a newline at the end have been added. -/
def Terminated (before loc block : List Byte) : Prop :=
  ∃ added, block = before ++ added ∧ loc <:+: added ∧ added.getLast? = some 10

section

variable {basename before block str_t : List Byte} {line : IntegerType.int.Value}
  {ps : List Piece}

/-- Then the block ends with the newline, and the location is in it. -/
theorem Terminated.ends {loc : List Byte} (h : Terminated before loc block) :
    block.getLast? = some 10 ∧ loc <:+: block := by
  obtain ⟨added, rfl, hloc, hlast⟩ := h
  constructor
  · rw [List.getLast?_append, hlast, Option.some_or]
  · exact hloc.trans (List.suffix_append before added).isInfix

theorem text_suffix :
    (suffix basename line).flatMap Piece.text = location basename line ++ [10] := by
  have hdashes : (ascii " -- ").takeWhile (· ≠ 0) = ascii " -- " := by decide
  have hcolon : (ascii ":").takeWhile (· ≠ 0) = ascii ":" := by decide
  simp only [suffix, location, List.flatMap_cons, List.flatMap_nil, Piece.text, hdashes, hcolon,
    List.append_assoc, List.append_nil]

/-- The location ends with a digit. -/
theorem getLast?_location : (location basename line).getLast? ≠ some 10 := by
  have hdigits : (location basename line).getLast? =
      some (UInt8.ofNat (48 + line.val.natAbs % 10)) := by
    rw [location, decimal_sign, decimal_succ]
    simp only [← List.append_assoc, List.getLast?_concat]
  have hlt : line.val.natAbs % 10 < 10 := Nat.mod_lt _ (by decide)
  rw [hdigits]
  generalize line.val.natAbs % 10 = d at hlt
  interval_cases d <;> decide

/-- **The pieces of the destructor are all kept** if the number fits, which needs more than what
comes behind it. -/
theorem kept_suffix_iff {used : ℕ} : kept used (suffix basename line) = suffix basename line ↔
    used + 4 + basename.length + 1 + kMaxNumericSize ≤ kSmallBuffer := by
  have hline := length_decimal_value line
  have hsize : kSmallBuffer = 4000 := rfl
  have hmax : kMaxNumericSize = 32 := rfl
  have hdashes : (Piece.cString (some (ascii " -- "))).text.length = 4 := by decide
  have hname : (Piece.string basename).text.length = basename.length := rfl
  have hcolon : (Piece.cString (some (ascii ":"))).text.length = 1 := by decide
  have hnumber : (Piece.integer .int line).text.length = (decimal line.val).length := rfl
  have hneed : (Piece.cString (some (ascii " -- "))).need = 5 := by decide
  have hneed₁ : (Piece.string basename).need = basename.length + 1 := rfl
  have hneed₂ : (Piece.cString (some (ascii ":"))).need = 2 := by decide
  have hneed₃ : (Piece.integer .int line).need = 32 := rfl
  have hneed₄ : (Piece.char 10).need = 2 := rfl
  rw [suffix]
  simp only [LogBuffer.kept_cons_eq_self, hdashes, hname, hcolon, hnumber, hneed, hneed₁, hneed₂,
    hneed₃, hneed₄]
  constructor
  · rintro ⟨-, -, -, hnum, -⟩
    omega
  · intro hroom
    exact ⟨by omega, by omega, by omega, by omega, by omega, rfl⟩

/-- What the destructor inserts is admissible. -/
theorem admissible_suffix (hname : basename.length < 2 ^ 31) :
    ∀ p ∈ suffix basename line, p.Admissible := by
  intro p hp
  simp only [suffix, List.mem_cons, List.not_mem_nil, or_false] at hp
  rcases hp with rfl | rfl | rfl | rfl | rfl
  · exact ⟨by decide, nofun⟩
  · exact ⟨hname, nofun⟩
  · exact ⟨by decide, nofun⟩
  · exact ⟨Nat.lt_of_le_of_lt (length_decimal_value line) (show 20 < 2 ^ 31 by decide), nofun⟩
  · exact ⟨by decide, nofun⟩

/-- What the destructor leaves, behind what the stream was filled with. -/
theorem delete_eq {l : Logger} (h : l.stream.WellFormed) (hname : l.basename.length < 2 ^ 31) :
    l.delete = .ok (l.stream.content ++
      (kept l.stream.cur (suffix l.basename l.line)).flatMap Piece.text) := by
  obtain ⟨stream, hstream, hwf, hcontent⟩ := LogBuffer.insertAll_spec h (admissible_suffix hname)
  have hcur := hwf.length_eq
  rw [delete, hstream, ok_bind, hcur, Int.toNat_natCast, ← hcontent]
  rfl

/-- The stream when the destructor is called. -/
theorem exists_filled {data : List Byte} (hdata : data.length = kSmallBuffer)
    (hstamp : str_t.length = 26) (hps : ∀ p ∈ ps, p.Admissible) :
    ∃ stream, (LogBuffer.new data).insertAll (message str_t ps) = .ok stream ∧
      stream.WellFormed ∧ stream.content = filled str_t ps := by
  have htime : (Piece.cString (some str_t)).Admissible := by
    have hle : (str_t.takeWhile (· ≠ 0)).length ≤ str_t.length :=
      (List.takeWhile_sublist _).length_le
    refine ⟨?_, nofun⟩
    rw [Piece.text]
    omega
  have hall : ∀ p ∈ message str_t ps, p.Admissible := by
    intro p hp
    rcases List.mem_cons.1 hp with rfl | hp
    · exact htime
    · exact hps p hp
  obtain ⟨stream, hstream, hwf, hcontent⟩ :=
    LogBuffer.insertAll_spec (LogBuffer.wellFormed_new hdata) hall
  rw [LogBuffer.content_new, List.nil_append] at hcontent
  exact ⟨stream, hstream, hwf, hcontent⟩

/-- The block of a statement: what was inserted before, which leaves a character free, and the
pieces of the destructor that are kept. -/
theorem record_eq {data filename : List Byte} (hdata : data.length = kSmallBuffer)
    (hstamp : str_t.length = 26) (hname : (filename.takeWhile (· ≠ 0)).length < 2 ^ 31)
    (hps : ∀ p ∈ ps, p.Admissible) :
    (filled str_t ps).length < kSmallBuffer ∧
      record data filename line str_t ps = .ok (filled str_t ps ++
        (kept (filled str_t ps).length (suffix (filename.takeWhile (· ≠ 0)) line)).flatMap
          Piece.text) := by
  obtain ⟨stream, hstream, hwf, hcontent⟩ := exists_filled hdata hstamp hps
  obtain ⟨first, hfirst, hrest⟩ := bind_eq_ok.1 hstream
  rw [← hcontent, hwf.length_content]
  refine ⟨hwf.cur_lt, ?_⟩
  rw [record, new, formatTime, hfirst, ok_bind, pure_eq_ok, ok_bind, insertAll, hrest, ok_bind,
    pure_eq_ok, ok_bind, delete_eq hwf hname]

/-- With a piece dropped, the rest is too short for the location and a newline behind it. -/
theorem not_terminated_of_dropped {used : ℕ} (hused : used < kSmallBuffer)
    (hname : basename.length < 2 ^ 31)
    (hne : kept used (suffix basename line) ≠ suffix basename line) :
    ¬Terminated before (location basename line)
      (before ++ (kept used (suffix basename line)).flatMap Piece.text) := by
  rintro ⟨added, heq, hin, hlast⟩
  have hnumeric : ∀ q ∈ suffix basename line, q.numeric = true → q.text ≠ [] := by
    intro q hq hnum
    simp only [suffix, List.mem_cons, List.not_mem_nil, or_false] at hq
    rcases hq with rfl | rfl | rfl | rfl | rfl
    · cases hnum
    · cases hnum
    · cases hnum
    · rw [Piece.text, decimal_sign, decimal_succ]
      simp
    · cases hnum
  have hlt := LogBuffer.length_kept_lt (admissible_suffix hname) hnumeric hused hne
  rw [List.append_cancel_left heq, text_suffix, List.length_append, List.length_singleton] at hlt
  -- there is no room behind the location, which ends with a digit
  have hloc : location basename line = added := hin.eq_of_length_le (by omega)
  rw [← hloc] at hlast
  exact getLast?_location hlast

/-- **A record is terminated** if and only if the location fits behind what was inserted before,
its number with the room that a number asks for; then the block ends with the newline, and the
location is in it. -/
theorem terminated_iff {data filename : List Byte} (hdata : data.length = kSmallBuffer)
    (hstamp : str_t.length = 26) (hname : (filename.takeWhile (· ≠ 0)).length < 1000)
    (hps : ∀ p ∈ ps, p.Admissible) :
    ∃ block, record data filename line str_t ps = .ok block ∧
      (Terminated (filled str_t ps) (location (filename.takeWhile (· ≠ 0)) line) block ↔
        (filled str_t ps).length + 4 + (filename.takeWhile (· ≠ 0)).length + 1 +
          kMaxNumericSize ≤ kSmallBuffer) ∧
      (Terminated (filled str_t ps) (location (filename.takeWhile (· ≠ 0)) line) block →
        block.getLast? = some 10 ∧ location (filename.takeWhile (· ≠ 0)) line <:+: block) := by
  have hlong : (filename.takeWhile (· ≠ 0)).length < 2 ^ 31 := by omega
  obtain ⟨hlt, hblock⟩ := record_eq hdata hstamp hlong hps
  refine ⟨_, hblock, ?_, Terminated.ends⟩
  generalize filename.takeWhile (· ≠ 0) = basename at hname
  rw [← kept_suffix_iff]
  constructor
  · intro hterm
    by_contra hne
    exact not_terminated_of_dropped hlt (by omega) hne hterm
  · intro hkept
    refine ⟨location basename line ++ [10], ?_, ?_, ?_⟩
    · rw [hkept, text_suffix]
    · exact (List.prefix_append _ _).isInfix
    · exact List.getLast?_concat
/-- A short message. -/
theorem terminated_iff_demo :
    ∃ block, record (List.replicate 4000 0) (ascii "main.cc") ⟨7, by decide, by decide⟩
        (ascii "2024-01-01 00:00:00\n" ++ List.replicate 6 0) [.string (ascii "up")] =
          .ok block ∧
      (Terminated (filled (ascii "2024-01-01 00:00:00\n" ++ List.replicate 6 0)
          [.string (ascii "up")])
          (location ((ascii "main.cc").takeWhile (· ≠ 0)) ⟨7, by decide, by decide⟩) block ↔
        (filled (ascii "2024-01-01 00:00:00\n" ++ List.replicate 6 0)
          [.string (ascii "up")]).length + 4 + ((ascii "main.cc").takeWhile (· ≠ 0)).length + 1 +
            kMaxNumericSize ≤ kSmallBuffer) ∧
      (Terminated (filled (ascii "2024-01-01 00:00:00\n" ++ List.replicate 6 0)
          [.string (ascii "up")])
          (location ((ascii "main.cc").takeWhile (· ≠ 0)) ⟨7, by decide, by decide⟩) block →
        block.getLast? = some 10 ∧
          location ((ascii "main.cc").takeWhile (· ≠ 0)) ⟨7, by decide, by decide⟩ <:+: block) := by
  refine terminated_iff List.length_replicate (by decide) (by decide) ?_
  intro p hp
  rw [List.mem_singleton] at hp
  subst hp
  exact ⟨by decide, nofun⟩

/-- A message that leaves one character: nothing of the destructor is kept. -/
theorem exists_not_terminated : ∃ (data filename str_t block : List Byte)
    (line : IntegerType.int.Value) (ps : List Piece), data.length = kSmallBuffer ∧
      str_t.length = 26 ∧ filename.length < 1000 ∧ (∀ p ∈ ps, p.Admissible) ∧
      record data filename line str_t ps = .ok block ∧ block.getLast? ≠ some 10 ∧
      ¬location filename line <:+: block := by
  let str_t := ascii "2024-01-01 00:00:00\n" ++ List.replicate 6 0
  let text := List.replicate 3979 (120 : Byte)
  let line : IntegerType.int.Value := ⟨7, by decide, by decide⟩
  have hlen : text.length = 3979 := List.length_replicate
  have hsize : kSmallBuffer = 4000 := rfl
  have hps : ∀ p ∈ [Piece.string text], p.Admissible := by
    intro p hp
    rw [List.mem_singleton] at hp
    subst hp
    exact ⟨show text.length < 2 ^ 31 by omega, nofun⟩
  have hstamp : (Piece.cString (some str_t)).text = ascii "2024-01-01 00:00:00\n" := by decide
  have hneed : (Piece.cString (some str_t)).need = 21 := by decide
  have hneed' : (Piece.string text).need = text.length + 1 := rfl
  have hall : kept 0 (message str_t [.string text]) = message str_t [.string text] := by
    rw [message, LogBuffer.kept_cons_eq_self, LogBuffer.kept_cons_eq_self, hneed, hneed', hstamp]
    exact ⟨by omega, show 20 + (text.length + 1) ≤ 4000 by omega, rfl⟩
  have hfilled : filled str_t [.string text] = ascii "2024-01-01 00:00:00\n" ++ text := by
    rw [filled, hall, message, List.flatMap_cons, List.flatMap_singleton, hstamp]
    rfl
  have hfull : (filled str_t [.string text]).length = 3999 := by
    rw [hfilled, List.length_append, hlen]
    rfl
  have hnone : kept 3999 (suffix (ascii "main.cc") line) = [] := by decide
  have hbase : (ascii "main.cc").takeWhile (· ≠ 0) = ascii "main.cc" := by decide
  have hrecord : _ ∧ record (List.replicate 4000 0) (ascii "main.cc") line str_t
      [.string text] = _ :=
    record_eq List.length_replicate (by decide) (by decide) hps
  rw [hfull, hbase, hnone, hfilled, List.flatMap_nil, List.append_nil] at hrecord
  refine ⟨_, _, _, _, line, _, List.length_replicate, ?_, ?_, hps, hrecord.2, ?_, ?_⟩
  · decide
  · decide
  · rw [List.getLast?_append, List.getLast?_replicate]
    decide
  · -- the letter `m` is in the location only
    intro hin
    have hm : 109 ∈ location (ascii "main.cc") line := by decide
    rcases List.mem_append.1 (hin.subset hm) with hm | hm
    · exact absurd hm (by decide)
    · exact absurd (List.eq_of_mem_replicate hm) (by decide)

end

end Logger

end G5
