/-
**Log streams** (`src/base/LogStream.h`, `LogStream.cc`).

A stream writes into an array of four thousand characters.  A text is copied behind the cursor if
more characters are left than it has.  A number is formatted there in place, before the cursor is
moved, if at least thirty-two are left.  Every write to the array is checked here: one outside it
would be an error.

Main definitions:

* `LogBuffer` — `FixedBuffer<kSmallBuffer>` with its memory, and its functions;
* `Piece`, `LogBuffer.insert`, `LogBuffer.insertAll` — what is inserted, and the insertions;
* `kept` — the pieces that are present in the end, by their lengths alone.

Main results:

* `LogBuffer.append_fixed` — a text is appended as to a fixed buffer without memory;
* `LogBuffer.insert_spec` — one insertion: the piece is there whole, or not at all;
* `LogBuffer.insertAll_spec` — **every run of insertions** stays in the array, below its end, and
  leaves the pieces that are kept.
-/

import G5.Base.Convert
import G5.Base.FixedBuffer
import Mathlib.Data.List.Flatten

set_option relaxedAutoImplicit false
set_option autoImplicit false

namespace G5

open Region

def kSmallBuffer : ℕ := 4000

/-! ### The buffer and its functions -/

/-- The memory, and the cursor, which is counted from its beginning. -/
structure LogBuffer where
  data : List Byte
  cur : ℕ
  deriving DecidableEq, Repr

namespace LogBuffer

/-- The constructor: the array is not initialized. -/
def new (data : List Byte) : LogBuffer := ⟨data, 0⟩

def length (b : LogBuffer) : ℤ := toInt32 b.cur

def avail (b : LogBuffer) : ℤ := toInt32 (kSmallBuffer - b.cur)

/-- `memcpy` to the cursor. -/
def write (b : LogBuffer) (buf : List Byte) : Checked (List Byte) :=
  if b.cur + buf.length ≤ b.data.length then .ok (overwrite b.data b.cur buf)
  else .error .outOfBounds

def add (b : LogBuffer) (len : ℕ) : LogBuffer := { b with cur := b.cur + len }

/-- The length is converted to `int` for the comparison. -/
def append (b : LogBuffer) (buf : List Byte) : Checked LogBuffer :=
  if toInt32 buf.length < b.avail then do
    let data ← b.write buf
    return { b with data := data }.add buf.length
  else
    return b

def formatInteger {T : IntegerType} (b : LogBuffer) (v : T.Value) : Checked LogBuffer :=
  if kMaxNumericSize ≤ b.avail then do
    let (data, len) ← convert b.data b.cur v
    return { b with data := data }.add len
  else
    return b

/-- `snprintf` cuts the text off in front of a null character, and returns its full length. -/
def formatDouble (b : LogBuffer) (text : List Byte) : Checked LogBuffer :=
  if kMaxNumericSize ≤ b.avail then do
    let data ← b.write (text.take (kMaxNumericSize - 1) ++ [0])
    return { b with data := data }.add text.length
  else
    return b

end LogBuffer

/-! ### The insertions -/

/-- What is inserted by an `operator<<`.  A C string is the memory from its pointer on, unless this
is null; a floating number is the text that its format prints. -/
inductive Piece
  | bool (v : Bool)
  | char (v : Byte)
  | cString (str : Option (List Byte))
  | string (v : List Byte)
  | integer (T : IntegerType) (v : T.Value)
  | floating (text : List Byte)

namespace Piece

def text : Piece → List Byte
  | .bool v => if v then ascii "1" else ascii "0"
  | .char v => [v]
  | .cString none => ascii "(null)"
  | .cString (some str) => str.takeWhile (· ≠ 0)
  | .string v => v
  | .integer _ v => decimal v.val
  | .floating text => text

def numeric : Piece → Bool
  | .integer _ _ | .floating _ => true
  | .bool _ | .char _ | .cString _ | .string _ => false

/-- The room a piece asks for: thirty-two characters for a number, and one more than it has for a
text. -/
def need (p : Piece) : ℕ := if p.numeric then kMaxNumericSize else p.text.length + 1

/-- Whether a piece is accepted: the two thresholds of the source. -/
def Fits (p : Piece) (avail : ℤ) : Prop :=
  if p.numeric then kMaxNumericSize ≤ avail else p.text.length < avail

instance (p : Piece) (avail : ℤ) : Decidable (p.Fits avail) :=
  inferInstanceAs (Decidable (if p.numeric then _ else _))

theorem fits_iff {p : Piece} {avail : ℤ} : p.Fits avail ↔ p.need ≤ avail := by
  rw [Fits, need]
  split_ifs
  · exact Iff.rfl
  · constructor
    · intro hlt
      omega
    · intro hle
      omega

/-- A string is shorter than 2³¹, and a floating number prints in fewer than thirty-two
characters. -/
structure Admissible (p : Piece) : Prop where
  text_lt : p.text.length < 2 ^ 31
  floating_lt : ∀ text, p = .floating text → text.length < kMaxNumericSize

/-- A number leaves room for the null character, and a text for one more. -/
theorem Admissible.text_lt_need {p : Piece} (h : p.Admissible) : p.text.length < p.need := by
  cases p with
  | integer T v => exact Nat.lt_of_le_of_lt (length_decimal_value v) (show 20 < 32 by decide)
  | floating text => exact h.floating_lt text rfl
  | bool v => exact Nat.lt_succ_self _
  | char v => exact Nat.lt_succ_self _
  | cString str => exact Nat.lt_succ_self _
  | string v => exact Nat.lt_succ_self _

end Piece

/-- The pieces that are present in the end, where `used` characters are used in the beginning. -/
def kept : ℕ → List Piece → List Piece
  | _, [] => []
  | used, p :: ps =>
      if used + p.need ≤ kSmallBuffer then p :: kept (used + p.text.length) ps else kept used ps

namespace LogBuffer

/-- `operator<<`. -/
def insert (b : LogBuffer) : Piece → Checked LogBuffer
  | .bool v => b.append (if v then ascii "1" else ascii "0")
  | .char v => b.append [v]
  | .cString none => b.append (ascii "(null)")
  | .cString (some str) => b.append (str.takeWhile (· ≠ 0))
  | .string v => b.append v
  | .integer _ v => b.formatInteger v.widen
  | .floating text => b.formatDouble text

/-- One insertion after the other. -/
def insertAll (b : LogBuffer) : List Piece → Checked LogBuffer
  | [] => .ok b
  | p :: ps => do
      let b ← b.insert p
      b.insertAll ps

/-- What stands before the cursor. -/
def content (b : LogBuffer) : List Byte := b.data.take b.cur

/-- The buffer without its memory. -/
def fixed (b : LogBuffer) : FixedBuffer kSmallBuffer := ⟨b.content⟩

/-- The cursor is in front of the last character of the array, or at it. -/
structure WellFormed (b : LogBuffer) : Prop where
  size_eq : b.data.length = kSmallBuffer
  cur_lt : b.cur < kSmallBuffer

/-! ### One insertion -/

section

variable {b b' : LogBuffer} {p : Piece} {ps : List Piece} {buf : List Byte}

theorem wellFormed_new {data : List Byte} (h : data.length = kSmallBuffer) :
    (new data).WellFormed := ⟨h, show 0 < kSmallBuffer by decide⟩

theorem content_new (data : List Byte) : (new data).content = [] := rfl

theorem WellFormed.length_eq (h : b.WellFormed) : b.length = b.cur := by
  have hcur := h.cur_lt
  have hsize : kSmallBuffer = 4000 := rfl
  exact toInt32_eq (by omega) (by omega)

theorem WellFormed.avail_eq (h : b.WellFormed) : b.avail = kSmallBuffer - b.cur := by
  have hcur := h.cur_lt
  have hsize : kSmallBuffer = 4000 := rfl
  exact toInt32_eq (by omega) (by omega)

theorem WellFormed.length_content (h : b.WellFormed) : b.content.length = b.cur := by
  rw [content, List.length_take, h.size_eq]
  exact Nat.min_eq_left (le_of_lt h.cur_lt)

/-- The cursor is moved over the first of the characters that have been written. -/
theorem WellFormed.advance (h : b.WellFormed) (buf rest : List Byte)
    (hroom : b.cur + buf.length < kSmallBuffer)
    (hfit : b.cur + (buf ++ rest).length ≤ kSmallBuffer) :
    WellFormed ⟨overwrite b.data b.cur (buf ++ rest), b.cur + buf.length⟩ ∧
      content ⟨overwrite b.data b.cur (buf ++ rest), b.cur + buf.length⟩ = b.content ++ buf := by
  have hsize := h.size_eq
  have htake : (b.data.take b.cur ++ buf).length = b.cur + buf.length := by
    have hcur := h.length_content
    rw [content] at hcur
    rw [List.length_append, hcur]
  refine ⟨⟨?_, hroom⟩, ?_⟩
  · rw [length_overwrite (by omega), hsize]
  · have hsplit : overwrite b.data b.cur (buf ++ rest) = (b.data.take b.cur ++ buf) ++
        (rest ++ b.data.drop (b.cur + (buf ++ rest).length)) := by
      rw [overwrite]
      simp only [List.append_assoc]
    rw [content, hsplit, List.take_left' htake, content]

theorem append_of_lt (h : b.WellFormed) (hlen : buf.length < 2 ^ 31)
    (hroom : b.cur + buf.length < kSmallBuffer) :
    ∃ b', b.append buf = .ok b' ∧ b'.WellFormed ∧ b'.content = b.content ++ buf ∧
      b'.cur = b.cur + buf.length := by
  have hsize := h.size_eq
  have hfit : b.cur + (buf ++ []).length ≤ kSmallBuffer := by
    rw [List.append_nil]
    omega
  obtain ⟨hwf, hcontent⟩ := h.advance buf [] hroom hfit
  rw [List.append_nil] at hwf hcontent
  refine ⟨_, ?_, hwf, hcontent, rfl⟩
  rw [append, h.avail_eq, toInt32_eq (by omega) (by omega), if_pos (by omega), write,
    if_pos (by omega)]
  rfl

theorem append_of_ge (h : b.WellFormed) (hlen : buf.length < 2 ^ 31)
    (hroom : ¬b.cur + buf.length < kSmallBuffer) : b.append buf = .ok b := by
  rw [append, h.avail_eq, toInt32_eq (by omega) (by omega), if_neg (by omega)]
  rfl

/-- **A text is appended as to a fixed buffer** without memory. -/
theorem append_fixed (h : b.WellFormed) (hlen : buf.length < 2 ^ 31) :
    ∃ b', b.append buf = .ok b' ∧ b'.WellFormed ∧ b'.fixed = b.fixed.append buf := by
  have havail : b.fixed.avail = b.avail := by
    rw [FixedBuffer.avail, FixedBuffer.length, fixed, h.length_content]
    rfl
  have hint : toInt32 buf.length = buf.length := toInt32_eq (by omega) (by omega)
  rw [FixedBuffer.append, havail, h.avail_eq, hint]
  by_cases hroom : b.cur + buf.length < kSmallBuffer
  · obtain ⟨b', hb', hwf, hcontent, -⟩ := append_of_lt h hlen hroom
    refine ⟨b', hb', hwf, ?_⟩
    rw [if_pos (by omega), fixed, hcontent]
    rfl
  · refine ⟨b, append_of_ge h hlen hroom, h, ?_⟩
    rw [if_neg (by omega)]

/-- What an insertion leaves, if the piece `p` is there or not. -/
def Inserts (b : LogBuffer) (p : Piece) (result : Checked LogBuffer) : Prop :=
  ∃ b', result = .ok b' ∧ b'.WellFormed ∧
    (b.cur + p.need ≤ kSmallBuffer → b'.content = b.content ++ p.text ∧
      b'.cur = b.cur + p.text.length) ∧
    (¬b.cur + p.need ≤ kSmallBuffer → b' = b)

/-- A text. -/
theorem inserts_text (h : b.WellFormed) (hnumeric : p.numeric = false)
    (hp : p.Admissible) : Inserts b p (b.append p.text) := by
  have hneed : p.need = p.text.length + 1 := by
    rw [Piece.need, if_neg (by rw [hnumeric]; decide)]
  by_cases hroom : b.cur + p.text.length < kSmallBuffer
  · obtain ⟨b', hb', hwf, hcontent, hcur⟩ := append_of_lt h hp.text_lt hroom
    exact ⟨b', hb', hwf, fun _ => ⟨hcontent, hcur⟩, fun hnot => absurd hroom (by omega)⟩
  · exact ⟨b, append_of_ge h hp.text_lt hroom, h, fun hfit => absurd hfit (by omega),
      fun _ => rfl⟩

/-- A number, written in front of a null character where there is room for any. -/
theorem inserts_numeric (h : b.WellFormed) (hp : p.Admissible) (hneed : p.need = 32)
    {result : Checked LogBuffer}
    (hwrite : b.cur + 32 ≤ kSmallBuffer → result =
      .ok ⟨overwrite b.data b.cur (p.text ++ [0]), b.cur + p.text.length⟩)
    (hskip : ¬b.cur + 32 ≤ kSmallBuffer → result = .ok b) : Inserts b p result := by
  have hlt := hp.text_lt_need
  have hone : (p.text ++ [0]).length = p.text.length + 1 := List.length_append
  by_cases hroom : b.cur + 32 ≤ kSmallBuffer
  · obtain ⟨hwf, hcontent⟩ := h.advance p.text [0] (by omega) (by omega)
    exact ⟨_, hwrite hroom, hwf, fun _ => ⟨hcontent, rfl⟩, fun hnot => absurd hroom (by omega)⟩
  · exact ⟨b, hskip hroom, h, fun hfit => absurd hfit (by omega), fun _ => rfl⟩

/-- An integer is formatted where it will stand. -/
theorem inserts_integer (h : b.WellFormed) {T : IntegerType} (v : T.Value)
    (hp : (Piece.integer T v).Admissible) :
    Inserts b (.integer T v) (b.formatInteger v.widen) := by
  have hsize := h.size_eq
  have hlen := length_decimal_value v
  have hmax : (kMaxNumericSize : ℤ) = 32 := rfl
  rw [formatInteger, h.avail_eq, hmax]
  refine inserts_numeric h hp rfl ?_ ?_
  · intro hroom
    have hconvert : convert b.data b.cur v.widen = _ :=
      convert_eq v.widen (show b.cur + (decimal v.val).length + 1 ≤ b.data.length by omega)
    rw [if_pos (by omega), hconvert]
    rfl
  · intro hroom
    exact if_neg (by omega)

/-- A floating number is not cut off. -/
theorem inserts_floating (h : b.WellFormed) {text : List Byte}
    (hp : (Piece.floating text).Admissible) :
    Inserts b (.floating text) (b.formatDouble text) := by
  have hsize := h.size_eq
  have hlen : text.length < 32 := hp.floating_lt text rfl
  have hmax : (kMaxNumericSize : ℤ) = 32 := rfl
  have hone : (text ++ [0]).length = text.length + 1 := List.length_append
  have htake : text.take (kMaxNumericSize - 1) = text := by
    refine List.take_of_length_le ?_
    have hpred : kMaxNumericSize - 1 = 31 := rfl
    omega
  rw [formatDouble, h.avail_eq, hmax]
  refine inserts_numeric h hp rfl ?_ ?_
  · intro hroom
    rw [if_pos (by omega), htake, write, if_pos (by omega)]
    rfl
  · intro hroom
    exact if_neg (by omega)

/-- **One insertion**: the piece is there whole, or not at all. -/
theorem insert_spec (h : b.WellFormed) (hp : p.Admissible) : Inserts b p (b.insert p) := by
  cases p with
  | bool v => exact inserts_text h rfl hp
  | char v => exact inserts_text h rfl hp
  | cString str => cases str <;> exact inserts_text h rfl hp
  | string v => exact inserts_text h rfl hp
  | integer T v => exact inserts_integer h v hp
  | floating text => exact inserts_floating h hp

/-! ### Runs -/

theorem kept_sublist (used : ℕ) (ps : List Piece) : (kept used ps).Sublist ps := by
  induction ps generalizing used with
  | nil => exact List.Sublist.refl []
  | cons p ps ih =>
      rw [kept]
      split
      · exact (ih _).cons_cons p
      · exact (ih used).cons p

/-- All the pieces are kept if each of them fits behind the ones before it. -/
theorem kept_cons_eq_self {used : ℕ} :
    kept used (p :: ps) = p :: ps ↔
      used + p.need ≤ kSmallBuffer ∧ kept (used + p.text.length) ps = ps := by
  rw [kept]
  by_cases hroom : used + p.need ≤ kSmallBuffer
  · rw [if_pos hroom, List.cons_inj_right]
    exact (and_iff_right hroom).symm
  · rw [if_neg hroom]
    constructor
    · intro heq
      have hle := (kept_sublist used ps).length_le
      rw [heq, List.length_cons] at hle
      omega
    · intro h
      exact absurd h.1 hroom

/-- Where a piece is dropped, something of the text is missing. -/
theorem length_kept_lt {used : ℕ} (hps : ∀ q ∈ ps, q.Admissible)
    (hnumeric : ∀ q ∈ ps, q.numeric = true → q.text ≠ []) (hused : used < kSmallBuffer)
    (hne : kept used ps ≠ ps) :
    ((kept used ps).flatMap Piece.text).length < (ps.flatMap Piece.text).length := by
  induction ps generalizing used with
  | nil => exact absurd rfl hne
  | cons q ps ih =>
      have hrest : ∀ r ∈ ps, r.Admissible := fun r hr => hps r (List.mem_cons_of_mem q hr)
      have hlt := (hps q List.mem_cons_self).text_lt_need
      rw [ne_eq, kept_cons_eq_self] at hne
      rw [kept, List.flatMap_cons, List.length_append]
      by_cases hroom : used + q.need ≤ kSmallBuffer
      · have hless := ih hrest (fun r hr => hnumeric r (List.mem_cons_of_mem q hr)) (by omega)
          fun heq => hne ⟨hroom, heq⟩
        rw [if_pos hroom, List.flatMap_cons, List.length_append]
        omega
      · -- an empty text would have fitted
        have hpos : 0 < q.text.length := by
          cases hnum : q.numeric with
          | true => exact List.length_pos_of_ne_nil (hnumeric q List.mem_cons_self hnum)
          | false =>
              have hneed : q.need = q.text.length + 1 := by
                rw [Piece.need, if_neg (by rw [hnum]; decide)]
              omega
        have hle := ((kept_sublist used ps).flatMap Piece.text).length_le
        rw [if_neg hroom]
        omega

/-- **Every run of insertions** ends with the pieces that are kept. -/
theorem insertAll_spec (h : b.WellFormed) (hps : ∀ p ∈ ps, p.Admissible) :
    ∃ b', b.insertAll ps = .ok b' ∧ b'.WellFormed ∧
      b'.content = b.content ++ (kept b.cur ps).flatMap Piece.text := by
  -- induction on the pieces; the buffer stays well-formed
  induction ps generalizing b with
  | nil =>
      refine ⟨b, rfl, h, ?_⟩
      rw [kept, List.flatMap_nil, List.append_nil]
  | cons p ps ih =>
      obtain ⟨b₁, hb₁, hwf, hfit, hdrop⟩ := insert_spec h (hps p List.mem_cons_self)
      obtain ⟨b', hb', hwf', hcontent⟩ := ih hwf fun q hq => hps q (List.mem_cons_of_mem p hq)
      refine ⟨b', ?_, hwf', ?_⟩
      · rw [insertAll, hb₁, ok_bind, hb']
      · rw [hcontent, kept]
        by_cases hroom : b.cur + p.need ≤ kSmallBuffer
        · obtain ⟨hadded, hcur⟩ := hfit hroom
          rw [if_pos hroom, hadded, hcur, List.flatMap_cons, List.append_assoc]
        · rw [if_neg hroom, hdrop hroom]

/-- **In bounds, and whole pieces only**: after any insertions no write has been outside the array,
the length is less than its size, and the content is that of the pieces that are kept, in order.
The next piece is added if it fits in what is available, and otherwise nothing changes. -/
theorem insertAll_new {data : List Byte} (hdata : data.length = kSmallBuffer)
    (hps : ∀ p ∈ ps, p.Admissible) :
    ∃ b, (new data).insertAll ps = .ok b ∧ 0 ≤ b.length ∧ b.length < kSmallBuffer ∧
      b.content = (kept 0 ps).flatMap Piece.text ∧ (kept 0 ps).Sublist ps ∧
      ∀ p : Piece, p.Admissible → ∃ b', b.insert p = .ok b' ∧
        (p.Fits b.avail → b'.content = b.content ++ p.text) ∧ (¬p.Fits b.avail → b' = b) := by
  obtain ⟨b, hb, hwf, hcontent⟩ := insertAll_spec (wellFormed_new hdata) hps
  have hcur := hwf.cur_lt
  refine ⟨b, hb, ?_, ?_, hcontent, kept_sublist 0 ps, ?_⟩
  · rw [hwf.length_eq]
    omega
  · rw [hwf.length_eq]
    omega
  · intro p hp
    obtain ⟨b', hb', -, hfit, hdrop⟩ := insert_spec hwf hp
    have hiff : p.Fits b.avail ↔ b.cur + p.need ≤ kSmallBuffer := by
      rw [Piece.fits_iff, hwf.avail_eq]
      omega
    rw [hiff]
    exact ⟨b', hb', fun hroom => (hfit hroom).1, hdrop⟩

/-- A number, a long text, a floating number for which there is no room left, and a character. -/
def demoPieces : List Piece :=
  [.integer .int ⟨-42, by decide, by decide⟩, .string (List.replicate 3980 120),
    .floating (ascii "0.5"), .char 65]

theorem kept_demoPieces : kept 0 demoPieces =
    [.integer .int ⟨-42, by decide, by decide⟩, .string (List.replicate 3980 120), .char 65] := by
  have hint : (Piece.integer .int ⟨-42, by decide, by decide⟩).text.length = 3 := by decide
  have hstring : (Piece.string (List.replicate 3980 120)).text.length = 3980 :=
    List.length_replicate
  have hneed : (Piece.string (List.replicate 3980 120)).need = 3981 := congrArg (· + 1) hstring
  rw [demoPieces, kept, if_pos (by decide), kept, hint, hneed, if_pos (by decide), kept, hstring,
    if_neg (by decide), kept, if_pos (by decide), kept]

/-- The floating number is dropped, and the pieces around it are there whole. -/
theorem insertAll_new_demo :
    kept 0 demoPieces ≠ demoPieces ∧
      ∃ b, (new (List.replicate kSmallBuffer 0)).insertAll demoPieces = .ok b ∧ 0 ≤ b.length ∧
        b.length < kSmallBuffer ∧ b.content = (kept 0 demoPieces).flatMap Piece.text ∧
        (kept 0 demoPieces).Sublist demoPieces ∧
        ∀ p : Piece, p.Admissible → ∃ b', b.insert p = .ok b' ∧
          (p.Fits b.avail → b'.content = b.content ++ p.text) ∧ (¬p.Fits b.avail → b' = b) := by
  have hdropped : kept 0 demoPieces ≠ demoPieces := by
    intro heq
    have hlength := congrArg List.length heq
    rw [kept_demoPieces] at hlength
    cases hlength
  refine ⟨hdropped, insertAll_new List.length_replicate ?_⟩
  intro p hp
  simp only [demoPieces, List.mem_cons, List.not_mem_nil, or_false] at hp
  rcases hp with rfl | rfl | rfl | rfl
  · exact ⟨by decide, nofun⟩
  · exact ⟨by rw [Piece.text, List.length_replicate]; decide, nofun⟩
  · exact ⟨by decide, fun text htext => by cases htext; decide⟩
  · exact ⟨by decide, nofun⟩

end

end LogBuffer

end G5
