/-
**Lists as memory regions.**

A region is a list of cells; a piece of it is named by its two ends, as a pair of pointers names a
range.  The module has the three primitives that code with pointers uses on a region — reading a
range, overwriting a range, and copying inside the region cell by cell — and how they compose.

Main definitions:

* `Region.slice` — the cells of the range `[i, j)`;
* `Region.overwrite` — the region with some cells written from `i` on;
* `Region.copyForward` — cell by cell copy inside one region, from the front of the range;
* `Region.resize` — the region cut or padded to a length.

Main results:

* `Region.slice_append_slice`, `Region.slice_overwrite_*` — reading after writing;
* `Region.copyForward_eq` — **an overlapping copy towards the front is safe**: it writes what the
  range held before the copy began.
-/

import Mathlib.Data.List.Basic
import Mathlib.Tactic.Common

set_option relaxedAutoImplicit false
set_option autoImplicit false

namespace Region

variable {α : Type*}

/-! ### Ranges -/

/-- The cells of the range `[i, j)`. -/
def slice (xs : List α) (i j : ℕ) : List α := (xs.drop i).take (j - i)

theorem slice_getElem? (xs : List α) (i j k : ℕ) :
    (slice xs i j)[k]? = if k < j - i then xs[i + k]? else none := by
  rw [slice, List.getElem?_take, List.getElem?_drop]

theorem length_slice {xs : List α} {i j : ℕ} (hj : j ≤ xs.length) :
    (slice xs i j).length = j - i := by
  rw [slice, List.length_take, List.length_drop]
  omega

@[simp] theorem slice_self (xs : List α) (i : ℕ) : slice xs i i = [] := by
  simp [slice]

theorem slice_length (xs : List α) (i : ℕ) : slice xs i xs.length = xs.drop i := by
  rw [slice, ← List.length_drop, List.take_length]

/-- Two ranges that meet make one. -/
theorem slice_append_slice {xs : List α} {i j k : ℕ} (hij : i ≤ j) (hjk : j ≤ k) :
    slice xs i j ++ slice xs j k = slice xs i k := by
  have hk : k - i = (j - i) + (k - j) := by omega
  rw [slice, slice, slice, hk, List.take_add, List.drop_drop]
  congr 3
  omega

/-- A range with its front cut off. -/
theorem drop_slice (xs : List α) (i j n : ℕ) :
    (slice xs i j).drop n = slice xs (i + n) j := by
  rw [slice, slice, List.drop_take, List.drop_drop]
  congr 1
  omega

/-- The front of a range. -/
theorem take_slice {xs : List α} {i j n : ℕ} (h : i + n ≤ j) :
    (slice xs i j).take n = slice xs i (i + n) := by
  rw [slice, slice, List.take_take]
  congr 1
  omega

/-- A range of a range. -/
theorem slice_slice {xs : List α} {a b i j : ℕ} (hij : i ≤ j) (h : a + j ≤ b) :
    slice (slice xs a b) i j = slice xs (a + i) (a + j) := by
  rw [slice, drop_slice, take_slice (by omega)]
  congr 1
  omega

/-- The range between two parts of a region. -/
theorem slice_middle {xs ys zs : List α} {i j : ℕ} (hi : i = xs.length) (hj : j = i + ys.length) :
    slice (xs ++ (ys ++ zs)) i j = ys := by
  rw [slice, hj, hi, List.drop_left, Nat.add_sub_cancel_left, List.take_left]

/-! ### Overwriting -/

/-- The region with the cells `ys` written from position `i` on. -/
def overwrite (xs : List α) (i : ℕ) (ys : List α) : List α :=
  xs.take i ++ ys ++ xs.drop (i + ys.length)

theorem length_overwrite {xs ys : List α} {i : ℕ} (h : i + ys.length ≤ xs.length) :
    (overwrite xs i ys).length = xs.length := by
  simp only [overwrite, List.length_append, List.length_take, List.length_drop]
  omega

@[simp] theorem overwrite_nil (xs : List α) (i : ℕ) : overwrite xs i [] = xs := by
  simp [overwrite]

/-- What was written is read back. -/
theorem slice_overwrite_self {xs ys : List α} {i : ℕ} (h : i ≤ xs.length) :
    slice (overwrite xs i ys) i (i + ys.length) = ys := by
  have hlen : (xs.take i).length = i := by rw [List.length_take]; omega
  rw [slice, overwrite, List.append_assoc, List.drop_append_of_le_length (by omega),
    List.drop_of_length_le (by omega), List.nil_append, Nat.add_sub_cancel_left,
    List.take_left]

/-- A range before the written cells is unchanged. -/
theorem slice_overwrite_before {xs ys : List α} {i a b : ℕ} (hi : i ≤ xs.length) (h : b ≤ i) :
    slice (overwrite xs i ys) a b = slice xs a b := by
  refine List.ext_getElem? ?_
  intro k
  rw [slice_getElem?, slice_getElem?]
  split
  · have hlt : a + k < (xs.take i).length := by rw [List.length_take]; omega
    rw [overwrite, List.append_assoc, List.getElem?_append_left hlt, List.getElem?_take,
      if_pos (by omega)]
  · rfl

/-- A range behind the written cells is unchanged. -/
theorem slice_overwrite_after {xs ys : List α} {i a b : ℕ} (hi : i ≤ xs.length)
    (h : i + ys.length ≤ a) : slice (overwrite xs i ys) a b = slice xs a b := by
  refine List.ext_getElem? ?_
  intro k
  rw [slice_getElem?, slice_getElem?]
  split
  · have hlen : (xs.take i ++ ys).length = i + ys.length := by
      rw [List.length_append, List.length_take]
      omega
    rw [overwrite, List.getElem?_append_right (by omega), List.getElem?_drop, hlen]
    congr 1
    omega
  · rfl

/-- Writing one cell and then the cells behind it. -/
theorem overwrite_cons {xs : List α} {i : ℕ} (y : α) (ys : List α) (h : i < xs.length) :
    overwrite xs i (y :: ys) = overwrite (xs.set i y) (i + 1) ys := by
  have htake : (xs.set i y).take (i + 1) = xs.take i ++ [y] := by
    rw [List.take_add_one, List.take_set_of_le (Nat.le_refl i)]
    simp [h]
  have hdrop : (xs.set i y).drop (i + 1 + ys.length) = xs.drop (i + (y :: ys).length) := by
    rw [List.drop_set_of_lt (by omega), List.length_cons]
    congr 1
    omega
  rw [overwrite, overwrite, htake, hdrop]
  simp

/-- Writing some cells and then the one behind them. -/
theorem set_overwrite (xs ys : List α) {i : ℕ} (y : α) (h : i + ys.length < xs.length) :
    (overwrite xs i ys).set (i + ys.length) y = overwrite xs i (ys ++ [y]) := by
  have hlen : (xs.take i ++ ys).length = i + ys.length := by
    rw [List.length_append, List.length_take]
    omega
  have hdrop : xs.drop (i + ys.length) = xs[i + ys.length] :: xs.drop (i + ys.length + 1) :=
    List.drop_eq_getElem_cons h
  rw [overwrite, overwrite, List.set_append_right _ _ (by omega), hlen, Nat.sub_self, hdrop,
    List.set_cons_zero, List.length_append, List.length_singleton, ← Nat.add_assoc]
  simp only [List.append_assoc, List.singleton_append]

/-- The first of the written cells are read back. -/
theorem slice_overwrite_append (xs ys zs : List α) {i : ℕ} (h : i ≤ xs.length) :
    slice (overwrite xs i (ys ++ zs)) i (i + ys.length) = ys := by
  have hlen : (xs.take i).length = i := by rw [List.length_take]; omega
  have hsplit : overwrite xs i (ys ++ zs) =
      xs.take i ++ (ys ++ (zs ++ xs.drop (i + (ys ++ zs).length))) := by
    rw [overwrite]
    simp only [List.append_assoc]
  rw [slice, hsplit, List.drop_left' hlen, Nat.add_sub_cancel_left, List.take_left]

/-- The first of the written cells are written again. -/
theorem overwrite_overwrite (xs ys ys' zs : List α) {i : ℕ} (h : i ≤ xs.length)
    (hlen : ys'.length = ys.length) :
    overwrite (overwrite xs i (ys ++ zs)) i ys' = overwrite xs i (ys' ++ zs) := by
  have htake : (xs.take i).length = i := by rw [List.length_take]; omega
  have hsplit : overwrite xs i (ys ++ zs) =
      xs.take i ++ (ys ++ (zs ++ xs.drop (i + (ys ++ zs).length))) := by
    rw [overwrite]
    simp only [List.append_assoc]
  have hbefore : (overwrite xs i (ys ++ zs)).take i = xs.take i := by
    rw [hsplit, List.take_left' htake]
  have hbehind : (overwrite xs i (ys ++ zs)).drop (i + ys'.length) =
      zs ++ xs.drop (i + (ys' ++ zs).length) := by
    rw [hlen, hsplit, ← List.drop_drop, List.drop_left' htake, List.drop_left,
      List.length_append, List.length_append, hlen]
  rw [overwrite, hbefore, hbehind, overwrite]
  simp only [List.append_assoc]

/-! ### Copying inside a region -/

/-- Copying `n` cells from position `src` to position `dst` of the same region, one cell after the
other from the front of the range. -/
def copyForward (xs : List α) (src dst : ℕ) : ℕ → List α
  | 0 => xs
  | n + 1 =>
      match xs[src]? with
      | none => xs
      | some x => copyForward (xs.set dst x) (src + 1) (dst + 1) n

theorem length_copyForward (xs : List α) (src dst n : ℕ) :
    (copyForward xs src dst n).length = xs.length := by
  induction n generalizing xs src dst with
  | zero => rfl
  | succ n ih =>
      rw [copyForward]
      cases xs[src]? with
      | none => rfl
      | some x => exact (ih _ _ _).trans List.length_set

/-- **An overlapping copy towards the front is safe**: no cell is overwritten before it has been
read, so the range ends up holding what the source range held before the copy began. -/
theorem copyForward_eq {xs : List α} {src dst n : ℕ} (hds : dst ≤ src)
    (hn : src + n ≤ xs.length) :
    copyForward xs src dst n = overwrite xs dst (slice xs src (src + n)) := by
  -- induction on the number of cells; the cell written at `dst` lies before the rest of the source
  induction n generalizing xs src dst with
  | zero => simp [copyForward]
  | succ n ih =>
      have hsrc : src < xs.length := by omega
      have hget : xs[src]? = some xs[src] := List.getElem?_eq_getElem hsrc
      have hrest : slice (xs.set dst xs[src]) (src + 1) (src + 1 + n) =
          slice xs (src + 1) (src + 1 + n) := by
        rw [slice, slice, List.drop_set_of_lt (by omega)]
      have hhead : slice xs src (src + (n + 1)) =
          xs[src] :: slice xs (src + 1) (src + 1 + n) := by
        have hsplit : slice xs src (src + 1) ++ slice xs (src + 1) (src + (n + 1)) =
            slice xs src (src + (n + 1)) := slice_append_slice (by omega) (by omega)
        have hone : slice xs src (src + 1) = [xs[src]] := by
          simp [slice, List.take_one, hsrc]
        rw [← hsplit, hone, List.singleton_append]
        congr 2
        omega
      rw [copyForward, hget]
      simp only
      rw [ih (by omega) (by rw [List.length_set]; omega), hrest, hhead,
        overwrite_cons _ _ (by omega)]

/-! ### Changing the length of a region -/

/-- The region cut, or padded with `x`, to the length `n`. -/
def resize (xs : List α) (n : ℕ) (x : α) : List α := xs.take n ++ List.replicate (n - xs.length) x

@[simp] theorem length_resize (xs : List α) (n : ℕ) (x : α) : (resize xs n x).length = n := by
  simp only [resize, List.length_append, List.length_take, List.length_replicate]
  omega

/-- Growing a region keeps every range it had. -/
theorem slice_resize {xs : List α} {n i j : ℕ} (x : α) (hn : xs.length ≤ n)
    (hj : j ≤ xs.length) : slice (resize xs n x) i j = slice xs i j := by
  refine List.ext_getElem? ?_
  intro k
  rw [slice_getElem?, slice_getElem?]
  split
  · rw [resize, List.take_of_length_le hn, List.getElem?_append_left (by omega)]
  · rfl

end Region
