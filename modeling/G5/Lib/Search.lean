/-
**Searching a sequence, and cutting it at a separator.**

Main definitions:

* `Search.find` — the position of the first occurrence of an element in a range, as a range
  algorithm returns it: the end of the range when there is none;
* `Search.search` — the same for a pattern in a sequence;
* `Search.cut` — the part of a sequence before the first separator, and the part behind it.

Main results:

* `Search.cut_append`, `Search.eq_of_cut` — **a sequence is cut where the separator was put**, and
  a cut sequence is put together again;
* `Search.cut_eq_none_of_prefix` — no proper part of a line and its separator can be cut;
* `Search.cut_append_right` — what is added at the end does not move the cut.
-/

import G5.Lib.Region
import Mathlib.Data.List.Infix

set_option relaxedAutoImplicit false
set_option autoImplicit false

namespace Search

variable {α : Type*} [DecidableEq α]

/-! ### One element -/

/-- The first position in the range `[i, j)` that holds `x`, or `j`. -/
def find (xs : List α) (i j : ℕ) (x : α) : ℕ := i + (Region.slice xs i j).idxOf x

/-- An element that occurs first between `ys` and `zs` is found there. -/
theorem find_eq {xs ys zs : List α} {i j : ℕ} {x : α}
    (h : Region.slice xs i j = ys ++ x :: zs) (hx : x ∉ ys) : find xs i j x = i + ys.length := by
  rw [find, h, List.idxOf_append_of_notMem hx, List.idxOf_cons_self, Nat.add_zero]

/-- What stands before the first occurrence of an element. -/
theorem takeWhile_ne {xs : List α} {x : α} (hx : x ∉ xs) (ys : List α) :
    (xs ++ x :: ys).takeWhile (· ≠ x) = xs := by
  rw [List.takeWhile_append_of_pos, List.takeWhile_cons_of_neg (by simp), List.append_nil]
  intro y hy
  simpa using fun he : y = x => hx (he ▸ hy)

/-- The first occurrence of an element, and what stands behind it. -/
theorem dropWhile_ne {xs : List α} {x : α} (hx : x ∉ xs) (ys : List α) :
    (xs ++ x :: ys).dropWhile (· ≠ x) = x :: ys := by
  rw [List.dropWhile_append_of_pos, List.dropWhile_cons_of_neg (by simp)]
  intro y hy
  simpa using fun he : y = x => hx (he ▸ hy)

/-! ### A pattern -/

/-- The first position of `xs` at which `pat` occurs, or the length of `xs`. -/
def search (pat : List α) : List α → ℕ
  | [] => 0
  | x :: xs => if pat <+: x :: xs then 0 else search pat xs + 1

section

variable {pat : List α}

@[simp] theorem search_nil : search pat [] = 0 := rfl

theorem search_cons (x : α) (xs : List α) :
    search pat (x :: xs) = if pat <+: x :: xs then 0 else search pat xs + 1 := rfl

theorem search_le_length (xs : List α) : search pat xs ≤ xs.length := by
  induction xs with
  | nil => exact Nat.le_refl 0
  | cons x xs ih =>
      rw [search_cons, List.length_cons]
      split
      · exact Nat.zero_le _
      · omega

/-- Where the search stops, the pattern begins. -/
theorem prefix_drop_search {xs : List α} (h : search pat xs ≠ xs.length) :
    pat <+: xs.drop (search pat xs) := by
  induction xs with
  | nil => exact absurd rfl h
  | cons x xs ih =>
      rw [search_cons] at h ⊢
      split
      · rename_i hpre
        exact hpre
      · rename_i hpre
        rw [if_neg hpre, List.length_cons] at h
        exact ih fun he => h (by rw [he])

/-- Before the place where the search stops, the pattern does not occur. -/
theorem not_infix_take_search (hpat : pat ≠ []) (xs : List α) :
    ¬pat <:+: xs.take (search pat xs) := by
  induction xs with
  | nil => simpa using hpat
  | cons x xs ih =>
      rw [search_cons]
      by_cases hpre : pat <+: x :: xs
      · rw [if_pos hpre, List.take_zero, List.infix_nil]
        exact hpat
      · rw [if_neg hpre, List.take_succ_cons, List.infix_cons_iff]
        rintro (hp | hi)
        · exact hpre (hp.trans (List.cons_prefix_cons.2 ⟨rfl, List.take_prefix _ _⟩))
        · exact ih hi

theorem search_eq_length_of_not_infix {xs : List α} (h : ¬pat <:+: xs) :
    search pat xs = xs.length := by
  induction xs with
  | nil => rfl
  | cons x xs ih =>
      have hpre : ¬pat <+: x :: xs := fun hp => h hp.isInfix
      have htail : ¬pat <:+: xs := fun hi => h (hi.trans (List.suffix_cons x xs).isInfix)
      rw [search_cons, if_neg hpre, ih htail, List.length_cons]

/-- A sequence without the pattern, not even across its end, does not stop the search. -/
theorem search_append {line : List α} (h : ¬pat <:+: line ++ pat.dropLast) (rest : List α) :
    search pat (line ++ (pat ++ rest)) = line.length := by
  induction line with
  | nil =>
      cases hp : pat ++ rest with
      | nil => rfl
      | cons x xs => rw [List.nil_append, search_cons, if_pos (hp ▸ List.prefix_append pat rest),
          List.length_nil]
  | cons x line ih =>
      have htail : ¬pat <:+: line ++ pat.dropLast := by
        intro hi
        exact h (hi.trans (List.suffix_cons x _).isInfix)
      have hpre : ¬pat <+: x :: (line ++ (pat ++ rest)) := by
        intro hp
        -- the pattern would lie in the line and all but the last element of the separator
        have hsep : (x :: line) ++ pat.dropLast <+: x :: (line ++ (pat ++ rest)) := by
          rw [List.cons_append, List.cons_prefix_cons, ← List.append_assoc]
          refine ⟨rfl, ?_⟩
          rw [List.append_assoc, List.prefix_append_right_inj]
          exact (List.dropLast_prefix pat).trans (List.prefix_append pat rest)
        refine h (List.prefix_of_prefix_length_le hp hsep ?_).isInfix
        rw [List.length_append, List.length_cons, List.length_dropLast]
        omega
      rw [List.cons_append, search_cons, if_neg hpre, ih htail, List.length_cons]

/-- What is behind the first occurrence does not matter. -/
theorem search_append_right {xs : List α} (h : search pat xs ≠ xs.length) (more : List α) :
    search pat (xs ++ more) = search pat xs := by
  induction xs with
  | nil => exact absurd rfl h
  | cons x xs ih =>
      rw [List.cons_append, search_cons, search_cons]
      rw [search_cons] at h
      by_cases hpre : pat <+: x :: xs
      · have hpre' : pat <+: x :: (xs ++ more) := hpre.trans (List.prefix_append (x :: xs) more)
        rw [if_pos hpre, if_pos hpre']
      · rw [if_neg hpre, List.length_cons] at h
        have hne : search pat xs ≠ xs.length := fun he => h (by rw [he])
        -- the pattern occurs later on, so it is not too long to stand in front
        have hlen := (prefix_drop_search hne).length_le
        rw [List.length_drop] at hlen
        have hpre' : ¬pat <+: x :: (xs ++ more) := by
          intro hp
          refine hpre (List.prefix_of_prefix_length_le hp ?_ ?_)
          · exact List.prefix_append (x :: xs) more
          · rw [List.length_cons]
            omega
        rw [if_neg hpre, if_neg hpre', ih hne]

end

/-! ### Cutting at a separator -/

/-- What stands before the first `sep`, and what stands behind it. -/
def cut (sep xs : List α) : Option (List α × List α) :=
  let n := search sep xs
  if n = xs.length then none else some (xs.take n, xs.drop (n + sep.length))

section

variable {sep xs line rest : List α}

/-- **A sequence is cut where the separator was put.** -/
theorem cut_append (hsep : sep ≠ []) (h : ¬sep <:+: line ++ sep.dropLast) (rest : List α) :
    cut sep (line ++ (sep ++ rest)) = some (line, rest) := by
  have hpos := List.length_pos_of_ne_nil hsep
  have hne : line.length ≠ (line ++ (sep ++ rest)).length := by
    rw [List.length_append, List.length_append]
    omega
  rw [cut, search_append h]
  simp only [if_neg hne]
  rw [List.take_left, ← List.append_assoc, List.drop_left' List.length_append]

/-- No proper part of a line and its separator can be cut. -/
theorem cut_eq_none_of_prefix (h : ¬sep <:+: line ++ sep.dropLast)
    (hxs : xs <+: line ++ sep) (hlen : xs.length < line.length + sep.length) :
    cut sep xs = none := by
  have hpre : xs <+: line ++ sep.dropLast := by
    have hsep : line ++ sep.dropLast <+: line ++ sep := by
      rw [List.prefix_append_right_inj]
      exact List.dropLast_prefix sep
    refine List.prefix_of_prefix_length_le hxs hsep ?_
    rw [List.length_append, List.length_dropLast]
    omega
  have hno : ¬sep <:+: xs := fun hi => h (hi.trans hpre.isInfix)
  rw [cut, search_eq_length_of_not_infix hno]
  exact if_pos rfl

theorem cut_eq_some (h : cut sep xs = some (line, rest)) :
    search sep xs ≠ xs.length ∧ line = xs.take (search sep xs) ∧
      rest = xs.drop (search sep xs + sep.length) := by
  rw [cut] at h
  split at h
  · cases h
  · rename_i hne
    obtain ⟨rfl, rfl⟩ := Prod.mk.inj (Option.some.inj h)
    exact ⟨hne, rfl, rfl⟩

theorem cut_eq_none : cut sep xs = none ↔ search sep xs = xs.length := by
  constructor
  · intro h
    by_contra hne
    unfold cut at h
    simp only [if_neg hne] at h
    cases h
  · intro h
    exact if_pos h

/-- What is cut is put together with the separator between the parts, and the first part does not
have it. -/
theorem eq_of_cut (hsep : sep ≠ []) (h : cut sep xs = some (line, rest)) :
    xs = line ++ (sep ++ rest) ∧ ¬sep <:+: line := by
  obtain ⟨hne, rfl, rfl⟩ := cut_eq_some h
  obtain ⟨more, hmore⟩ := prefix_drop_search hne
  have hrest : xs.drop (search sep xs + sep.length) = more := by
    rw [← List.drop_drop, ← hmore, List.drop_left]
  rw [hrest, hmore, List.take_append_drop]
  exact ⟨rfl, not_infix_take_search hsep xs⟩

/-- More elements at the end are more elements behind the separator. -/
theorem cut_append_right (h : cut sep xs = some (line, rest)) (more : List α) :
    cut sep (xs ++ more) = some (line, rest ++ more) := by
  obtain ⟨hne, hline, hrest⟩ := cut_eq_some h
  have hsearch := search_append_right hne more
  have hle : search sep xs ≤ xs.length := search_le_length xs
  have hlen := (prefix_drop_search hne).length_le
  rw [List.length_drop] at hlen
  have hne' : search sep xs ≠ (xs ++ more).length := by
    rw [List.length_append]
    omega
  rw [cut, hsearch]
  simp only [if_neg hne']
  rw [List.take_append_of_le_length hle, List.drop_append_of_le_length (by omega), hline, hrest]

/-- Behind the separator the sequence is shorter, by the separator at least. -/
theorem length_of_cut (h : cut sep xs = some (line, rest)) :
    search sep xs + sep.length ≤ xs.length := by
  obtain ⟨hne, -, -⟩ := cut_eq_some h
  have hlen := (prefix_drop_search hne).length_le
  have hle : search sep xs ≤ xs.length := search_le_length xs
  rw [List.length_drop] at hlen
  omega

end

end Search
