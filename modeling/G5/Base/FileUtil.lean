/-
**Appending to a file** (`AppendFile`, `src/base/FileUtil.cc`).

`fwrite_unlocked` may take fewer bytes than it is offered.  `append` offers it the rest of the line
until nothing is left, or until it takes nothing.  What the stream takes in each call is a parameter
here, and each call is recorded.

Main definitions:

* `Stream` — what the calls of `fwrite_unlocked` return;
* `AppendFile`, `AppendFile.append`, `AppendFile.flush` — the file, and its functions;
* `AppendFile.Hands` — the calls of a stretch have handed over a range of the line.

Main results:

* `AppendFile.appendLoop_spec` — the loop, which goes on where the calls before it have ended;
* `AppendFile.append_spec` — **every call of `append`** returns, and hands over the line from its
  beginning, to the end unless a call has returned zero.
-/

import G5.Basic
import G5.Lib.Region

set_option relaxedAutoImplicit false
set_option autoImplicit false

namespace G5

open Region

/-- The results of `fwrite_unlocked`, by the number of the call and the count that it is asked for,
and those of `ferror` after so many calls. -/
structure Stream where
  fwrite : ℕ → (size : ℕ) → Fin (size + 1)
  ferror : ℕ → Bool

/-- A call of `fwrite_unlocked`: where in the line it begins, the count, and the result. -/
structure Request where
  pos : ℕ
  size : ℕ
  result : ℕ
  deriving DecidableEq, Repr

/-- The stream, the bytes that it has taken, the calls so far, how many of the bytes have been
flushed, and what was printed to `stderr`. -/
structure AppendFile where
  fp : Stream
  content : List Byte
  requests : List Request
  flushed : ℕ
  stderr : List Byte

namespace AppendFile

def flush (f : AppendFile) : AppendFile := { f with flushed := f.content.length }

/-- `write(logline + pos, len)`. -/
def write (f : AppendFile) (logline : List Byte) (pos len : ℕ) :
    Checked (AppendFile × Fin (len + 1)) :=
  if pos + len ≤ logline.length then
    let x := f.fp.fwrite f.requests.length len
    .ok ({ f with
      content := f.content ++ slice logline pos (pos + x)
      requests := f.requests ++ [⟨pos, len, x⟩] }, x)
  else .error .outOfBounds

/-- A call has returned zero. -/
def fail (f : AppendFile) : AppendFile :=
  if f.fp.ferror f.requests.length then
    { f with stderr := f.stderr ++ ascii "AppendFile::append() failed!\n" }
  else f

/-- The loop; `remain` is `len - n` whenever it is tested. -/
def appendLoop (f : AppendFile) (logline : List Byte) (len n : ℕ) : Checked AppendFile :=
  if 0 < toSizeT (len - n) then do
    let (f, x) ← f.write logline n (toSizeT (len - n))
    if x.val = 0 then return f.fail else f.appendLoop logline len (toSizeT (n + x.val))
  else
    return f
termination_by toSizeT (len - n)
decreasing_by
  have hx := x.isLt
  unfold toSizeT at *
  omega

def append (f : AppendFile) (logline : List Byte) (len : ℕ) : Checked AppendFile := do
  let (f, n) ← f.write logline 0 len
  f.appendLoop logline len n

/-! ### What is handed over -/

/-- Between `f` and `f'` the calls `reqs` have handed the bytes from `n` to `k` to the stream, each
once and in order.  They offer no byte behind `len`, and there is none left before it unless one of
them has returned zero. -/
structure Hands (f f' : AppendFile) (logline : List Byte) (len n k : ℕ) (reqs : List Request) :
    Prop where
  requests_eq : f'.requests = f.requests ++ reqs
  inside : ∀ q ∈ reqs, q.pos + q.size ≤ len
  ordered : n ≤ k ∧ k ≤ len
  content_eq : f'.content = f.content ++ slice logline n k
  whole : k = len ∨ ∃ q ∈ reqs, 0 < q.size ∧ q.result = 0

section

variable {f f₁ f' : AppendFile} {logline : List Byte} {len n k : ℕ} {reqs : List Request}

@[simp] theorem content_fail : f.fail.content = f.content := by
  rw [fail]
  split <;> rfl

@[simp] theorem requests_fail : f.fail.requests = f.requests := by
  rw [fail]
  split <;> rfl

/-- One call: the bytes that it takes are handed over. -/
theorem write_eq (f : AppendFile) {size : ℕ} (hroom : n + size ≤ logline.length) :
    ∃ f₁ x taken, f.write logline n size = .ok (f₁, x) ∧ x.val = taken ∧ taken ≤ size ∧
      f₁.content = f.content ++ slice logline n (n + taken) ∧
      f₁.requests = f.requests ++ [⟨n, size, taken⟩] :=
  ⟨_, _, _, if_pos hroom, rfl, Nat.le_of_lt_succ (Fin.isLt _), rfl, rfl⟩

/-- Nothing is left. -/
theorem Hands.refl (f : AppendFile) (logline : List Byte) (len : ℕ) :
    f.Hands f logline len len len [] where
  requests_eq := (List.append_nil _).symm
  inside _ hq := absurd hq List.not_mem_nil
  ordered := ⟨le_rfl, le_rfl⟩
  content_eq := by rw [slice_self, List.append_nil]
  whole := .inl rfl

/-- A call, and the ones behind it. -/
theorem Hands.cons {x : ℕ} (hcontent : f₁.content = f.content ++ slice logline n (n + x))
    (hrequests : f₁.requests = f.requests ++ [⟨n, len - n, x⟩]) (hn : n ≤ len)
    (h : f₁.Hands f' logline len (n + x) k reqs) :
    f.Hands f' logline len n k (⟨n, len - n, x⟩ :: reqs) where
  requests_eq := by
    rw [h.requests_eq, hrequests, List.append_assoc, List.singleton_append]
  inside q hq := by
    rcases List.mem_cons.1 hq with rfl | hq
    · exact le_of_eq (Nat.add_sub_cancel' hn)
    · exact h.inside q hq
  ordered := ⟨Nat.le_trans (Nat.le_add_right n x) h.ordered.1, h.ordered.2⟩
  content_eq := by
    rw [h.content_eq, hcontent, List.append_assoc,
      slice_append_slice (Nat.le_add_right n x) h.ordered.1]
  whole := by
    rcases h.whole with hk | ⟨q, hq, hzero⟩
    · exact .inl hk
    · exact .inr ⟨q, List.mem_cons_of_mem _ hq, hzero⟩

/-- A call that returns zero is the last one. -/
theorem Hands.zero (hcontent : f₁.content = f.content ++ slice logline n (n + 0))
    (hrequests : f₁.requests = f.requests ++ [⟨n, len - n, 0⟩]) (hn : n < len) :
    f.Hands f₁.fail logline len n n [⟨n, len - n, 0⟩] where
  requests_eq := by rw [requests_fail, hrequests]
  inside q hq := by
    rw [List.mem_singleton] at hq
    subst hq
    exact le_of_eq (Nat.add_sub_cancel' (le_of_lt hn))
  ordered := ⟨le_rfl, le_of_lt hn⟩
  content_eq := by rw [content_fail, hcontent, Nat.add_zero]
  whole := .inr ⟨_, List.mem_singleton_self _, Nat.sub_pos_of_lt hn, rfl⟩

/-- **The loop** hands over the line from `n` on. -/
theorem appendLoop_spec (hlen : len ≤ logline.length) (hsize : len < 2 ^ 64) (hn : n ≤ len) :
    ∃ f' reqs k, f.appendLoop logline len n = .ok f' ∧ f.Hands f' logline len n k reqs := by
  -- strong induction on what remains: a call that takes something leaves less
  induction hm : len - n using Nat.strong_induction_on generalizing f n with
  | _ m ih =>
      subst hm
      have hremain : toSizeT (len - n) = len - n := by
        rw [← Int.ofNat_sub hn, toSizeT_natCast (by omega)]
      rw [appendLoop]
      by_cases hleft : 0 < toSizeT (len - n)
      · have hoffer : n + toSizeT (len - n) ≤ logline.length := by omega
        obtain ⟨f₁, x, taken, hwrite, hx, hle, hcontent, hrequests⟩ := f.write_eq hoffer
        rw [hremain] at hle hrequests
        rw [if_pos hleft, hwrite, ok_bind]
        simp only [hx]
        by_cases hzero : taken = 0
        · subst hzero
          exact ⟨f₁.fail, _, n, if_pos rfl, Hands.zero hcontent hrequests (by omega)⟩
        · have hnext : toSizeT (n + taken) = n + taken := by
            rw [← Int.natCast_add, toSizeT_natCast (by omega)]
          obtain ⟨f', reqs, k, hloop, hhands⟩ :=
            ih (len - (n + taken)) (by omega) (f := f₁) (n := n + taken) (by omega) rfl
          refine ⟨f', _, k, ?_, Hands.cons hcontent hrequests hn hhands⟩
          rw [if_neg hzero, hnext, hloop]
      · obtain rfl : n = len := by omega
        exact ⟨f, [], n, if_neg hleft, Hands.refl f logline n⟩

/-- **Every call of `append`** returns, and has handed over a first part of the line. -/
theorem append_spec (hlen : len ≤ logline.length) (hsize : len < 2 ^ 64) :
    ∃ f' reqs k, f.append logline len = .ok f' ∧ f.Hands f' logline len 0 k reqs := by
  have hfirst : 0 + len ≤ logline.length := by omega
  obtain ⟨f₁, x, n, hwrite, hx, hle, hcontent, hrequests⟩ := f.write_eq hfirst
  obtain ⟨f', reqs, k, hloop, hhands⟩ := appendLoop_spec hlen hsize hle
  rw [← Nat.zero_add n] at hhands
  refine ⟨f', _, k, ?_, Hands.cons hcontent hrequests (Nat.zero_le len) hhands⟩
  rw [append, hwrite, ok_bind]
  simp only [hx]
  exact hloop

end

end AppendFile

end G5
