/-
**Fixed buffers** (`src/base/LogStream.h`).

A fixed buffer is the content before its cursor.

Main definitions:

* `FixedBuffer`, `FixedBuffer.append`, `FixedBuffer.avail`, `FixedBuffer.reset`.

Main results:

* `FixedBuffer.append_of_lt` — a text is appended whole where there is room for it.
-/

import G5.Basic

set_option relaxedAutoImplicit false
set_option autoImplicit false

namespace G5

def kLargeBuffer : ℕ := 4000 * 1000

/-- `FixedBuffer<SIZE>`: the bytes before the cursor. -/
structure FixedBuffer (SIZE : ℕ) where
  data : List Byte
  deriving DecidableEq, Repr

namespace FixedBuffer

variable {SIZE : ℕ}

/-- The constructor. -/
def new : FixedBuffer SIZE := ⟨[]⟩

def length (b : FixedBuffer SIZE) : ℕ := b.data.length

def avail (b : FixedBuffer SIZE) : ℤ := toInt32 (SIZE - b.length)

/-- `append`: the length is converted to `int` for the comparison. -/
def append (b : FixedBuffer SIZE) (buf : List Byte) : FixedBuffer SIZE :=
  if toInt32 buf.length < b.avail then ⟨b.data ++ buf⟩ else b

def reset (_ : FixedBuffer SIZE) : FixedBuffer SIZE := ⟨[]⟩

theorem append_of_lt {b : FixedBuffer SIZE} {buf : List Byte} (hlen : buf.length < 2 ^ 31)
    (h : buf.length < b.avail) : (b.append buf).data = b.data ++ buf := by
  rw [append, toInt32_eq (by omega) (by omega), if_pos h]

end FixedBuffer

end G5
