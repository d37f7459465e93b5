/-
The bootstrap buffer of the Linux allocation hooks: a static array with a bump index,
from which `malloc` and `calloc` answer while the real functions are being looked up.
-/
import Domovoy.Config

namespace Domovoy

open WordAlign

/-- `sizeof(bootstrap_buf)`. -/
def sizeofBootstrapBuf : Word := 65536

/-- `bootstrap_buf`, wherever the loader put it, and `bootstrap_idx`. -/
structure BootstrapBuf where
  base : Word
  idx : Word
  bytes : Nat → UInt8
  base_ne_nullptr : base ≠ nullptr
  end_fits : base.toNat + sizeofBootstrapBuf.toNat < 2 ^ 64

/-- `ptr >= bootstrap_buf && ptr < bootstrap_buf + sizeof(bootstrap_buf)`. -/
def BootstrapBuf.Holds (buf : BootstrapBuf) (ptr : Word) : Prop :=
  buf.base ≤ ptr ∧ ptr < buf.base + sizeofBootstrapBuf

instance (buf : BootstrapBuf) (ptr : Word) : Decidable (buf.Holds ptr) :=
  inferInstanceAs (Decidable (_ ∧ _))

/-- The loop that clears the bytes from offset `start` on, after `count` rounds. -/
def zeroFill (start : Nat) (bytes : Nat → UInt8) : Nat → Nat → UInt8
  | 0 => bytes
  | count + 1 => Function.update (zeroFill start bytes count) (start + count) 0

/-- The branch of `malloc` inside `dlsym`. -/
def BootstrapBuf.malloc (size : Word) (buf : BootstrapBuf) : Word × BootstrapBuf :=
  if buf.idx + size ≤ sizeofBootstrapBuf then
    (buf.base + buf.idx, { buf with idx := buf.idx + size })
  else (nullptr, buf)

/-- The branch of `calloc` inside `dlsym`. -/
def BootstrapBuf.calloc (nmemb size : Word) (buf : BootstrapBuf) : Word × BootstrapBuf :=
  let total := nmemb * size
  if buf.idx + total ≤ sizeofBootstrapBuf then
    (buf.base + buf.idx, { buf with
      idx := buf.idx + total
      bytes := zeroFill buf.idx.toNat buf.bytes total.toNat })
  else (nullptr, buf)

@[simp] theorem BootstrapBuf.malloc_base (buf : BootstrapBuf) (size : Word) :
    (buf.malloc size).2.base = buf.base := by
  rw [malloc]
  split <;> rfl

@[simp] theorem BootstrapBuf.calloc_base (buf : BootstrapBuf) (nmemb size : Word) :
    (buf.calloc nmemb size).2.base = buf.base := by
  simp only [calloc]
  split <;> rfl

/-- The pointers that count as inside depend on the place of the buffer only. -/
theorem BootstrapBuf.holds_congr {buf buf' : BootstrapBuf} (hbase : buf'.base = buf.base)
    (ptr : Word) : buf'.Holds ptr ↔ buf.Holds ptr := by
  rw [Holds, Holds, hbase]

end Domovoy
