/-
The allocator behind the hooks.  It is the C library's, so only its documented
behaviour is modelled: each call may refuse, and a block it hands out lies at an
address that is not in use.
-/
import Mathlib.Logic.Function.Basic
import Domovoy.Config

namespace Domovoy

open WordAlign

/-- The blocks currently allocated, with the byte size last requested for each. -/
structure LibcHeap where
  live : Word → Option Nat

def LibcHeap.initial : LibcHeap where
  live := fun _ => none

def LibcHeap.place (heap : LibcHeap) (address : Word) (size : Nat) : LibcHeap where
  live := Function.update heap.live address (some size)

def LibcHeap.release (heap : LibcHeap) (address : Word) : LibcHeap where
  live := Function.update heap.live address none

def LibcHeap.Fresh (heap : LibcHeap) (address : Word) : Prop :=
  address ≠ nullptr ∧ heap.live address = none

instance (heap : LibcHeap) (address : Word) : Decidable (heap.Fresh address) :=
  inferInstanceAs (Decidable (_ ∧ _))

/-- How the allocator decides to answer one call. -/
inductive RealAnswer where
  | refuse
  | block (address : Word)
  | inPlace
deriving DecidableEq, Repr

/-- Hand out a block of `size` bytes, or null; `none` when the answer is not one
the allocator can give. -/
def realMalloc (answer : RealAnswer) (size : Nat) (heap : LibcHeap) :
    Option (Word × LibcHeap) :=
  match answer with
  | .refuse => some (nullptr, heap)
  | .block address =>
      if heap.Fresh address then some (address, heap.place address size) else none
  | .inPlace => none

/-- The byte count of a `calloc` fits in `size_t`. -/
def ProductFits (nmemb size : Nat) : Prop :=
  nmemb * size < 2 ^ 64

instance (nmemb size : Nat) : Decidable (ProductFits nmemb size) :=
  inferInstanceAs (Decidable (_ < _))

/-- `calloc` refuses a product that does not fit. -/
def realCalloc (answer : RealAnswer) (nmemb size : Nat) (heap : LibcHeap) :
    Option (Word × LibcHeap) :=
  if ProductFits nmemb size then realMalloc answer (nmemb * size) heap
  else realMalloc .refuse (nmemb * size) heap

/-- The two ways in which the allocator can answer an allocation. -/
theorem realMalloc_cases {answer : RealAnswer} {size : Nat} {heap after : LibcHeap}
    {ptr : Word} (hreal : realMalloc answer size heap = some (ptr, after)) :
    (answer = .refuse ∧ ptr = nullptr ∧ after = heap) ∨
      (answer ≠ .refuse ∧ heap.Fresh ptr ∧ after = heap.place ptr size) := by
  cases answer with
  | refuse =>
      simp only [realMalloc, Option.some.injEq, Prod.mk.injEq] at hreal
      exact Or.inl ⟨rfl, hreal.1.symm, hreal.2.symm⟩
  | block address =>
      simp only [realMalloc, Option.ite_none_right_eq_some, Option.some.injEq,
        Prod.mk.injEq] at hreal
      rcases hreal with ⟨hfresh, rfl, rfl⟩
      exact Or.inr ⟨by simp, hfresh, rfl⟩
  | inPlace => simp [realMalloc] at hreal

/-- A `calloc` is a `malloc` of the product, refused where the product does not
fit. -/
theorem realCalloc_eq (answer : RealAnswer) (nmemb size : Word) (heap : LibcHeap) :
    realCalloc answer nmemb.toNat size.toNat heap =
      realMalloc (if ProductFits nmemb.toNat size.toNat then answer else .refuse)
        (nmemb * size).toNat heap := by
  by_cases hfits : ProductFits nmemb.toNat size.toNat
  · have htotal : (nmemb * size).toNat = nmemb.toNat * size.toNat := by
      rw [BitVec.toNat_mul, Nat.mod_eq_of_lt hfits]
    rw [realCalloc, if_pos hfits, if_pos hfits, htotal]
  · rw [realCalloc, if_neg hfits, if_neg hfits, realMalloc, realMalloc]

/-- Release a block; `none` when the pointer is not one to release. -/
def realFree (ptr : Word) (heap : LibcHeap) : Option LibcHeap :=
  if ptr = nullptr then some heap
  else if (heap.live ptr).isSome then some (heap.release ptr) else none

/-- `realloc` of null allocates, of size 0 releases; otherwise the block grows in
place, moves, or is left alone when the call fails. -/
def realRealloc (answer : RealAnswer) (ptr : Word) (size : Nat) (heap : LibcHeap) :
    Option (Word × LibcHeap) :=
  if ptr = nullptr then realMalloc answer size heap
  else if (heap.live ptr).isNone then none
  else if size = 0 then some (nullptr, heap.release ptr)
  else
    match answer with
    | .refuse => some (nullptr, heap)
    | .inPlace => some (ptr, heap.place ptr size)
    | .block address =>
        if heap.Fresh address then
          some (address, (heap.release ptr).place address size)
        else none

def realMemalign (answer : RealAnswer) (_alignment size : Nat) (heap : LibcHeap) :
    Option (Word × LibcHeap) :=
  realMalloc answer size heap

/-- `ENOMEM`, which stands for every error code of `posix_memalign`. -/
def enomem : Nat := 12

/-- `posix_memalign` stores the address through `memptr` on success only. -/
def realPosixMemalign (answer : RealAnswer) (memptr : Option Word)
    (_alignment size : Nat) (heap : LibcHeap) :
    Option (Nat × Option Word × LibcHeap) :=
  match answer, memptr with
  | .refuse, memptr => some (enomem, memptr, heap)
  | .block address, some _ =>
      if heap.Fresh address then some (0, some address, heap.place address size)
      else none
  | _, _ => none

/-- A successful `posix_memalign` stores a new block, any other changes nothing. -/
theorem realPosixMemalign_cases {answer : RealAnswer} {memptr stored : Option Word}
    {alignment size res : Nat} {heap heap' : LibcHeap}
    (hreal : realPosixMemalign answer memptr alignment size heap =
      some (res, stored, heap')) :
    (answer = .refuse ∧ res ≠ 0 ∧ heap' = heap) ∨
      (∃ ptr, res = 0 ∧ stored = some ptr ∧ ptr ≠ nullptr ∧
        realMalloc answer size heap = some (ptr, heap')) := by
  cases answer with
  | refuse =>
      obtain ⟨rfl, rfl, rfl⟩ := hreal
      exact .inl ⟨rfl, by decide, rfl⟩
  | inPlace => simp [realPosixMemalign] at hreal
  | block address =>
      cases memptr with
      | none => simp [realPosixMemalign] at hreal
      | some stale =>
          simp only [realPosixMemalign, Option.ite_none_right_eq_some,
            Option.some.injEq, Prod.mk.injEq] at hreal
          obtain ⟨hfresh, rfl, rfl, rfl⟩ := hreal
          exact .inr ⟨address, rfl, rfl, hfresh.1, by rw [realMalloc, if_pos hfresh]⟩

end Domovoy
