/-
The mark step of the leak detection: which records one pointer value marks, and which a
sequence of values marks when the blocks lie apart from one another.
-/
import Mathlib.Data.List.Lookmap
import Domovoy.Sessions

namespace Domovoy

open WordAlign

/-- `addr >= base && addr < (base + alloc.size)`. -/
def AllocationRecord.Holds (alloc : AllocationRecord) (addr : Word) : Prop :=
  alloc.address ≤ addr ∧ addr < alloc.address + alloc.size

instance AllocationRecord.decidableHolds (alloc : AllocationRecord) (addr : Word) :
    Decidable (alloc.Holds addr) :=
  inferInstanceAs (Decidable (_ ∧ _))

/-- `MarkReachability`: the loop returns at the first record that the value points into. -/
def markReachability (ptrValue : Word) (allocations : List AllocationRecord) :
    List AllocationRecord :=
  allocations.lookmap fun alloc =>
    if alloc.Holds ptrValue then some { alloc with marked := true } else none

/-- One call for each pointer value. -/
def markAll (allocations : List AllocationRecord) (values : List Word) :
    List AllocationRecord :=
  values.foldl (fun allocations value => markReachability value allocations) allocations

/-- The addresses of the block. -/
def AllocationRecord.range (alloc : AllocationRecord) : Set Nat :=
  WordAlign.range alloc.address.toNat alloc.size.toNat

/-- The end of the block is an address, too. -/
def AllocationRecord.Unwrapped (alloc : AllocationRecord) : Prop :=
  alloc.address.toNat + alloc.size.toNat < 2 ^ 64

/-- Blocks as an allocator hands them out. -/
structure BlocksApart (allocations : List AllocationRecord) : Prop where
  unwrapped : ∀ alloc ∈ allocations, alloc.Unwrapped
  apart : allocations.Pairwise fun a b => Disjoint a.range b.range

/-- The record after the pass: nothing but its mark has changed, and it is marked if and
only if it was before or one of the values points into the block. -/
structure AllocationRecord.MarkedBy (values : List Word) (before after : AllocationRecord) :
    Prop where
  address : after.address = before.address
  size : after.size = before.size
  marked : after.marked = true ↔
    before.marked = true ∨ ∃ value ∈ values, value.toNat ∈ before.range

/-- A first match is the only one when no two elements match. -/
theorem lookmap_eq_map {α : Type} {f : α → Option α} {xs : List α}
    (honce : xs.Pairwise fun x y => f x = none ∨ f y = none) :
    xs.lookmap f = xs.map fun x => (f x).getD x := by
  induction xs with
  | nil => rfl
  | cons x xs ih =>
      obtain ⟨hx, hrest⟩ := List.pairwise_cons.mp honce
      rw [List.map_cons]
      cases hfound : f x with
      | none => rw [List.lookmap_cons_none f xs hfound, ih hrest, Option.getD_none]
      | some y =>
          have hnone : ∀ z ∈ xs, f z = none := by
            intro z hz
            refine (hx z hz).resolve_left ?_
            rw [hfound]
            exact Option.some_ne_none y
          rw [List.lookmap_cons_some f xs hfound, Option.getD_some, List.cons_inj_right,
            ← ih hrest, List.lookmap_of_forall_not f hnone]

/-- The test is exact as long as the end of the block does not wrap. -/
theorem AllocationRecord.Unwrapped.holds_iff {alloc : AllocationRecord}
    (hunwrapped : alloc.Unwrapped) (addr : Word) :
    alloc.Holds addr ↔ addr.toNat ∈ alloc.range := by
  have hend : (alloc.address + alloc.size).toNat =
      alloc.address.toNat + alloc.size.toNat := by
    rw [BitVec.toNat_add]
    exact Nat.mod_eq_of_lt hunwrapped
  rw [Holds, BitVec.le_def, BitVec.lt_def, hend]
  rfl

/-- What one call does to a record, whichever record it is. -/
def AllocationRecord.mark (value : Word) (alloc : AllocationRecord) : AllocationRecord :=
  { alloc with marked := alloc.marked || decide (alloc.Holds value) }

theorem BlocksApart.markReachability_eq_map {allocations : List AllocationRecord}
    (hblocks : BlocksApart allocations) (value : Word) :
    markReachability value allocations = allocations.map (AllocationRecord.mark value) := by
  rw [markReachability, lookmap_eq_map]
  · apply List.map_congr_left
    intro alloc _
    by_cases hholds : alloc.Holds value
    · simp [AllocationRecord.mark, hholds]
    · simp [AllocationRecord.mark, hholds]
  · refine List.Pairwise.imp_of_mem ?_ hblocks.apart
    intro a b ha hb hapart
    by_contra hboth
    simp only [ite_eq_right_iff, reduceCtorEq, imp_false, not_or, not_not] at hboth
    rw [(hblocks.unwrapped a ha).holds_iff, (hblocks.unwrapped b hb).holds_iff] at hboth
    exact Set.disjoint_left.mp hapart hboth.1 hboth.2

/-- Marking moves no block. -/
theorem BlocksApart.map_mark {allocations : List AllocationRecord}
    (hblocks : BlocksApart allocations) (value : Word) :
    BlocksApart (allocations.map (AllocationRecord.mark value)) where
  unwrapped := by
    rw [List.forall_mem_map]
    exact hblocks.unwrapped
  apart := List.pairwise_map.mpr hblocks.apart

/-- A sequence of calls treats every record by itself. -/
theorem BlocksApart.markAll_eq_map {allocations : List AllocationRecord}
    (hblocks : BlocksApart allocations) (values : List Word) :
    markAll allocations values = allocations.map fun alloc =>
      { alloc with marked := alloc.marked || values.any fun value => alloc.Holds value } := by
  induction values generalizing allocations with
  | nil => simp [markAll]
  | cons value values ih =>
      have hrest := ih (hblocks.map_mark value)
      rw [markAll] at hrest ⊢
      rw [List.foldl_cons, hblocks.markReachability_eq_map, hrest, List.map_map]
      apply List.map_congr_left
      intro alloc _
      simp only [Function.comp_apply, AllocationRecord.mark, List.any_cons, Bool.or_assoc]
      rfl

/-- One call for each of any values marks the blocks that one of them points into, and
changes nothing else; neither the order of the values nor their repetition matters. -/
theorem markReachability_exact (allocations : List AllocationRecord)
    (hblocks : BlocksApart allocations) (values : List Word) :
    List.Forall₂ (AllocationRecord.MarkedBy values) allocations
        (markAll allocations values) ∧
      ∀ values' : List Word, (∀ value, value ∈ values' ↔ value ∈ values) →
        markAll allocations values' = markAll allocations values := by
  refine ⟨?_, ?_⟩
  · rw [hblocks.markAll_eq_map, List.forall₂_map_right_iff, List.forall₂_same]
    intro alloc hmem
    refine ⟨rfl, rfl, ?_⟩
    simp only [Bool.or_eq_true, List.any_eq_true, decide_eq_true_eq,
      (hblocks.unwrapped alloc hmem).holds_iff]
  · intro values' hsame
    rw [hblocks.markAll_eq_map, hblocks.markAll_eq_map]
    apply List.map_congr_left
    intro alloc _
    have hany : (values'.any fun value => alloc.Holds value) =
        values.any fun value => alloc.Holds value := by
      rw [Bool.eq_iff_iff, List.any_eq_true, List.any_eq_true]
      simp only [hsame]
    rw [hany]

namespace MarkWitness

/-- Two adjacent blocks and an empty one, the second marked. -/
def blocks : List AllocationRecord :=
  [⟨0x1000, 0x10, false⟩, ⟨0x1010, 0x10, true⟩, ⟨0x2000, 0, false⟩]

theorem blocks_apart : BlocksApart blocks where
  unwrapped := by simp [blocks, AllocationRecord.Unwrapped]
  apart := by
    simp only [blocks, AllocationRecord.range]
    refine List.pairwise_cons.mpr ⟨?_, List.pairwise_pair.mpr ?_⟩
    · simp only [List.forall_mem_cons]
      refine ⟨range_disjoint_of_le (by decide), range_disjoint_of_le (by decide), ?_⟩
      simp
    · exact range_disjoint_of_le (by decide)

theorem blocks_marked :
    List.Forall₂ (AllocationRecord.MarkedBy [0x100f, 0x2000]) blocks
        (markAll blocks [0x100f, 0x2000]) ∧
      ∀ values' : List Word, (∀ value, value ∈ values' ↔ value ∈ [0x100f, 0x2000]) →
        markAll blocks values' = markAll blocks [0x100f, 0x2000] :=
  markReachability_exact blocks blocks_apart [0x100f, 0x2000]

end MarkWitness

end Domovoy
