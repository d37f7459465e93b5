/-
First fit over an ordered list of arenas, each handing its memory out from the bottom up,
with unbounded natural addresses.
-/
import Mathlib.Order.Bounds.Basic
import Mathlib.Order.Nat
import Mathlib.Algebra.BigOperators.Group.List.Basic
import Mathlib.Algebra.GroupWithZero.Nat

namespace FirstFit

universe u

variable {K : Type u}

/-- The memory `[start, start + capacity)`, whose first `used` bytes are taken. -/
structure Arena (K : Type u) where
  key : K
  start : Nat
  capacity : Nat
  used : Nat

def Arena.bump (arena : Arena K) : Nat :=
  arena.start + arena.used

def Arena.limit (arena : Arena K) : Nat :=
  arena.start + arena.capacity

/-- `address` is the least aligned address that is not below the bump pointer. -/
def Arena.Offers (arena : Arena K) (alignment address : Nat) : Prop :=
  IsLeast { y | arena.bump ≤ y ∧ alignment ∣ y } address

/-- Some aligned chunk of the size lies in the part that is not taken. -/
def Arena.Holds (arena : Arena K) (size alignment : Nat) : Prop :=
  ∃ address, arena.bump ≤ address ∧ alignment ∣ address ∧ address + size ≤ arena.limit

/-- Everything below `top` is taken. -/
def Arena.advance (arena : Arena K) (top : Nat) : Arena K :=
  { arena with used := top - arena.start }

theorem Arena.Offers.holds_iff {arena : Arena K} {alignment address : Nat}
    (hoffers : arena.Offers alignment address) (size : Nat) :
    arena.Holds size alignment ↔ address + size ≤ arena.limit := by
  constructor
  · rintro ⟨other, hbump, hdvd, hlimit⟩
    have hle := hoffers.2 ⟨hbump, hdvd⟩
    omega
  · intro hlimit
    exact ⟨address, hoffers.1.1, hoffers.1.2, hlimit⟩

/-- A request is met from the first arena that holds it; the others are unchanged. -/
inductive Placed (size alignment : Nat) : List (Arena K) → Nat → List (Arena K) → Prop
  | first {before after : List (Arena K)} {arena : Arena K} {address : Nat}
      (hskipped : ∀ other ∈ before, ¬ other.Holds size alignment)
      (hholds : arena.Holds size alignment) (hoffers : arena.Offers alignment address) :
      Placed size alignment (before ++ arena :: after) address
        (before ++ arena.advance (address + size) :: after)

/-- No arena holds the request, and it is met from a new one behind them. -/
inductive Grown (size alignment : Nat) : List (Arena K) → Nat → List (Arena K) → Prop
  | behind {arenas : List (Arena K)} {arena : Arena K} {address : Nat}
      (hnone : ∀ other ∈ arenas, ¬ other.Holds size alignment) (hempty : arena.used = 0)
      (hholds : arena.Holds size alignment) (hoffers : arena.Offers alignment address) :
      Grown size alignment arenas address (arenas ++ [arena.advance (address + size)])

section Frugal

/-- The room that an arena has left. -/
def Arena.room (arena : Arena K) : Nat :=
  arena.capacity - arena.used

def taken (arenas : List (Arena K)) : Nat :=
  (arenas.map Arena.used).sum

def capacity (arenas : List (Arena K)) : Nat :=
  (arenas.map Arena.capacity).sum

/-- The room left in the arenas that another one was put behind. -/
def abandoned (arenas : List (Arena K)) : Nat :=
  (arenas.dropLast.map Arena.room).sum

/-- No more is taken than was asked for, alignments included, and no more is left behind. -/
structure Frugal (demand : Nat) (arenas : List (Arena K)) : Prop where
  taken : taken arenas ≤ demand
  abandoned : abandoned arenas ≤ demand

theorem exists_aligned {alignment : Nat} (hpos : 0 < alignment) (x : Nat) :
    ∃ y, x ≤ y ∧ y < x + alignment ∧ alignment ∣ y := by
  have hmod := Nat.mod_lt (x + (alignment - 1)) hpos
  have hdiv := Nat.div_add_mod (x + (alignment - 1)) alignment
  refine ⟨alignment * ((x + (alignment - 1)) / alignment), ?_, ?_, Nat.dvd_mul_right _ _⟩ <;>
    omega

variable {arena : Arena K} {size alignment address demand : Nat}
  {arenas arenas' : List (Arena K)}

theorem Arena.Offers.lt (hoffers : arena.Offers alignment address) (hpos : 0 < alignment) :
    address < arena.bump + alignment := by
  obtain ⟨y, hbump, hlt, hdvd⟩ := exists_aligned hpos arena.bump
  exact (hoffers.2 ⟨hbump, hdvd⟩).trans_lt hlt

/-- An arena that does not hold the request has less room than the request with its
alignment. -/
theorem Arena.room_lt (hnot : ¬ arena.Holds size alignment) (hpos : 0 < alignment) :
    arena.room < size + alignment := by
  by_contra hroom
  obtain ⟨y, hbump, hlt, hdvd⟩ := exists_aligned hpos arena.bump
  refine hnot ⟨y, hbump, hdvd, ?_⟩
  simp only [room, bump, limit] at hroom hlt ⊢
  omega

/-- The request takes no more than its size and alignment, and leaves less room. -/
theorem Arena.Offers.advance_used (hoffers : arena.Offers alignment address)
    (hpos : 0 < alignment) (size : Nat) :
    arena.used ≤ (arena.advance (address + size)).used ∧
      (arena.advance (address + size)).used ≤ arena.used + (size + alignment) := by
  have hlt := hoffers.lt hpos
  have hle := hoffers.1.1
  simp only [Arena.advance, Arena.bump] at hlt hle ⊢
  omega

theorem abandoned_concat (arenas : List (Arena K)) (arena : Arena K) :
    abandoned (arenas ++ [arena]) = (arenas.map Arena.room).sum := by
  rw [abandoned, List.dropLast_concat]

/-- A request that an arena of the list meets. -/
theorem Frugal.placed (hfrugal : Frugal demand arenas) (hpos : 0 < alignment)
    (hplaced : Placed size alignment arenas address arenas') :
    Frugal (demand + (size + alignment)) arenas' := by
  obtain ⟨htaken, habandoned⟩ := hfrugal
  cases hplaced with
  | @first before after arena _ _ _ hoffers =>
      obtain ⟨hmore, hless⟩ := hoffers.advance_used hpos size
      have hroom : (arena.advance (address + size)).room ≤ arena.room :=
        Nat.sub_le_sub_left hmore arena.capacity
      constructor
      · simp only [FirstFit.taken, List.map_append, List.map_cons, List.sum_append,
          List.sum_cons] at htaken ⊢
        omega
      · cases after with
        | nil =>
            rw [abandoned_concat] at habandoned ⊢
            omega
        | cons next after =>
            simp only [FirstFit.abandoned, List.dropLast_append_cons, List.dropLast_cons_cons,
              List.map_append, List.map_cons, List.sum_append, List.sum_cons] at habandoned ⊢
            omega

/-- A request that a new arena meets leaves behind what the last one had left, which is
less than what it asked for. -/
theorem Frugal.grown (hfrugal : Frugal demand arenas) (hpos : 0 < alignment)
    (hgrown : Grown size alignment arenas address arenas') :
    Frugal (demand + (size + alignment)) arenas' := by
  obtain ⟨htaken, habandoned⟩ := hfrugal
  cases hgrown with
  | @behind arena _ hnone hempty _ hoffers =>
      have hless := (hoffers.advance_used hpos size).2
      rw [hempty, Nat.zero_add] at hless
      constructor
      · simp only [FirstFit.taken, List.map_append, List.map_singleton, List.sum_append,
          List.sum_singleton] at htaken ⊢
        omega
      · rw [abandoned_concat]
        rcases List.eq_nil_or_concat' arenas with rfl | ⟨front, last, rfl⟩
        · simp
        · have hroom := Arena.room_lt (hnone last (by simp)) hpos
          rw [abandoned_concat] at habandoned
          simp only [List.map_append, List.map_singleton, List.sum_append,
            List.sum_singleton]
          omega

end Frugal

end FirstFit
