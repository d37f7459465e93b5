/-
Rounding a machine word up to a power-of-two boundary with a bit mask, and the
half-open address ranges that such words delimit.
-/
import Mathlib.Data.BitVec
import Mathlib.Order.CompletePartialOrder
import Mathlib.Order.Interval.Set.Disjoint
import Mathlib.Tactic.Ring

namespace WordAlign

/-- Addresses and sizes of a 64-bit target. -/
abbrev Word := BitVec 64

/-- The usual mask rounding `(x + a - 1) & ~(a - 1)`, modulo `2 ^ 64`. -/
def alignUp (x a : Word) : Word :=
  (x + a - 1) &&& ~~~(a - 1)

/-- `a` is a power of two below `2 ^ 64`. -/
def IsPow2 (a : Word) : Prop :=
  ∃ k < 64, a.toNat = 2 ^ k

theorem IsPow2.pos {a : Word} (ha : IsPow2 a) : 0 < a.toNat := by
  obtain ⟨k, _, hk⟩ := ha
  rw [hk]
  exact Nat.two_pow_pos k

theorem toNat_sub_one {a : Word} (ha : 0 < a.toNat) :
    (a - 1).toNat = a.toNat - 1 := by
  have hone : (1 : Word) ≤ a := by
    rw [BitVec.le_def]
    exact ha
  rw [BitVec.toNat_sub_of_le hone]
  rfl

/-- Clearing the bits of a mask splits a word into two summands that share no
bit. -/
theorem and_add_and_not (x m : Word) : (x &&& m) + (x &&& ~~~m) = x := by
  have hdisjoint : (x &&& m) &&& (x &&& ~~~m) = 0#64 := by
    apply BitVec.eq_of_getLsbD_eq
    intro i _
    simp only [BitVec.getLsbD_and, BitVec.getLsbD_not, BitVec.getLsbD_zero]
    cases x.getLsbD i <;> cases m.getLsbD i <;> simp
  rw [BitVec.add_eq_or_of_and_eq_zero _ _ hdisjoint]
  apply BitVec.eq_of_getLsbD_eq
  intro i hi
  simp only [BitVec.getLsbD_and, BitVec.getLsbD_not, BitVec.getLsbD_or, hi]
  cases x.getLsbD i <;> cases m.getLsbD i <;> rfl

/-- Masking with `~(a - 1)` rounds down to a multiple of the power of two `a`. -/
theorem toNat_and_not_sub_one {a : Word} (ha : IsPow2 a) (x : Word) :
    (x &&& ~~~(a - 1)).toNat = x.toNat / a.toNat * a.toNat := by
  have hlow : (x &&& (a - 1)).toNat = x.toNat % a.toNat := by
    have hpos := ha.pos
    obtain ⟨k, _, hk⟩ := ha
    rw [BitVec.toNat_and, toNat_sub_one hpos, hk,
      Nat.and_two_pow_sub_one_eq_mod]
  have hsum := congrArg BitVec.toNat (and_add_and_not x (a - 1))
  have hle : (x &&& ~~~(a - 1)).toNat ≤ x.toNat := by
    rw [BitVec.toNat_and]
    exact Nat.and_le_left
  have hlowLe : x.toNat % a.toNat ≤ x.toNat := Nat.mod_le _ _
  rw [BitVec.toNat_add, hlow] at hsum
  have hdiv := Nat.div_add_mod' x.toNat a.toNat
  have hx := x.isLt
  by_cases hwrap : x.toNat % a.toNat + (x &&& ~~~(a - 1)).toNat < 2 ^ 64
  · rw [Nat.mod_eq_of_lt hwrap] at hsum
    omega
  · omega

/-- As long as the intermediate sum does not wrap, the mask computes the exact
ceiling. -/
theorem toNat_alignUp {x a : Word} (ha : IsPow2 a)
    (hroom : x.toNat + a.toNat ≤ 2 ^ 64) :
    (alignUp x a).toNat = (x.toNat + a.toNat - 1) / a.toNat * a.toNat := by
  have hpos := ha.pos
  have hbound : (x + a - 1).toNat = x.toNat + a.toNat - 1 := by
    rw [show x + a - 1 = x + (a - 1) by ring, BitVec.toNat_add,
      toNat_sub_one hpos, Nat.mod_eq_of_lt (by omega)]
    omega
  rw [alignUp, toNat_and_not_sub_one ha, hbound]

theorem dvd_alignUp {x a : Word} (ha : IsPow2 a) :
    a.toNat ∣ (alignUp x a).toNat := by
  rw [alignUp, toNat_and_not_sub_one ha]
  exact Nat.dvd_mul_left _ _

theorem le_alignUp {x a : Word} (ha : IsPow2 a)
    (hroom : x.toNat + a.toNat ≤ 2 ^ 64) :
    x.toNat ≤ (alignUp x a).toNat := by
  have hpos := ha.pos
  have hdiv := Nat.div_add_mod' (x.toNat + a.toNat - 1) a.toNat
  have hmod := Nat.mod_lt (x.toNat + a.toNat - 1) hpos
  rw [toNat_alignUp ha hroom]
  omega

theorem alignUp_lt {x a : Word} (ha : IsPow2 a)
    (hroom : x.toNat + a.toNat ≤ 2 ^ 64) :
    (alignUp x a).toNat < x.toNat + a.toNat := by
  have hpos := ha.pos
  have hdiv := Nat.div_add_mod' (x.toNat + a.toNat - 1) a.toNat
  rw [toNat_alignUp ha hroom]
  omega

/-- The padding inserted before an aligned address is shorter than the
alignment. -/
theorem toNat_padding {x a : Word} (ha : IsPow2 a)
    (hroom : x.toNat + a.toNat ≤ 2 ^ 64) :
    x.toNat + (alignUp x a - x).toNat = (alignUp x a).toNat ∧
      (alignUp x a - x).toNat < a.toNat := by
  have hle := le_alignUp ha hroom
  have hlt := alignUp_lt ha hroom
  rw [BitVec.toNat_sub_of_le (BitVec.le_def.mpr hle)]
  omega

/-- The padding is what the mask leaves of `a - 1`; nothing here depends on a sum that
does not wrap. -/
theorem alignUp_sub_eq (x a : Word) :
    alignUp x a - x = (a - 1) - ((x + (a - 1)) &&& (a - 1)) := by
  have hsplit := and_add_and_not (x + (a - 1)) (a - 1)
  have hup : alignUp x a = (x + (a - 1)) &&& ~~~(a - 1) := by
    rw [alignUp, show x + a - 1 = x + (a - 1) by ring]
  rw [hup, eq_sub_of_add_eq' hsplit]
  ring

theorem padding_lt {x a : Word} (ha : IsPow2 a) :
    (alignUp x a - x).toNat < a.toNat := by
  have hpos := ha.pos
  have hle : ((x + (a - 1)) &&& (a - 1)).toNat ≤ (a - 1).toNat := by
    rw [BitVec.toNat_and]
    exact Nat.and_le_right
  rw [alignUp_sub_eq, BitVec.toNat_sub_of_le (BitVec.le_def.mpr hle), toNat_sub_one hpos]
  omega

/-- Whatever wraps, the padding leads to the least multiple from `x` on. -/
theorem isLeast_padded {x a : Word} (ha : IsPow2 a) :
    IsLeast { y | x.toNat ≤ y ∧ a.toNat ∣ y } (x.toNat + (alignUp x a - x).toNat) := by
  have hshort := padding_lt (x := x) ha
  have hdvd : a.toNat ∣ x.toNat + (alignUp x a - x).toNat := by
    have hup := dvd_alignUp (x := x) ha
    have hsum : (alignUp x a).toNat =
        (x.toNat + (alignUp x a - x).toNat) % 2 ^ 64 := by
      rw [← BitVec.toNat_add, show x + (alignUp x a - x) = alignUp x a by ring]
    obtain ⟨k, hk, ha⟩ := ha
    have hspace : a.toNat ∣ 2 ^ 64 := by
      rw [ha]
      exact Nat.pow_dvd_pow 2 (Nat.le_of_lt hk)
    rw [hsum] at hup
    exact (Nat.dvd_mod_iff hspace).mp hup
  refine ⟨⟨Nat.le_add_right _ _, hdvd⟩, ?_⟩
  rintro y ⟨hle, hy⟩
  by_contra hless
  have hgap := Nat.le_of_dvd (by omega) (Nat.dvd_sub hdvd hy)
  omega

theorem toNat_alignUp_eq {x a : Word}
    (hroom : x.toNat + (alignUp x a - x).toNat < 2 ^ 64) :
    (alignUp x a).toNat = x.toNat + (alignUp x a - x).toNat := by
  have hsum : alignUp x a = x + (alignUp x a - x) := by ring
  rw [hsum, BitVec.toNat_add, Nat.mod_eq_of_lt (by simpa using hroom)]
  congr 2
  ring

/-- The larger of two unsigned words. -/
def maxWord (a b : Word) : Word :=
  if a < b then b else a

@[simp] theorem toNat_maxWord (a b : Word) :
    (maxWord a b).toNat = max a.toNat b.toNat := by
  rw [maxWord]
  split
  next hlt =>
    rw [BitVec.lt_def] at hlt
    omega
  next hge =>
    rw [BitVec.lt_def] at hge
    omega

/-- The addresses `[start, start + length)`, as unbounded naturals. -/
def range (start length : Nat) : Set Nat :=
  Set.Ico start (start + length)

theorem range_subset_range {start length outer outerLength : Nat}
    (hlow : outer ≤ start) (hhigh : start + length ≤ outer + outerLength) :
    range start length ⊆ range outer outerLength :=
  Set.Ico_subset_Ico hlow hhigh

theorem range_disjoint_of_le {start length start' length' : Nat}
    (hle : start + length ≤ start') :
    Disjoint (range start length) (range start' length') := by
  rw [Set.disjoint_left]
  intro address hleft hright
  have := hleft.2
  have := hright.1
  omega

/-- Parts of disjoint ranges are disjoint. -/
theorem range_disjoint_mono {start length start' length' : Nat}
    {outer outerLength outer' outerLength' : Nat}
    (hdisjoint : Disjoint (range outer outerLength) (range outer' outerLength'))
    (hleft : range start length ⊆ range outer outerLength)
    (hright : range start' length' ⊆ range outer' outerLength') :
    Disjoint (range start length) (range start' length') :=
  Set.disjoint_of_subset hleft hright hdisjoint

end WordAlign
