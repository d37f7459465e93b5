/-
Programs that read a partial memory: every address they read is logged, and a read of an
unmapped one ends them.
-/
import Mathlib.Logic.Function.Iterate
import Mathlib.Tactic.Common

namespace LoggedReads

universe u v

variable {A : Type u} {B C : Type v}

/-- The addresses read, in order, and the value; no value after a fault. -/
structure Reading (A : Type u) (B : Type v) where
  reads : List A
  result : Option B

instance : Monad (Reading A) where
  pure value := ⟨[], some value⟩
  bind program next :=
    match program.result with
    | none => ⟨program.reads, none⟩
    | some value => ⟨program.reads ++ (next value).reads, (next value).result⟩

def load (memory : A → Option B) (address : A) : Reading A B :=
  ⟨[address], memory address⟩

/-- Read every address of the list. -/
def loads (memory : A → Option B) : List A → Reading A (List B)
  | [] => pure []
  | address :: rest => do
      let value ← load memory address
      let values ← loads memory rest
      pure (value :: values)

/-- Read on from `address` up to the first `stop`, which is not part of the result, and no
further than `fuel` addresses. -/
def loadUntil [DecidableEq B] (memory : A → Option B) (stop : B) (next : A → A) :
    Nat → A → Reading A (List B)
  | 0, _ => ⟨[], none⟩
  | fuel + 1, address => do
      let value ← load memory address
      if value = stop then pure []
      else do
        let values ← loadUntil memory stop next fuel (next address)
        pure (value :: values)

/-- Every address read is in `inside`. -/
def Reading.Within (inside : A → Prop) (program : Reading A B) : Prop :=
  ∀ address ∈ program.reads, inside address

variable {inside : A → Prop} {memory : A → Option B}

@[simp] theorem within_pure (value : B) :
    (pure value : Reading A B).Within inside :=
  fun _ haddress => absurd haddress List.not_mem_nil

@[simp] theorem within_bind {program : Reading A B} {next : B → Reading A C} :
    (program >>= next).Within inside ↔
      program.Within inside ∧
        ∀ value, program.result = some value → (next value).Within inside := by
  rcases program with ⟨reads, _ | value⟩
  · exact (and_iff_left nofun).symm
  · simp only [Reading.Within, bind, List.mem_append, or_imp, forall_and,
      Option.some.injEq, forall_eq']

@[simp] theorem within_load {address : A} :
    (load memory address).Within inside ↔ inside address := by
  simp [Reading.Within, load]

/-- A branch that reads nothing else. -/
@[simp] theorem within_ite {p : Prop} [Decidable p] {program : Reading A B} {value : B} :
    (if p then program else pure value).Within inside ↔ (p → program.Within inside) := by
  by_cases hp : p
  · simp [hp]
  · simp [hp]

@[simp] theorem load_result (address : A) :
    (load memory address).result = memory address := rfl

/-- Where everything inside is mapped, a list of reads stays inside exactly when all its
addresses do. -/
theorem within_loads (hmapped : ∀ address, inside address → (memory address).isSome)
    {addresses : List A} :
    (loads memory addresses).Within inside ↔ ∀ address ∈ addresses, inside address := by
  induction addresses with
  | nil => simp [loads]
  | cons address rest ih =>
      rw [loads, within_bind, within_load, List.forall_mem_cons]
      refine and_congr_right fun haddress => ?_
      obtain ⟨value, hvalue⟩ := Option.isSome_iff_exists.mp (hmapped address haddress)
      simp [hvalue, ih]

/-- A scan stays inside exactly when no address outside follows on addresses inside that do
not hold `stop`. -/
theorem within_loadUntil [DecidableEq B] {stop : B} {next : A → A}
    (hmapped : ∀ address, inside address → (memory address).isSome) {fuel : Nat}
    {address : A} :
    (loadUntil memory stop next fuel address).Within inside ↔
      ∀ n < fuel, (∀ i < n, inside (next^[i] address) ∧ memory (next^[i] address) ≠ some stop) →
        inside (next^[n] address) := by
  induction fuel generalizing address with
  | zero => simp [loadUntil, Reading.Within]
  | succ fuel ih =>
      rw [loadUntil, within_bind, within_load]
      constructor
      · rintro ⟨haddress, hrest⟩ n hn hbefore
        cases n with
        | zero => exact haddress
        | succ n =>
            obtain ⟨value, hvalue⟩ := Option.isSome_iff_exists.mp (hmapped address haddress)
            have hne : value ≠ stop := by
              rintro rfl
              exact (hbefore 0 (Nat.succ_pos n)).2 hvalue
            have hscan := hrest value hvalue
            rw [if_neg hne, within_bind] at hscan
            refine ih.mp hscan.1 n (Nat.lt_of_succ_lt_succ hn) fun i hi => ?_
            exact hbefore (i + 1) (Nat.succ_lt_succ hi)
      · intro hall
        have haddress : inside address := hall 0 (Nat.succ_pos fuel) nofun
        refine ⟨haddress, fun value hvalue => ?_⟩
        split
        next => exact within_pure []
        next hne =>
          rw [within_bind]
          refine ⟨ih.mpr fun n hn hbefore => ?_, fun _ _ => within_pure _⟩
          refine hall (n + 1) (Nat.succ_lt_succ hn) fun i hi => ?_
          cases i with
          | zero =>
              refine ⟨haddress, fun hstop => hne ?_⟩
              exact Option.some.inj (hvalue.symm.trans hstop)
          | succ i => exact hbefore i (Nat.lt_of_succ_lt_succ hi)

/-- A program whose faults are caught; `fallback` is what then holds. -/
def Reading.caught (fallback : B) (program : Reading A B) : Reading A B :=
  ⟨program.reads, some (program.result.getD fallback)⟩

@[simp] theorem caught_result (fallback : B) (program : Reading A B) :
    (program.caught fallback).result = some (program.result.getD fallback) := rfl

@[simp] theorem pure_result (value : B) : (pure value : Reading A B).result = some value := rfl

@[simp] theorem bind_result (program : Reading A B) (next : B → Reading A C) :
    (program >>= next).result = program.result.bind fun value => (next value).result := by
  rcases program with ⟨reads, _ | value⟩ <;> rfl

/-- A read that is made where it cannot fault: what follows it decides. -/
theorem guarded_isSome_iff {p : Prop} [Decidable p] {program : Reading A B}
    {next : B → Reading A C} {fallback : C} (hreads : p → program.result.isSome) :
    (if p then program >>= next else pure fallback).result.isSome ↔
      (p → ∀ value, program.result = some value → (next value).result.isSome) := by
  by_cases hp : p
  · obtain ⟨value, hvalue⟩ := Option.isSome_iff_exists.mp (hreads hp)
    simp [hp, hvalue]
  · simp [hp]

/-- A list of reads faults exactly when one of them does. -/
theorem loads_isSome_iff {addresses : List A} :
    (loads memory addresses).result.isSome ↔ ∀ address ∈ addresses, (memory address).isSome := by
  induction addresses with
  | nil => simp [loads]
  | cons address rest ih =>
      rw [List.forall_mem_cons, ← ih, loads, bind_result, load_result]
      cases memory address with
      | none => simp
      | some value =>
          simp only [Option.bind_some, bind_result, pure_result, Option.isSome_some, true_and]
          cases (loads memory rest).result <;> simp

/-- A scan ends exactly when `stop` is found before an address that is not mapped, and
within `fuel` addresses. -/
theorem loadUntil_isSome_iff [DecidableEq B] {stop : B} {next : A → A} {fuel : Nat}
    {address : A} :
    (loadUntil memory stop next fuel address).result.isSome ↔
      ∃ n < fuel, memory (next^[n] address) = some stop ∧
        ∀ i < n, (memory (next^[i] address)).isSome := by
  induction fuel generalizing address with
  | zero => simp [loadUntil]
  | succ fuel ih =>
      rw [loadUntil, bind_result, load_result]
      cases hvalue : memory address with
      | none =>
          refine iff_of_false (by simp) ?_
          rintro ⟨n, -, hstop, hbefore⟩
          cases n with
          | zero =>
              rw [Function.iterate_zero_apply, hvalue] at hstop
              contradiction
          | succ n =>
              have hfirst := hbefore 0 (Nat.succ_pos n)
              rw [Function.iterate_zero_apply, hvalue] at hfirst
              contradiction
      | some value =>
          rw [Option.bind_some]
          by_cases hstop : value = stop
          · rw [if_pos hstop]
            refine iff_of_true rfl ⟨0, Nat.succ_pos fuel, ?_, nofun⟩
            rw [Function.iterate_zero_apply, hvalue, hstop]
          · have hrest : (loadUntil memory stop next fuel (next address)).result.isSome ↔ _ := ih
            rw [if_neg hstop, bind_result]
            have hcons : ((loadUntil memory stop next fuel (next address)).result.bind
                fun values => (pure (value :: values) : Reading A (List B)).result).isSome ↔
                  (loadUntil memory stop next fuel (next address)).result.isSome := by
              cases (loadUntil memory stop next fuel (next address)).result <;> simp
            rw [hcons, hrest]
            constructor
            · rintro ⟨n, hn, hfound, hbefore⟩
              refine ⟨n + 1, Nat.succ_lt_succ hn, hfound, fun i hi => ?_⟩
              cases i with
              | zero =>
                  rw [Function.iterate_zero_apply, hvalue]
                  rfl
              | succ i => exact hbefore i (Nat.lt_of_succ_lt_succ hi)
            · rintro ⟨n, hn, hfound, hbefore⟩
              cases n with
              | zero =>
                  rw [Function.iterate_zero_apply, hvalue] at hfound
                  exact absurd (Option.some.inj hfound) hstop
              | succ n =>
                  exact ⟨n, Nat.lt_of_succ_lt_succ hn, hfound, fun i hi =>
                    hbefore (i + 1) (Nat.succ_lt_succ hi)⟩

end LoggedReads
