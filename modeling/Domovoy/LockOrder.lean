/-
Locks that are taken in the order of their levels: a thread that waits does so, through
the owners of the locks, for one that can go on or for one that waits for itself.
-/
import Domovoy.LockStacks
import Mathlib.Logic.Relation

namespace LockStacks

open Relation

universe u v w

variable {Tid : Type u} {Lock : Type v} {Frame : Type w}

/-- The lock that the next step of the running call takes. -/
def wanted (wants : Frame → Option Lock) : List Frame → Option Lock
  | [] => none
  | frame :: _ => wants frame

/-- The next step of `t` takes a lock that `u` owns. -/
def Threads.WaitsFor (wants : Frame → Option Lock) (s : Threads Tid Lock Frame)
    (t u : Tid) : Prop :=
  ∃ lock, wanted wants (s.stack t) = some lock ∧ s.owner lock = some u

/-- A lock is taken only by calls that hold no lock of the same level or a lower one,
unless it is the lock itself. -/
def Ordered (level : Lock → Nat) (holds : Frame → Lock → Bool)
    (wants : Frame → Option Lock) (frames : List Frame) : Prop :=
  ∀ lock, wanted wants frames = some lock → ∀ frame ∈ frames, ∀ other,
    holds frame other = true → other = lock ∨ level lock < level other

/-- `t` waits, directly or through other threads, for one that can take its next step or
that waits for itself. -/
def Threads.Awaits (wants : Frame → Option Lock) (s : Threads Tid Lock Frame)
    (t u : Tid) : Prop :=
  ReflTransGen (s.WaitsFor wants) t u ∧
    (s.WaitsFor wants u u ∨ ∀ v, ¬ s.WaitsFor wants u v)

variable {wants : Frame → Option Lock} {s : Threads Tid Lock Frame}

/-- A thread that waits for nobody finds its lock free. -/
theorem Threads.owner_eq_none {t : Tid} {lock : Lock}
    (hgoes : ∀ u, ¬ s.WaitsFor wants t u) (hwanted : wanted wants (s.stack t) = some lock) :
    s.owner lock = none := by
  cases howner : s.owner lock with
  | none => rfl
  | some u => exact absurd ⟨lock, hwanted, howner⟩ (hgoes u)

variable [DecidableEq Tid] {holds : Frame → Lock → Bool} {level : Lock → Nat}

theorem Exact.not_idle (hexact : Exact holds s) {t u : Tid}
    (hwaits : s.WaitsFor wants t u) : s.stack u ≠ [] := by
  obtain ⟨lock, -, howner⟩ := hwaits
  obtain ⟨frame, hframe, -⟩ := hexact.owner_iff.mp howner
  exact List.ne_nil_of_mem hframe

/-- What an owner waits for is a lock of its own or one of a lower level. -/
theorem Exact.waitsFor_lower (hexact : Exact holds s)
    (hordered : ∀ t, Ordered level holds wants (s.stack t)) {t : Tid} {held lock : Lock}
    (howner : s.owner held = some t) (hwanted : wanted wants (s.stack t) = some lock) :
    held = lock ∨ level lock < level held := by
  obtain ⟨frame, hframe, hholds⟩ := hexact.owner_iff.mp howner
  exact hordered t lock hwanted frame hframe held hholds

theorem Exact.awaits_of_level (hexact : Exact holds s)
    (hordered : ∀ t, Ordered level holds wants (s.stack t)) {t u : Tid} {lock : Lock}
    (hwanted : wanted wants (s.stack t) = some lock) (howner : s.owner lock = some u) :
    ∃ v, s.Awaits wants t v := by
  induction hlevel : level lock using Nat.strongRecOn generalizing t u lock with
  | ind n ih =>
      have hwaits : s.WaitsFor wants t u := ⟨lock, hwanted, howner⟩
      by_cases hgoes : ∃ v, s.WaitsFor wants u v
      · obtain ⟨v, next, hnext, hnextOwner⟩ := hgoes
        rcases hexact.waitsFor_lower hordered howner hnext with rfl | hlower
        · exact ⟨u, .single hwaits, Or.inl ⟨lock, hnext, howner⟩⟩
        · rw [hlevel] at hlower
          obtain ⟨last, hchain, hends⟩ := ih _ hlower hnext hnextOwner rfl
          exact ⟨last, .head hwaits hchain, hends⟩
      · exact ⟨u, .single hwaits, Or.inr (not_exists.mp hgoes)⟩

/-- No cycle of waiting threads is longer than one: every thread waits for one that can
go on or that waits for itself. -/
theorem Exact.awaits (hexact : Exact holds s)
    (hordered : ∀ t, Ordered level holds wants (s.stack t)) (t : Tid) :
    ∃ u, s.Awaits wants t u := by
  by_cases hgoes : ∃ u, s.WaitsFor wants t u
  · obtain ⟨u, lock, hwanted, howner⟩ := hgoes
    exact hexact.awaits_of_level hordered hwanted howner
  · exact ⟨t, .refl, Or.inr (not_exists.mp hgoes)⟩

/-- The last thread of the chain is in a call as the first one is. -/
theorem Exact.awaits_not_idle (hexact : Exact holds s) {t u : Tid}
    (hchain : ReflTransGen (s.WaitsFor wants) t u) (hopen : s.stack t ≠ []) :
    s.stack u ≠ [] := by
  cases hchain with
  | refl => exact hopen
  | tail _ hwaits => exact hexact.not_idle hwaits

end LockStacks
