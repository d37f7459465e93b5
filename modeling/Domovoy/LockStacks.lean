/-
Threads whose call stacks hold non-recursive locks: each frame says which locks it
holds, and the owner of a lock is kept in step with the frames.
-/
import Mathlib.Data.List.Count
import Mathlib.Logic.Function.Basic

namespace LockStacks

universe u v w

variable {Tid : Type u} {Lock : Type v} {Frame : Type w}

/-- The owner of every lock and the frames of every thread, the running one first. -/
structure Threads (Tid : Type u) (Lock : Type v) (Frame : Type w) where
  owner : Lock → Option Tid
  stack : Tid → List Frame

def Threads.initial : Threads Tid Lock Frame where
  owner := fun _ => none
  stack := fun _ => []

section Operations

variable [DecidableEq Tid]

/-- Calls, returns and steps that leave the locks alone. -/
def Threads.setStack (t : Tid) (frames : List Frame) (s : Threads Tid Lock Frame) :
    Threads Tid Lock Frame :=
  { s with stack := Function.update s.stack t frames }

@[simp] theorem Threads.setStack_stack_self (t : Tid) (frames : List Frame)
    (s : Threads Tid Lock Frame) : (s.setStack t frames).stack t = frames := by
  simp [setStack]

theorem Threads.setStack_stack_of_ne {t u : Tid} (hne : u ≠ t) (frames : List Frame)
    (s : Threads Tid Lock Frame) : (s.setStack t frames).stack u = s.stack u := by
  simp [setStack, hne]

variable [DecidableEq Lock]

/-- Take a lock; the thread waits while the lock has an owner. -/
def Threads.acquire (t : Tid) (lock : Lock) (frames : List Frame)
    (s : Threads Tid Lock Frame) : Option (Threads Tid Lock Frame) :=
  if s.owner lock = none then
    some { owner := Function.update s.owner lock (some t)
           stack := Function.update s.stack t frames }
  else none

def Threads.release (t : Tid) (lock : Lock) (frames : List Frame)
    (s : Threads Tid Lock Frame) : Threads Tid Lock Frame :=
  { owner := Function.update s.owner lock none
    stack := Function.update s.stack t frames }

/-- A lock that was taken was free, and only the stack of its new owner changed. -/
theorem Threads.acquire_eq_some {t : Tid} {lock : Lock} {frames : List Frame}
    {s next : Threads Tid Lock Frame} (hacquire : s.acquire t lock frames = some next) :
    s.owner lock = none ∧ next.owner = Function.update s.owner lock (some t) ∧
      next.stack = Function.update s.stack t frames := by
  rw [acquire] at hacquire
  split at hacquire
  · next hfree =>
      obtain rfl := Option.some.inj hacquire
      exact ⟨hfree, rfl, rfl⟩
  · contradiction

/-- What one step of a thread does to its stack and to one lock at most. -/
inductive Effect (Lock : Type v) (Frame : Type w) where
  | goto (frames : List Frame)
  | take (lock : Lock) (frames : List Frame)
  | drop (lock : Lock) (frames : List Frame)

def Effect.frames : Effect Lock Frame → List Frame
  | .goto frames => frames
  | .take _ frames => frames
  | .drop _ frames => frames

def Threads.apply (t : Tid) (s : Threads Tid Lock Frame) :
    Effect Lock Frame → Option (Threads Tid Lock Frame)
  | .goto frames => some (s.setStack t frames)
  | .take lock frames => s.acquire t lock frames
  | .drop lock frames => some (s.release t lock frames)

/-- Only the stack of the thread changes, and to what the effect says. -/
theorem Threads.apply_stack {t : Tid} {s next : Threads Tid Lock Frame}
    {effect : Effect Lock Frame} (happly : s.apply t effect = some next) :
    next.stack = Function.update s.stack t effect.frames := by
  cases effect with
  | goto frames =>
      obtain rfl := Option.some.inj happly
      rfl
  | take lock frames => exact (acquire_eq_some happly).2.2
  | drop lock frames =>
      obtain rfl := Option.some.inj happly
      rfl

/-- No other thread becomes the owner of a lock. -/
theorem Threads.apply_owner {t u : Tid} {s next : Threads Tid Lock Frame}
    {effect : Effect Lock Frame} (happly : s.apply t effect = some next) (hne : u ≠ t)
    {lock : Lock} (howner : next.owner lock = some u) : s.owner lock = some u := by
  cases effect with
  | goto frames =>
      obtain rfl := Option.some.inj happly
      exact howner
  | take taken frames =>
      rw [(acquire_eq_some happly).2.1] at howner
      by_cases hlock : lock = taken
      · rw [hlock, Function.update_self] at howner
        exact absurd (Option.some.inj howner).symm hne
      · rwa [Function.update_of_ne hlock] at howner
  | drop dropped frames =>
      obtain rfl := Option.some.inj happly
      simp only [release] at howner
      by_cases hlock : lock = dropped
      · rw [hlock, Function.update_self] at howner
        contradiction
      · rwa [Function.update_of_ne hlock] at howner

end Operations

variable (holds : Frame → Lock → Bool)

/-- How many frames hold the lock. -/
def held (frames : List Frame) (lock : Lock) : Nat :=
  frames.countP fun frame => holds frame lock

@[simp] theorem held_nil (lock : Lock) : held holds [] lock = 0 := rfl

theorem held_cons (frame : Frame) (frames : List Frame) (lock : Lock) :
    held holds (frame :: frames) lock =
      held holds frames lock + if holds frame lock then 1 else 0 := by
  rw [held, held, List.countP_cons]

theorem held_pos {frames : List Frame} {lock : Lock} :
    0 < held holds frames lock ↔ ∃ frame ∈ frames, holds frame lock = true :=
  List.countP_pos_iff

variable [DecidableEq Tid]

/-- A lock is owned by the thread that has a frame holding it, and by one frame of it
only. -/
def Exact (s : Threads Tid Lock Frame) : Prop :=
  ∀ t lock, held holds (s.stack t) lock = if s.owner lock = some t then 1 else 0

variable {holds} {s next : Threads Tid Lock Frame}

theorem Exact.initial : Exact holds (Threads.initial : Threads Tid Lock Frame) := by
  intro t lock
  simp [Threads.initial]

theorem Exact.owner_iff (hexact : Exact holds s) {t : Tid} {lock : Lock} :
    s.owner lock = some t ↔ ∃ frame ∈ s.stack t, holds frame lock = true := by
  rw [← held_pos, hexact t lock]
  by_cases howner : s.owner lock = some t <;> simp [howner]

theorem Exact.setStack (hexact : Exact holds s) {t : Tid}
    {frames : List Frame}
    (hheld : ∀ lock, held holds frames lock = held holds (s.stack t) lock) :
    Exact holds (s.setStack t frames) := by
  intro u lock
  by_cases hsame : u = t
  · subst hsame
    rw [Threads.setStack_stack_self, hheld lock]
    exact hexact u lock
  · rw [Threads.setStack_stack_of_ne hsame]
    exact hexact u lock

variable [DecidableEq Lock]

theorem Exact.acquire (hexact : Exact holds s) {t : Tid} {lock : Lock}
    {frames : List Frame} (hacquire : s.acquire t lock frames = some next)
    (hheld : ∀ other, held holds frames other =
      held holds (s.stack t) other + if other = lock then 1 else 0) :
    Exact holds next := by
  obtain ⟨hfree, howner, hstack⟩ := Threads.acquire_eq_some hacquire
  intro u other
  rw [howner, hstack]
  by_cases hlock : other = lock
  · subst hlock
    rw [Function.update_self]
    by_cases hsame : u = t
    · subst hsame
      rw [Function.update_self, hheld, hexact u other, hfree]
      simp
    · rw [Function.update_of_ne hsame, hexact u other, hfree]
      simp [Ne.symm hsame]
  · rw [Function.update_of_ne hlock]
    by_cases hsame : u = t
    · subst hsame
      rw [Function.update_self, hheld, hexact u other]
      simp [hlock]
    · rw [Function.update_of_ne hsame, hexact u other]

theorem Exact.release (hexact : Exact holds s) {t : Tid} {lock : Lock}
    {frames : List Frame}
    (hheld : ∀ other, held holds (s.stack t) other =
      held holds frames other + if other = lock then 1 else 0) :
    Exact holds (s.release t lock frames) := by
  have hmine : s.owner lock = some t := by
    by_contra hother
    have hcount := hexact t lock
    rw [hheld lock] at hcount
    simp [hother] at hcount
  intro u other
  by_cases hlock : other = lock
  · subst hlock
    by_cases hsame : u = t
    · subst hsame
      have hcount := hexact u other
      rw [hheld other] at hcount
      simp only [hmine, if_true] at hcount
      simpa [Threads.release] using hcount
    · have hcount := hexact u other
      have hne : ¬ some t = some u := fun heq => hsame (Option.some.inj heq).symm
      rw [hmine, if_neg hne] at hcount
      simpa [Threads.release, hsame] using hcount
  · by_cases hsame : u = t
    · subst hsame
      have hcount := hexact u other
      rw [hheld other] at hcount
      simpa [Threads.release, hlock] using hcount
    · simpa [Threads.release, hlock, hsame] using hexact u other

/-- The frames say of each lock what the effect does to it. -/
def Effect.Balanced (holds : Frame → Lock → Bool) (before : List Frame) :
    Effect Lock Frame → Prop
  | .goto frames => ∀ lock, held holds frames lock = held holds before lock
  | .take lock frames => ∀ other,
      held holds frames other = held holds before other + if other = lock then 1 else 0
  | .drop lock frames => ∀ other,
      held holds before other = held holds frames other + if other = lock then 1 else 0

section Balanced

variable {frame frame' callee : Frame} {below : List Frame} {lock : Lock}

omit [DecidableEq Tid]

/-- A call that holds nothing returns. -/
theorem Effect.balanced_return (hfree : ∀ other, holds frame other = false) :
    (Effect.goto below).Balanced holds (frame :: below) := by
  intro other
  simp [held_cons, hfree]

/-- A call moves on with what it holds. -/
theorem Effect.balanced_move (hsame : ∀ other, holds frame' other = holds frame other) :
    (Effect.goto (frame' :: below)).Balanced holds (frame :: below) := by
  intro other
  simp [held_cons, hsame]

/-- A call moves on with what it holds and calls a function that holds nothing yet. -/
theorem Effect.balanced_call (hfree : ∀ other, holds callee other = false)
    (hsame : ∀ other, holds frame' other = holds frame other) :
    (Effect.goto (callee :: frame' :: below)).Balanced holds (frame :: below) := by
  intro other
  simp [held_cons, hfree, hsame]

theorem Effect.balanced_take (hfree : ∀ other, holds frame other = false)
    (htaken : ∀ other, holds frame' other = decide (other = lock)) :
    (Effect.take lock (frame' :: below)).Balanced holds (frame :: below) := by
  intro other
  simp [held_cons, hfree, htaken]

theorem Effect.balanced_drop (hheld : ∀ other, holds frame other = decide (other = lock)) :
    (Effect.drop lock below).Balanced holds (frame :: below) := by
  intro other
  simp [held_cons, hheld]

theorem Effect.balanced_ite {p : Prop} [Decidable p] {before yes no : List Frame}
    (hyes : (Effect.goto yes).Balanced holds before)
    (hno : (Effect.goto no).Balanced holds before) :
    (Effect.goto (if p then yes else no)).Balanced holds before := by
  split
  · exact hyes
  · exact hno

end Balanced

/-- Balanced steps keep the owners exact. -/
theorem Exact.apply (hexact : Exact holds s) {t : Tid} {effect : Effect Lock Frame}
    (hbalanced : effect.Balanced holds (s.stack t)) (happly : s.apply t effect = some next) :
    Exact holds next := by
  cases effect with
  | goto frames =>
      obtain rfl := Option.some.inj happly
      exact hexact.setStack hbalanced
  | take lock frames => exact hexact.acquire happly hbalanced
  | drop lock frames =>
      obtain rfl := Option.some.inj happly
      exact hexact.release hbalanced

section Interrupted

variable (isHandler : Frame → Bool)

/-- The frames that the handler on top of the others has interrupted. -/
def interrupted : List Frame → List Frame
  | [] => []
  | frame :: below => if isHandler frame then below else interrupted below

variable {isHandler}

theorem interrupted_cons_of_not {frame : Frame} (hnot : isHandler frame = false)
    (below : List Frame) :
    interrupted isHandler (frame :: below) = interrupted isHandler below := by
  simp [interrupted, hnot]

theorem interrupted_cons_handler {frame : Frame} (hhandler : isHandler frame = true)
    (below : List Frame) : interrupted isHandler (frame :: below) = below := by
  simp [interrupted, hhandler]

theorem interrupted_subset (frames : List Frame) :
    interrupted isHandler frames ⊆ frames := by
  induction frames with
  | nil => exact List.Subset.refl _
  | cons frame below ih =>
      rw [interrupted]
      split
      · exact List.subset_cons_self frame below
      · exact List.subset_cons_of_subset frame ih

theorem interrupted_cons_subset (frame : Frame) (below : List Frame) :
    interrupted isHandler below ⊆ interrupted isHandler (frame :: below) := by
  rw [interrupted.eq_2]
  split
  · exact interrupted_subset below
  · exact List.Subset.refl _

end Interrupted

end LockStacks
