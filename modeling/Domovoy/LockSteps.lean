/-
What a step of a call does to the mutexes and to the stack of its thread: the one case
analysis of the calls, and what follows from it for every state that is reached.
-/
import Domovoy.Locks
import Mathlib.Data.List.Chain

namespace Domovoy

open LockStacks

/-- The test that a hook starts with. -/
def LockFrame.testedFd : LockFrame → Option Int
  | .opened fd _ .testing => some fd
  | .closed fd .testing => some fd
  | _ => none

/-- An exception is thrown here, or is on its way through the call. -/
def LockFrame.isThrowing : LockFrame → Bool
  | .pool _ .throwing => true
  | .writeToFile .unwinding => true
  | .thrown => true
  | _ => false

/-- The steps of its own thread that a call has left at most, those of the calls that it
makes included, and memory that it asks for apart. -/
def LockFrame.stepsLeft : LockFrame → Nat
  | .pool _ .locking => 2
  | .pool _ .holding => 1
  | .pool _ .throwing => 2
  | .record _ _ false => 2
  | .record _ _ true => 1
  | .opened _ _ .testing => 3
  | .opened _ _ .locking => 2
  | .opened _ _ .holding => 1
  | .closed _ .testing => 3
  | .closed _ .locking => 2
  | .closed _ .holding => 1
  | .disable .testing => 3
  | .disable .locking => 2
  | .disable .holding => 1
  | .reportLeakedFds .testing => 13
  | .reportLeakedFds .locking => 12
  | .reportLeakedFds .building => 11
  | .reportLeakedFds .reporting => 1
  | .writeToFile .naming => 9
  | .writeToFile (.dumping _) => 5
  | .writeToFile .closed => 1
  | .writeToFile .unwinding => 2
  | .handleCrashSignal .tracing => 14
  | .handleCrashSignal .building => 11
  | .handleCrashSignal .chaining => 1
  | .thrown => 1

theorem LockFrame.stepsLeft_pos (frame : LockFrame) : 0 < frame.stepsLeft := by
  cases frame with
  | pool call pc => cases pc <;> simp [stepsLeft]
  | record call submap locked => cases locked <;> simp [stepsLeft]
  | opened fd call pc | closed fd pc | disable pc => cases pc <;> simp [stepsLeft]
  | reportLeakedFds pc => cases pc <;> simp [stepsLeft]
  | writeToFile pc => cases pc <;> simp [stepsLeft]
  | handleCrashSignal pc => cases pc <;> simp [stepsLeft]
  | thrown => simp [stepsLeft]

/-- What the caller must be doing for the function to be called from it; a signal
handler is called from anywhere. -/
def LockFunction.CalledBy : LockFunction → LockFrame → Prop
  | .pool, caller => caller.allocates = true
  | .record, caller => caller.mallocs = true
  | .opened, .writeToFile (.dumping _) => True
  | .closed, .writeToFile .closed => True
  | .closed, .writeToFile .unwinding => True
  | .writeToFile, .reportLeakedFds .reporting => True
  | .writeToFile, .handleCrashSignal .chaining => True
  | .handleCrashSignal, _ => True
  | .thrown, caller => caller.wants = none
  | _, _ => False

/-- Every frame is called by the one below it. -/
def WellFormed (frames : List LockFrame) : Prop :=
  frames.IsChain fun frame caller => frame.function.CalledBy caller

theorem WellFormed.below {frame : LockFrame} {below : List LockFrame}
    (hwell : WellFormed (frame :: below)) : WellFormed below :=
  List.IsChain.tail hwell

theorem WellFormed.calledBy {frame caller : LockFrame} {below : List LockFrame}
    (hwell : WellFormed (frame :: caller :: below)) : frame.function.CalledBy caller :=
  (List.isChain_cons_cons.mp hwell).1

theorem WellFormed.push {frame caller : LockFrame} {below : List LockFrame}
    (hcalled : frame.function.CalledBy caller) (hwell : WellFormed (caller :: below)) :
    WellFormed (frame :: caller :: below) :=
  List.isChain_cons_cons.mpr ⟨hcalled, hwell⟩

/-- A call keeps its place when it moves on. -/
theorem WellFormed.replace {frame frame' : LockFrame} {below : List LockFrame}
    (hsame : frame'.function = frame.function) (hwell : WellFormed (frame :: below)) :
    WellFormed (frame' :: below) := by
  cases below with
  | nil => exact List.isChain_singleton frame'
  | cons caller below =>
      apply WellFormed.push _ hwell.below
      rw [hsame]
      exact hwell.calledBy

/-- A caller is not waiting for a mutex. -/
theorem LockFunction.CalledBy.wants_eq_none {function : LockFunction}
    {caller : LockFrame} (hcalled : function.CalledBy caller)
    (hnot : function ≠ .handleCrashSignal) : caller.wants = none := by
  cases function with
  | pool =>
      cases caller with
      | record call submap locked =>
          cases locked <;> cases call <;> first | rfl | exact absurd hcalled nofun
      | opened fd call pc => cases pc <;> first | rfl | exact absurd hcalled nofun
      | reportLeakedFds pc => cases pc <;> first | rfl | exact absurd hcalled nofun
      | writeToFile pc => rfl
      | handleCrashSignal pc => rfl
      | pool | closed | disable | thrown => exact absurd hcalled nofun
  | record =>
      cases caller with
      | pool call pc => cases pc <;> first | rfl | exact absurd hcalled nofun
      | writeToFile pc => rfl
      | handleCrashSignal pc => rfl
      | record | opened | closed | disable | reportLeakedFds | thrown =>
          exact absurd hcalled nofun
  | opened => cases caller <;> first | exact hcalled.elim | rfl
  | closed => cases caller <;> first | exact hcalled.elim | rfl
  | disable => exact hcalled.elim
  | reportLeakedFds => exact hcalled.elim
  | writeToFile =>
      cases caller with
      | reportLeakedFds pc => cases pc <;> first | exact hcalled.elim | rfl
      | handleCrashSignal pc => rfl
      | _ => exact hcalled.elim
  | handleCrashSignal => exact absurd rfl hnot
  | thrown => exact hcalled

/-- The caller of a call that is not a handler waits for nothing. -/
theorem WellFormed.caller_wants {frame caller : LockFrame} {below : List LockFrame}
    (hwell : WellFormed (frame :: caller :: below)) (hnot : frame.isHandler = false) :
    caller.wants = none :=
  hwell.calledBy.wants_eq_none (of_decide_eq_false hnot)

/-- An exception takes the place of a call that is not a handler. -/
theorem WellFormed.thrown {frame : LockFrame} {below : List LockFrame}
    (hwell : WellFormed (frame :: below)) (hnot : frame.isHandler = false) :
    WellFormed (.thrown :: below) := by
  cases below with
  | nil => exact List.isChain_singleton _
  | cons caller below => exact .push (hwell.caller_wants hnot) hwell.below

section Effects

variable {env : LockEnv} {monitor monitor' : IoMonitor} {frame : LockFrame}
  {below frames : List LockFrame} {effect : LockEffect} {move : LockMove}

/-- The new stack is the callers, or the same call above them, or what it calls above
those two; or an exception has taken the place of the call, or has passed through its
caller, closing the file of it. -/
inductive LockFrame.Turns (frame : LockFrame) (below : List LockFrame) :
    List LockFrame → Prop
  | returned : Turns frame below below
  | moved (frame' : LockFrame) (hsame : frame'.function = frame.function) :
      Turns frame below (frame' :: below)
  | called (callee frame' : LockFrame) (hsame : frame'.function = frame.function)
      (hcallee : callee.function.CalledBy frame')
      (hnot : callee.function ≠ .handleCrashSignal) :
      Turns frame below (callee :: frame' :: below)
  | threw (hnot : frame.isHandler = false) : Turns frame below (.thrown :: below)
  | unwound (caller : LockFrame) (rest : List LockFrame) (hbelow : below = caller :: rest)
      (hnot : caller.isHandler = false) : Turns frame below (.thrown :: rest)
  | closing (fd : Int) (rest : List LockFrame)
      (hbelow : below = .writeToFile (.dumping fd) :: rest) :
      Turns frame below (.closed fd .testing :: .writeToFile .unwinding :: rest)

/-- An exception leaves a call by its guard, or by its file. -/
theorem LockFrame.unwind_cases
    (hunwind : frame.unwind env below = some effect) :
    frame.isHandler = false ∧
      ((∃ lock, frame.guard = some lock ∧ effect = .drop lock (.thrown :: below)) ∨
        frame.guard = none ∧ effect = .goto (.thrown :: below) ∨
        ∃ fd, frame = .writeToFile (.dumping fd) ∧ env.hooked = true ∧
          effect = .goto (.closed fd .testing :: .writeToFile .unwinding :: below)) := by
  cases frame with
  | pool call pc =>
      cases pc with
      | locking =>
          obtain rfl := Option.some.inj hunwind
          exact ⟨rfl, Or.inr (Or.inl ⟨rfl, rfl⟩)⟩
      | holding =>
          obtain rfl := Option.some.inj hunwind
          exact ⟨rfl, Or.inl ⟨_, rfl, rfl⟩⟩
      | throwing => cases hunwind
  | record call submap locked =>
      cases locked <;> obtain rfl := Option.some.inj hunwind
      · exact ⟨rfl, Or.inr (Or.inl ⟨rfl, rfl⟩)⟩
      · exact ⟨rfl, Or.inl ⟨_, rfl, rfl⟩⟩
  | opened fd call pc | closed fd pc | disable pc =>
      cases pc <;> obtain rfl := Option.some.inj hunwind
      · exact ⟨rfl, Or.inr (Or.inl ⟨rfl, rfl⟩)⟩
      · exact ⟨rfl, Or.inr (Or.inl ⟨rfl, rfl⟩)⟩
      · exact ⟨rfl, Or.inl ⟨_, rfl, rfl⟩⟩
  | reportLeakedFds pc =>
      cases pc <;> obtain rfl := Option.some.inj hunwind
      · exact ⟨rfl, Or.inr (Or.inl ⟨rfl, rfl⟩)⟩
      · exact ⟨rfl, Or.inr (Or.inl ⟨rfl, rfl⟩)⟩
      · exact ⟨rfl, Or.inl ⟨_, rfl, rfl⟩⟩
      · exact ⟨rfl, Or.inl ⟨_, rfl, rfl⟩⟩
  | writeToFile pc =>
      cases pc with
      | dumping fd =>
          obtain rfl := Option.some.inj hunwind
          refine ⟨rfl, ?_⟩
          by_cases hcloses : 0 ≤ fd ∧ env.hooked = true
          · rw [if_pos hcloses]
            exact Or.inr (Or.inr ⟨fd, rfl, hcloses.2, rfl⟩)
          · rw [if_neg hcloses]
            exact Or.inr (Or.inl ⟨rfl, rfl⟩)
      | naming | closed | unwinding =>
          obtain rfl := Option.some.inj hunwind
          exact ⟨rfl, Or.inr (Or.inl ⟨rfl, rfl⟩)⟩
  | handleCrashSignal pc => cases hunwind
  | thrown =>
      obtain rfl := Option.some.inj hunwind
      exact ⟨rfl, Or.inr (Or.inl ⟨rfl, rfl⟩)⟩

/-- What the next step of a call does: it takes the mutex that it wants, gives back the
one that it has or returns; it moves on, and then may come to lock the monitor; it calls
another function, which locks nothing at once unless it begins the document of the
handler; or it throws, or what it throws passes through its caller. Each leaves it fewer
steps. -/
inductive LockFrame.Proceeds (env : LockEnv) (monitor : IoMonitor) (frame : LockFrame)
    (below : List LockFrame) : LockEffect → Prop
  | taken (lock : MutexId) (frame' : LockFrame) (hwants : frame.wants = some lock)
      (hsame : frame'.function = frame.function) (hguard : frame'.guard = some lock)
      (hquiet : frame'.isThrowing = false) (hless : frame'.stepsLeft < frame.stepsLeft) :
      Proceeds env monitor frame below (.take lock (frame' :: below))
  | dropped (lock : MutexId) (hguard : frame.guard = some lock) :
      Proceeds env monitor frame below (.drop lock below)
  | returned (hguard : frame.guard = none) : Proceeds env monitor frame below (.goto below)
  | moved (frame' : LockFrame) (hsame : frame'.function = frame.function)
      (hguard : frame'.guard = frame.guard) (hquiet : frame'.isThrowing = false)
      (hless : frame'.stepsLeft < frame.stepsLeft)
      (hwants : ∀ lock, frame'.wants = some lock → lock = .io ∧
        ((∃ fd, frame.testedFd = some fd ∧ ¬ (monitor.enabled = false ∨ fd < 0)) ∨
          frame.function = .disable ∨ frame.function = .reportLeakedFds)) :
      Proceeds env monitor frame below (.goto (frame' :: below))
  | called (callee frame' : LockFrame) (hsame : frame'.function = frame.function)
      (hcallee : callee.function.CalledBy frame')
      (hnot : callee.function ≠ .handleCrashSignal) (hfree : callee.guard = none)
      (hguard : frame'.guard = frame.guard)
      (hquiet : callee.isThrowing = false ∧ frame'.isThrowing = false)
      (hless : callee.stepsLeft + frame'.stepsLeft < frame.stepsLeft)
      (hwants : ∀ lock, callee.wants = some lock → lock = .pool ∧
        frame = .handleCrashSignal .tracing ∧ frame' = .handleCrashSignal .building) :
      Proceeds env monitor frame below (.goto (callee :: frame' :: below))
  | threwLocked (lock : MutexId) (hthrowing : frame.isThrowing = true)
      (hnot : frame.isHandler = false) (hguard : frame.guard = some lock)
      (hless : 1 < frame.stepsLeft) :
      Proceeds env monitor frame below (.drop lock (.thrown :: below))
  | threw (hthrowing : frame.isThrowing = true) (hnot : frame.isHandler = false)
      (hguard : frame.guard = none) (hless : 1 < frame.stepsLeft) :
      Proceeds env monitor frame below (.goto (.thrown :: below))
  | unwound (caller : LockFrame) (rest : List LockFrame) (effect : LockEffect)
      (hframe : frame = .thrown) (hbelow : below = caller :: rest)
      (hunwind : caller.unwind env rest = some effect) :
      Proceeds env monitor frame below effect

/-- A call behind a test goes on in its place or is over. -/
theorem LockFrame.Proceeds.tested {ends : Prop} [Decidable ends] {called : LockFrame}
    (hguard : frame.guard = none)
    (hon : ¬ ends → frame.Proceeds env monitor below (.goto (called :: below))) :
    frame.Proceeds env monitor below (.goto (if ends then below else called :: below)) := by
  split
  · exact .returned hguard
  · next hends => exact hon hends

/-- Every step of a call is one of these. -/
theorem LockFrame.advance_proceeds
    (hadvance : frame.advance env monitor below = some (monitor', effect)) :
    frame.Proceeds env monitor below effect := by
  cases frame with
  | pool call pc =>
      cases pc <;> obtain ⟨-, rfl⟩ := Prod.mk.inj (Option.some.inj hadvance)
      · exact .taken _ _ rfl rfl rfl rfl (by simp [stepsLeft])
      · exact .dropped _ rfl
      · exact .threwLocked _ rfl rfl rfl (by simp [stepsLeft])
  | record call submap locked =>
      cases locked <;> obtain ⟨-, rfl⟩ := Prod.mk.inj (Option.some.inj hadvance)
      · exact .taken _ _ rfl rfl rfl rfl (by simp [stepsLeft])
      · exact .dropped _ rfl
  | opened fd call pc =>
      cases pc <;> obtain ⟨-, rfl⟩ := Prod.mk.inj (Option.some.inj hadvance)
      · refine .tested rfl fun hon => .moved _ rfl rfl rfl (by simp [stepsLeft]) fun lock hlock => ?_
        exact ⟨(Option.some.inj hlock).symm, Or.inl ⟨fd, rfl, hon⟩⟩
      · exact .taken _ _ rfl rfl rfl rfl (by simp [stepsLeft])
      · exact .dropped _ rfl
  | closed fd pc =>
      cases pc <;> obtain ⟨-, rfl⟩ := Prod.mk.inj (Option.some.inj hadvance)
      · refine .tested rfl fun hon => .moved _ rfl rfl rfl (by simp [stepsLeft]) fun lock hlock => ?_
        exact ⟨(Option.some.inj hlock).symm, Or.inl ⟨fd, rfl, hon⟩⟩
      · exact .taken _ _ rfl rfl rfl rfl (by simp [stepsLeft])
      · exact .dropped _ rfl
  | disable pc =>
      cases pc <;> obtain ⟨-, rfl⟩ := Prod.mk.inj (Option.some.inj hadvance)
      · rw [← ite_not]
        refine .tested rfl fun _ => .moved _ rfl rfl rfl (by simp [stepsLeft]) fun lock hlock => ?_
        exact ⟨(Option.some.inj hlock).symm, Or.inr (Or.inl rfl)⟩
      · exact .taken _ _ rfl rfl rfl rfl (by simp [stepsLeft])
      · exact .dropped _ rfl
  | reportLeakedFds pc =>
      cases pc <;> obtain ⟨-, rfl⟩ := Prod.mk.inj (Option.some.inj hadvance)
      · rw [← ite_not]
        refine .tested rfl fun _ => .moved _ rfl rfl rfl (by simp [stepsLeft]) fun lock hlock => ?_
        exact ⟨(Option.some.inj hlock).symm, Or.inr (Or.inr rfl)⟩
      · exact .taken _ _ rfl rfl rfl rfl (by simp [stepsLeft])
      · split
        · exact .called _ _ rfl trivial LockFunction.noConfusion rfl rfl ⟨rfl, rfl⟩
            (by simp [stepsLeft]) (fun _ hlock => by cases hlock)
        · exact .dropped _ rfl
      · exact .dropped _ rfl
  | writeToFile pc =>
      cases pc with
      | naming => simp [advance] at hadvance
      | dumping fd =>
          obtain ⟨-, rfl⟩ := Prod.mk.inj (Option.some.inj hadvance)
          split
          · exact .called _ _ rfl trivial LockFunction.noConfusion rfl rfl ⟨rfl, rfl⟩
              (by simp [stepsLeft]) (fun _ hlock => by cases hlock)
          · exact .returned rfl
      | closed =>
          obtain ⟨-, rfl⟩ := Prod.mk.inj (Option.some.inj hadvance)
          exact .returned rfl
      | unwinding =>
          obtain ⟨-, rfl⟩ := Prod.mk.inj (Option.some.inj hadvance)
          exact .threw rfl rfl rfl (by simp [stepsLeft])
  | handleCrashSignal pc =>
      cases pc <;> obtain ⟨-, rfl⟩ := Prod.mk.inj (Option.some.inj hadvance)
      · refine .called _ _ rfl rfl LockFunction.noConfusion rfl rfl ⟨rfl, rfl⟩ (by simp [stepsLeft]) ?_
        exact fun lock hlock => ⟨(Option.some.inj hlock).symm, rfl, rfl⟩
      · split
        · exact .called _ _ rfl trivial LockFunction.noConfusion rfl rfl ⟨rfl, rfl⟩
            (by simp [stepsLeft]) (fun _ hlock => by cases hlock)
        · exact .moved _ rfl rfl rfl (by simp [stepsLeft]) (fun _ hlock => by cases hlock)
      · exact .returned rfl
  | thrown =>
      cases below with
      | nil =>
          obtain ⟨-, rfl⟩ := Prod.mk.inj (Option.some.inj hadvance)
          exact .returned rfl
      | cons caller rest =>
          obtain ⟨effect, hunwind, heffect⟩ := Option.map_eq_some_iff.mp hadvance
          obtain ⟨-, rfl⟩ := Prod.mk.inj heffect
          exact .unwound caller rest effect rfl rfl hunwind

theorem LockFrame.advance_turns
    (hadvance : frame.advance env monitor below = some (monitor', effect)) :
    frame.Turns below effect.frames := by
  cases advance_proceeds hadvance with
  | taken lock frame' _ hsame => exact .moved frame' hsame
  | dropped | returned => exact .returned
  | moved frame' hsame => exact .moved frame' hsame
  | called callee frame' hsame hcallee hnot => exact .called callee frame' hsame hcallee hnot
  | threwLocked _ _ hnot | threw _ hnot => exact .threw hnot
  | unwound caller rest _ _ hbelow hunwind =>
      obtain ⟨hnot, ⟨lock, -, rfl⟩ | ⟨-, rfl⟩ | ⟨fd, rfl, -, rfl⟩⟩ := unwind_cases hunwind
      · exact .unwound caller rest hbelow hnot
      · exact .unwound caller rest hbelow hnot
      · exact .closing fd rest hbelow

/-- An exception is above the call that it leaves, or the pool is on its way to one. -/
theorem LockFrame.throws_cases (hthrows : frame.throws below = some effect) :
    (∃ call, frame = .pool call .holding ∧
        effect = .goto (.pool call .throwing :: below)) ∨
      ∃ pc, frame = .writeToFile pc ∧
        effect = .goto (.thrown :: .writeToFile pc :: below) := by
  cases frame with
  | pool call pc =>
      cases call <;> cases pc <;> cases hthrows
      · exact Or.inl ⟨_, rfl, rfl⟩
      · exact Or.inl ⟨_, rfl, rfl⟩
  | writeToFile pc =>
      cases pc <;> cases hthrows
      · exact Or.inr ⟨_, rfl, rfl⟩
      · exact Or.inr ⟨_, rfl, rfl⟩
  | record | opened | closed | disable | reportLeakedFds | handleCrashSignal | thrown =>
      cases hthrows

theorem LockFrame.throws_turns (hthrows : frame.throws below = some effect) :
    frame.Turns below effect.frames := by
  rcases throws_cases hthrows with ⟨call, rfl, rfl⟩ | ⟨pc, rfl, rfl⟩
  · exact .moved _ rfl
  · exact .called _ _ rfl rfl LockFunction.noConfusion

/-- The stack stays well formed. -/
theorem LockFrame.Turns.wellFormed (hturns : frame.Turns below frames)
    (hwell : WellFormed (frame :: below)) : WellFormed frames := by
  cases hturns with
  | returned => exact hwell.below
  | moved frame' hsame => exact hwell.replace hsame
  | called callee frame' hsame hcallee => exact .push hcallee (hwell.replace hsame)
  | threw hnot => exact hwell.thrown hnot
  | unwound caller rest hbelow hnot =>
      subst hbelow
      exact hwell.below.thrown hnot
  | closing fd rest hbelow =>
      subst hbelow
      have hsame : (LockFrame.writeToFile .unwinding).function =
          (LockFrame.writeToFile (.dumping fd)).function := rfl
      exact .push trivial (hwell.below.replace hsame)

theorem LockFrame.holds_eq_true {lock : MutexId} :
    frame.holds lock = true ↔ frame.guard = some lock :=
  decide_eq_true_iff

theorem LockFrame.holds_of_guard_none (hguard : frame.guard = none) (lock : MutexId) :
    frame.holds lock = false := by
  rw [holds, hguard]
  rfl

/-- A call holds one mutex at most. -/
theorem LockFrame.holds_of_guard {lock : MutexId} (hguard : frame.guard = some lock)
    (other : MutexId) : frame.holds other = decide (other = lock) := by
  simp [holds, hguard, eq_comm]

/-- A step that takes a mutex, or gives it back. -/
theorem LockFrame.balanced_take {frame' : LockFrame} {lock : MutexId}
    (hbefore : frame.guard = none) (hafter : frame'.guard = some lock) :
    (Effect.take lock (frame' :: below)).Balanced LockFrame.holds (frame :: below) :=
  Effect.balanced_take (holds_of_guard_none hbefore) (holds_of_guard hafter)

theorem LockFrame.balanced_drop {lock : MutexId} (hguard : frame.guard = some lock) :
    (Effect.drop lock below).Balanced LockFrame.holds (frame :: below) :=
  Effect.balanced_drop (holds_of_guard hguard)

theorem LockFrame.balanced_return (hguard : frame.guard = none) :
    (Effect.goto below).Balanced LockFrame.holds (frame :: below) :=
  Effect.balanced_return (holds_of_guard_none hguard)

theorem LockFrame.balanced_move {frame' : LockFrame} (hguard : frame'.guard = frame.guard) :
    (Effect.goto (frame' :: below)).Balanced LockFrame.holds (frame :: below) :=
  Effect.balanced_move fun other => by rw [holds, holds, hguard]

theorem LockFrame.balanced_call {callee frame' : LockFrame} (hcallee : callee.guard = none)
    (hguard : frame'.guard = frame.guard) :
    (Effect.goto (callee :: frame' :: below)).Balanced LockFrame.holds (frame :: below) :=
  Effect.balanced_call (holds_of_guard_none hcallee) fun other => by
    rw [holds, holds, hguard]

/-- Each step of an exception takes or drops what the frames say. -/
theorem LockFrame.unwind_balanced (hunwind : frame.unwind env below = some effect) :
    effect.Balanced LockFrame.holds (.thrown :: frame :: below) := by
  have hthrown : ∀ lock, LockFrame.thrown.holds lock = false := holds_of_guard_none rfl
  obtain ⟨-, ⟨lock, hguard, rfl⟩ | ⟨hguard, rfl⟩ | ⟨fd, rfl, -, rfl⟩⟩ :=
    unwind_cases hunwind
  · intro other
    simp [held_cons, hthrown, holds_of_guard hguard]
  · intro other
    simp [held_cons, hthrown, holds_of_guard_none hguard]
  · intro other
    simp [held_cons, holds, guard]

/-- A call that waits for a mutex holds none. -/
theorem LockFrame.guard_of_wants {lock : MutexId}
    (hwants : frame.wants = some lock) : frame.guard = none := by
  cases frame with
  | pool call pc => cases pc <;> first | rfl | cases hwants
  | record call submap locked => cases locked <;> first | rfl | cases hwants
  | opened fd call pc => cases pc <;> first | rfl | cases hwants
  | closed fd pc => cases pc <;> first | rfl | cases hwants
  | disable pc => cases pc <;> first | rfl | cases hwants
  | reportLeakedFds pc => cases pc <;> first | rfl | cases hwants
  | writeToFile pc => cases hwants
  | handleCrashSignal pc => cases hwants
  | thrown => cases hwants

/-- Each step of a call takes or drops what its frames say. -/
theorem LockFrame.advance_balanced
    (hadvance : frame.advance env monitor below = some (monitor', effect)) :
    effect.Balanced LockFrame.holds (frame :: below) := by
  have hthrown : ∀ lock, LockFrame.thrown.holds lock = false := holds_of_guard_none rfl
  cases advance_proceeds hadvance with
  | taken lock frame' hwants _ hguard => exact balanced_take (guard_of_wants hwants) hguard
  | dropped lock hguard => exact balanced_drop hguard
  | returned hguard => exact balanced_return hguard
  | moved frame' _ hguard => exact balanced_move hguard
  | called callee frame' _ _ _ hfree hguard => exact balanced_call hfree hguard
  | threwLocked lock _ _ hguard =>
      intro other
      simp [held_cons, holds_of_guard hguard, hthrown]
  | threw _ _ hguard =>
      intro other
      simp [held_cons, holds_of_guard_none hguard, hthrown]
  | unwound caller rest _ hframe hbelow hunwind =>
      subst hframe hbelow
      exact unwind_balanced hunwind

theorem LockFrame.throws_balanced (hthrows : frame.throws below = some effect) :
    effect.Balanced LockFrame.holds (frame :: below) := by
  rcases throws_cases hthrows with ⟨call, rfl, rfl⟩ | ⟨pc, rfl, rfl⟩
  · exact balanced_move rfl
  · exact balanced_call rfl rfl

/-- The stack that a move finds and the one it leaves, move by move. -/
theorem LockMove.effect_cases
    (heffect : move.effect env monitor frames = some (monitor', effect)) :
    (∃ entry, move = .call entry ∧ frames = [] ∧ effect = .goto entry.frames) ∨
      (∃ frame below, move = .advance ∧ frames = frame :: below ∧
        frame.advance env monitor below = some (monitor', effect)) ∨
      (∃ frame below callee, frames = frame :: below ∧
        (move = .allocate ∧ frame.allocates = true ∧ callee = .pool .allocate .locking ∨
          ∃ hook submap, move = .record hook submap ∧ frame.mallocs = true ∧
            callee = .record hook submap false) ∧
        effect = .goto (callee :: frame :: below)) ∨
      (∃ fd path below, move = .openFile fd path ∧
        frames = .writeToFile .naming :: below ∧
        effect = .goto (if env.hooked then
          .opened fd (.open path) .testing :: .writeToFile (.dumping fd) :: below
          else .writeToFile (.dumping fd) :: below)) ∨
      (∃ frame below, move = .throw ∧ frames = frame :: below ∧
        frame.throws below = some effect) ∨
      (move = .signal ∧ effect = .goto (.handleCrashSignal .tracing :: frames)) := by
  cases move with
  | call entry =>
      cases frames with
      | nil =>
          obtain ⟨-, rfl⟩ := Prod.mk.inj (Option.some.inj heffect)
          exact Or.inl ⟨entry, rfl, rfl, rfl⟩
      | cons frame below => simp [LockMove.effect] at heffect
  | advance =>
      cases frames with
      | nil => simp [LockMove.effect] at heffect
      | cons frame below => exact Or.inr (Or.inl ⟨frame, below, rfl, rfl, heffect⟩)
  | allocate =>
      cases frames with
      | nil => simp [LockMove.effect] at heffect
      | cons frame below =>
          simp only [LockMove.effect, Option.ite_none_right_eq_some] at heffect
          obtain ⟨hallocates, heffect⟩ := heffect
          obtain ⟨-, rfl⟩ := Prod.mk.inj (Option.some.inj heffect)
          exact Or.inr (Or.inr (Or.inl ⟨frame, below, _, rfl,
            Or.inl ⟨rfl, hallocates, rfl⟩, rfl⟩))
  | record hook submap =>
      cases frames with
      | nil => simp [LockMove.effect] at heffect
      | cons frame below =>
          simp only [LockMove.effect, Option.ite_none_right_eq_some] at heffect
          obtain ⟨hmallocs, heffect⟩ := heffect
          obtain ⟨-, rfl⟩ := Prod.mk.inj (Option.some.inj heffect)
          exact Or.inr (Or.inr (Or.inl ⟨frame, below, _, rfl,
            Or.inr ⟨hook, submap, rfl, hmallocs, rfl⟩, rfl⟩))
  | openFile fd path =>
      cases frames with
      | nil => simp [LockMove.effect] at heffect
      | cons frame below =>
          cases frame <;> simp only [LockMove.effect, reduceCtorEq] at heffect
          next pc =>
            cases pc <;> simp only [reduceCtorEq] at heffect
            obtain ⟨-, rfl⟩ := Prod.mk.inj (Option.some.inj heffect)
            exact Or.inr (Or.inr (Or.inr (Or.inl ⟨fd, path, below, rfl, rfl, rfl⟩)))
  | throw =>
      cases frames with
      | nil => simp [LockMove.effect] at heffect
      | cons frame below =>
          obtain ⟨effect', hthrows, heffect⟩ := Option.map_eq_some_iff.mp heffect
          obtain ⟨-, rfl⟩ := Prod.mk.inj heffect
          exact Or.inr (Or.inr (Or.inr (Or.inr (Or.inl ⟨frame, below, rfl, rfl, hthrows⟩))))
  | signal =>
      obtain ⟨-, rfl⟩ := Prod.mk.inj (Option.some.inj heffect)
      exact Or.inr (Or.inr (Or.inr (Or.inr (Or.inr ⟨rfl, rfl⟩))))

theorem LockMove.effect_balanced
    (heffect : move.effect env monitor frames = some (monitor', effect)) :
    effect.Balanced LockFrame.holds frames := by
  rcases effect_cases heffect with ⟨entry, -, rfl, rfl⟩ | ⟨frame, below, -, rfl, hadvance⟩ |
    ⟨frame, below, callee, rfl, hcallee, rfl⟩ | ⟨fd, path, below, -, rfl, rfl⟩ |
    ⟨frame, below, -, rfl, hthrows⟩ | ⟨-, rfl⟩
  · intro lock
    cases entry <;> rfl
  · exact LockFrame.advance_balanced hadvance
  · apply LockFrame.balanced_call _ rfl
    rcases hcallee with ⟨-, -, rfl⟩ | ⟨hook, submap, -, -, rfl⟩ <;> rfl
  · apply Effect.balanced_ite
    · exact LockFrame.balanced_call rfl rfl
    · exact LockFrame.balanced_move rfl
  · exact LockFrame.throws_balanced hthrows
  · intro lock
    simp [held_cons, LockFrame.holds, LockFrame.guard]

theorem LockMove.effect_wellFormed
    (heffect : move.effect env monitor frames = some (monitor', effect))
    (hwell : WellFormed frames) : WellFormed effect.frames := by
  rcases effect_cases heffect with ⟨entry, -, rfl, rfl⟩ | ⟨frame, below, -, rfl, hadvance⟩ |
    ⟨frame, below, callee, rfl, hcallee, rfl⟩ | ⟨fd, path, below, -, rfl, rfl⟩ |
    ⟨frame, below, -, rfl, hthrows⟩ | ⟨-, rfl⟩
  · cases entry <;> simp [Effect.frames, EntryCall.frames, WellFormed]
  · exact (LockFrame.advance_turns hadvance).wellFormed hwell
  · apply WellFormed.push _ hwell
    rcases hcallee with ⟨-, hallocates, rfl⟩ | ⟨hook, submap, -, hmallocs, rfl⟩
    · exact hallocates
    · exact hmallocs
  · have hsame : (LockFrame.writeToFile (.dumping fd)).function =
        (LockFrame.writeToFile .naming).function := rfl
    have hmoved := hwell.replace hsame
    cases env.hooked with
    | true => exact .push trivial hmoved
    | false => exact hmoved
  · exact (LockFrame.throws_turns hthrows).wellFormed hwell
  · cases frames with
    | nil => exact List.isChain_singleton _
    | cons frame below => exact .push trivial hwell

end Effects

variable {Tid : Type} [DecidableEq Tid]

/-- The owners are exact and every stack is well formed. -/
structure LockState.Inv (s : LockState Tid) : Prop where
  exact : Exact LockFrame.holds s.threads
  wellFormed : ∀ t, WellFormed (s.threads.stack t)

variable {env : LockEnv} {s next : LockState Tid} {label : LockStep Tid}

theorem LockState.Inv.initial (monitor : IoMonitor) :
    (LockState.initial Tid monitor).Inv where
  exact := Exact.initial
  wellFormed := fun _ => List.isChain_nil

theorem LockState.Inv.step (hinv : s.Inv) (hstep : s.step env label = some next) :
    next.Inv := by
  obtain ⟨effect, heffect, happly⟩ := step_eq_some hstep
  refine ⟨hinv.exact.apply (LockMove.effect_balanced heffect) happly, ?_⟩
  intro t
  rw [Threads.apply_stack happly]
  by_cases hsame : t = label.thread
  · rw [hsame, Function.update_self]
    exact LockMove.effect_wellFormed heffect (hinv.wellFormed label.thread)
  · rw [Function.update_of_ne hsame]
    exact hinv.wellFormed t

end Domovoy
