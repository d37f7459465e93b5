/-
Whether the crash handler ever waits for a mutex that the code it interrupted holds,
with the signal delivered anywhere.
-/
import Domovoy.SelfDeadlock

namespace Domovoy

open LockStacks Transition

variable {Tid : Type} [DecidableEq Tid]

/-- What is running on the thread does not wait for a mutex that is held by code which a
handler above it interrupted. -/
def WaitsForNoOne (frames : List LockFrame) : Prop :=
  ∀ frame below lock, frames = frame :: below → frame.wants = some lock →
    ∀ g ∈ interrupted LockFrame.isHandler frames, g.holds lock = false

/-- The mutex that a request is for: the pool's, for memory and at the start of the
document of the handler, or that of the submap of a block. -/
def LockMove.asks : LockMove → List LockFrame → Option MutexId
  | .allocate, _ => some .pool
  | .record _ submap, _ => some (.submap submap)
  | .advance, .handleCrashSignal .tracing :: _ => some .pool
  | _, _ => none

/-- The signal finds its thread inside no section of the pool or of the map. -/
def LockState.SignalOutside (s : LockState Tid) (label : LockStep Tid) : Prop :=
  label.move = .signal → ∀ frame ∈ s.threads.stack label.thread, ∀ lock,
    frame.holds lock = true → lock = .io

/-- What was true of every part of the stack when it ran. -/
def Settled : List LockFrame → Prop
  | [] => True
  | frame :: below => WaitsForNoOne (frame :: below) ∧ Settled below

variable {env : LockEnv} {s next : LockState Tid} {label : LockStep Tid}

theorem Settled.below {frame : LockFrame} {below : List LockFrame}
    (hsettled : Settled (frame :: below)) : Settled below :=
  hsettled.2

theorem waitsForNoOne_of_wants_eq_none {frame : LockFrame} {below : List LockFrame}
    (hwants : frame.wants = none) : WaitsForNoOne (frame :: below) := by
  intro frame' below' lock heq hlock
  obtain ⟨rfl, -⟩ := List.cons.inj heq
  rw [hwants] at hlock
  contradiction

/-- A call that waits for nothing. -/
theorem Settled.push {frame : LockFrame} {below : List LockFrame}
    (hsettled : Settled below) (hwants : frame.wants = none) : Settled (frame :: below) :=
  ⟨waitsForNoOne_of_wants_eq_none hwants, hsettled⟩

theorem LockFrame.isHandler_congr {frame frame' : LockFrame}
    (hsame : frame'.function = frame.function) : frame'.isHandler = frame.isHandler := by
  rw [isHandler, isHandler, hsame]

theorem interrupted_congr {frame frame' : LockFrame}
    (hsame : frame'.function = frame.function) (below : List LockFrame) :
    interrupted LockFrame.isHandler (frame' :: below) =
      interrupted LockFrame.isHandler (frame :: below) := by
  rw [interrupted, interrupted, LockFrame.isHandler_congr hsame]

/-- The calls under the new top were settled before, or wait for nothing. -/
theorem LockFrame.Turns.settled {frame : LockFrame} {below frames : List LockFrame}
    (hturns : frame.Turns below frames) (hsettled : Settled (frame :: below))
    (hwaits : WaitsForNoOne frames) : Settled frames := by
  cases hturns with
  | returned => exact hsettled.below
  | moved frame' hsame => exact ⟨hwaits, hsettled.below⟩
  | called callee frame' hsame hcallee hnot =>
      exact ⟨hwaits, hsettled.below.push (hcallee.wants_eq_none hnot)⟩
  | threw hnot => exact ⟨hwaits, hsettled.below⟩
  | unwound caller rest hbelow hnot =>
      subst hbelow
      exact ⟨hwaits, hsettled.below.below⟩
  | closing fd rest hbelow =>
      subst hbelow
      exact ⟨hwaits, hsettled.below.below.push rfl⟩

/-- What was interrupted holds no mutex of the pool or of the map. -/
def LockState.InterruptedOutside (s : LockState Tid) : Prop :=
  ∀ t, ∀ g ∈ interrupted LockFrame.isHandler (s.threads.stack t), ∀ lock,
    g.holds lock = true → lock = .io

/-- A call interrupts nothing by its own steps. -/
theorem LockFrame.Turns.interrupted_subset {frame : LockFrame}
    {below frames : List LockFrame} (hturns : frame.Turns below frames) :
    interrupted LockFrame.isHandler frames ⊆
      interrupted LockFrame.isHandler (frame :: below) := by
  have hbelow : interrupted LockFrame.isHandler below ⊆
      interrupted LockFrame.isHandler (frame :: below) := interrupted_cons_subset frame below
  cases hturns with
  | returned => exact hbelow
  | moved frame' hsame => rw [interrupted_congr hsame]; exact List.Subset.refl _
  | called callee frame' hsame hcallee hnot =>
      have hcallee : callee.isHandler = false := decide_eq_false hnot
      rw [interrupted_cons_of_not hcallee, interrupted_congr hsame]
      exact List.Subset.refl _
  | threw hnot =>
      rw [interrupted_cons_of_not rfl]
      exact hbelow
  | unwound caller rest hrest hnot =>
      subst hrest
      rw [interrupted_cons_of_not rfl]
      exact List.Subset.trans (interrupted_cons_subset caller rest) hbelow
  | closing fd rest hrest =>
      subst hrest
      rw [interrupted_cons_of_not rfl, interrupted_cons_of_not rfl]
      exact List.Subset.trans (interrupted_cons_subset _ rest) hbelow

/-- Only a signal interrupts. -/
theorem LockMove.effect_interrupted {monitor monitor' : IoMonitor} {move : LockMove}
    {frames : List LockFrame} {effect : LockEffect}
    (heffect : move.effect env monitor frames = some (monitor', effect)) :
    interrupted LockFrame.isHandler effect.frames ⊆
        interrupted LockFrame.isHandler frames ∨
      move = .signal ∧ interrupted LockFrame.isHandler effect.frames = frames := by
  rcases effect_cases heffect with ⟨entry, -, rfl, rfl⟩ |
    ⟨frame, below, -, rfl, hturn⟩ | ⟨frame, below, callee, rfl, hcallee, rfl⟩ |
    ⟨fd, path, below, -, rfl, rfl⟩ | ⟨frame, below, -, rfl, hthrows⟩ | ⟨hmove, rfl⟩
  · left
    cases entry <;> simp [Effect.frames, EntryCall.frames, interrupted,
      LockFrame.isHandler, LockFrame.function]
  · exact Or.inl (LockFrame.advance_turns hturn).interrupted_subset
  · left
    have hnot : callee.isHandler = false := by
      rcases hcallee with ⟨-, -, rfl⟩ | ⟨hook, submap, -, -, rfl⟩ <;> rfl
    rw [Effect.frames, interrupted_cons_of_not hnot]
    exact List.Subset.refl _
  · left
    cases env.hooked <;> exact List.Subset.refl _
  · exact Or.inl (LockFrame.throws_turns hthrows).interrupted_subset
  · exact Or.inr ⟨hmove, interrupted_cons_handler rfl frames⟩

theorem LockState.InterruptedOutside.step (houtside : s.InterruptedOutside)
    (hsignal : s.SignalOutside label) (hstep : s.step env label = some next) :
    next.InterruptedOutside := by
  obtain ⟨effect, heffect, happly⟩ := step_eq_some hstep
  intro t
  rw [Threads.apply_stack happly]
  by_cases hsame : t = label.thread
  · rw [hsame, Function.update_self]
    rcases LockMove.effect_interrupted heffect with hsubset | ⟨hmove, hinterrupted⟩
    · exact fun g hg => houtside label.thread g (hsubset hg)
    · rw [hinterrupted]
      exact hsignal hmove
  · rw [Function.update_of_ne hsame]
    exact houtside t

namespace CrashLockWitness

/-- The platform writes the file of the report without the hooks. -/
def unhooked : LockEnv := { hooked := false, reporter := true }

def start : LockState Unit := LockState.initial Unit IoMonitor.initial

def only (move : LockMove) : LockStep Unit :=
  { thread := (), move := move }

end CrashLockWitness

end Domovoy
