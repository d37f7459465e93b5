/-
Whether a thread ever waits for the mutex of the IO monitor while it owns it: the way
round through the reporter and the hooked file.
-/
import Domovoy.LockSteps

namespace Domovoy

open LockStacks Transition

variable {Tid : Type} [DecidableEq Tid]

/-- The next step of the thread locks the mutex of the monitor. -/
def LockState.WantsIo (s : LockState Tid) (t : Tid) : Prop :=
  ∃ frame below, s.threads.stack t = frame :: below ∧ frame.wants = some .io

/-- No thread is about to lock the mutex that it owns. -/
def LockState.NoSelfDeadlock (s : LockState Tid) : Prop :=
  ∀ t, s.WantsIo t → s.threads.owner .io ≠ some t

/-- When the reporter opens or closes the file of a report on descriptors through the
hooks, monitoring has been switched off or there is no file. -/
def LockState.ReportsUnwatched (s : LockState Tid) (label : LockStep Tid) : Prop :=
  ∀ frame below fd, label.move = .advance →
    s.threads.stack label.thread = frame :: below → frame.testedFd = some fd →
    .reportLeakedFds .reporting ∈ below → s.monitor.enabled = false ∨ fd < 0

/-- A run of the monitor: no crash is handled. -/
def LockStep.NotSignal (label : LockStep Tid) : Prop :=
  label.move ≠ .signal

variable {env : LockEnv} {s next : LockState Tid} {label : LockStep Tid}

/-- No frame of any thread is a signal handler. -/
def LockState.NoHandler (s : LockState Tid) : Prop :=
  ∀ t, ∀ frame ∈ s.threads.stack t, frame.isHandler = false

theorem LockFrame.Turns.no_handler {frame : LockFrame} {below frames : List LockFrame}
    (hturns : frame.Turns below frames)
    (hnone : ∀ g ∈ frame :: below, g.isHandler = false) :
    ∀ g ∈ frames, g.isHandler = false := by
  obtain ⟨hframe, hbelow⟩ := List.forall_mem_cons.mp hnone
  cases hturns with
  | returned => exact hbelow
  | moved frame' hsame =>
      refine List.forall_mem_cons.mpr ⟨?_, hbelow⟩
      rw [isHandler, hsame]
      exact hframe
  | called callee frame' hsame hcallee hnot =>
      refine List.forall_mem_cons.mpr ⟨?_, List.forall_mem_cons.mpr ⟨?_, hbelow⟩⟩
      · exact decide_eq_false hnot
      · rw [isHandler, hsame]
        exact hframe
  | threw _ => exact List.forall_mem_cons.mpr ⟨rfl, hbelow⟩
  | unwound caller rest hrest =>
      subst hrest
      exact List.forall_mem_cons.mpr ⟨rfl, (List.forall_mem_cons.mp hbelow).2⟩
  | closing fd rest hrest =>
      subst hrest
      have hrest := (List.forall_mem_cons.mp hbelow).2
      exact List.forall_mem_cons.mpr ⟨rfl, List.forall_mem_cons.mpr ⟨rfl, hrest⟩⟩

theorem LockState.NoHandler.step (hnone : s.NoHandler) (hmove : label.NotSignal)
    (hstep : s.step env label = some next) : next.NoHandler := by
  obtain ⟨effect, heffect, happly⟩ := step_eq_some hstep
  intro t
  rw [Threads.apply_stack happly]
  by_cases hsame : t = label.thread
  · rw [hsame, Function.update_self]
    have hold := hnone label.thread
    rcases LockMove.effect_cases heffect with ⟨entry, -, hframes, rfl⟩ |
      ⟨frame, below, -, hframes, hadvance⟩ | ⟨frame, below, callee, hframes, hcallee, rfl⟩ |
      ⟨fd, path, below, -, hframes, rfl⟩ | ⟨frame, below, -, hframes, hthrows⟩ | ⟨hsignal, -⟩
    · cases entry <;> simp [Effect.frames, EntryCall.frames, LockFrame.isHandler,
        LockFrame.function]
    · rw [hframes] at hold
      exact (LockFrame.advance_turns hadvance).no_handler hold
    · rw [hframes] at hold
      refine List.forall_mem_cons.mpr ⟨?_, hold⟩
      rcases hcallee with ⟨-, -, rfl⟩ | ⟨hook, submap, -, -, rfl⟩ <;> rfl
    · rw [hframes] at hold
      obtain ⟨-, hbelow⟩ := List.forall_mem_cons.mp hold
      cases env.hooked with
      | true =>
          exact List.forall_mem_cons.mpr ⟨rfl, List.forall_mem_cons.mpr ⟨rfl, hbelow⟩⟩
      | false => exact List.forall_mem_cons.mpr ⟨rfl, hbelow⟩
    · rw [hframes] at hold
      exact (LockFrame.throws_turns hthrows).no_handler hold
    · exact absurd hsignal hmove
  · rw [Function.update_of_ne hsame]
    exact hnone t

/-- A call comes to lock the mutex of the monitor by the test of a hook, or at the start
of `Disable` or of the report, and that of the pool at the start of the document of the
handler; or it comes to a lock by the return of what it called. -/
theorem LockFrame.advance_wants {monitor monitor' : IoMonitor} {frame top : LockFrame}
    {below rest : List LockFrame} {effect : LockEffect} {lock : MutexId}
    (hadvance : frame.advance env monitor below = some (monitor', effect))
    (hframes : effect.frames = top :: rest) (hwants : top.wants = some lock) :
    below = top :: rest ∨
      (lock = .io ∧ rest = below ∧
        ((∃ fd, frame.testedFd = some fd ∧ ¬ (monitor.enabled = false ∨ fd < 0)) ∨
          frame.function = .disable ∨ frame.function = .reportLeakedFds)) ∨
      lock = .pool ∧ frame = .handleCrashSignal .tracing ∧
        rest = .handleCrashSignal .building :: below := by
  cases advance_proceeds hadvance with
  | taken lock' frame' _ _ hguard =>
      obtain ⟨rfl, -⟩ := List.cons.inj hframes
      rw [guard_of_wants hwants] at hguard
      cases hguard
  | dropped | returned => exact Or.inl hframes
  | moved frame' _ _ _ _ hcomes =>
      obtain ⟨rfl, rfl⟩ := List.cons.inj hframes
      obtain ⟨hlock, hfrom⟩ := hcomes lock hwants
      exact Or.inr (Or.inl ⟨hlock, rfl, hfrom⟩)
  | called callee frame' _ _ _ _ _ _ _ hcomes =>
      obtain ⟨rfl, rfl⟩ := List.cons.inj hframes
      obtain ⟨hlock, hfrom, rfl⟩ := hcomes lock hwants
      exact Or.inr (Or.inr ⟨hlock, hfrom, rfl⟩)
  | threwLocked | threw =>
      obtain ⟨rfl, -⟩ := List.cons.inj hframes
      cases hwants
  | unwound caller rest' _ _ _ hunwind =>
      obtain ⟨-, ⟨lock, -, rfl⟩ | ⟨-, rfl⟩ | ⟨fd, -, -, rfl⟩⟩ := unwind_cases hunwind <;>
        obtain ⟨rfl, -⟩ := List.cons.inj hframes <;> cases hwants

/-- A hook that was called by another function was called by the reporter. -/
theorem WellFormed.tested_caller {frame caller : LockFrame} {below : List LockFrame}
    {fd : Int} (hwell : WellFormed (frame :: caller :: below))
    (htested : frame.testedFd = some fd) : ∃ pc, caller = .writeToFile pc := by
  have hcalled := hwell.calledBy
  cases frame with
  | opened fd' call pc =>
      cases caller <;> first | exact hcalled.elim | exact ⟨_, rfl⟩
  | closed fd' pc =>
      cases caller <;> first | exact hcalled.elim | exact ⟨_, rfl⟩
  | _ => simp [LockFrame.testedFd] at htested

/-- Where a thread that holds the mutex tests the flag in a hook, it is in the report on
descriptors. -/
theorem WellFormed.reporting_mem {frame g : LockFrame} {below : List LockFrame} {fd : Int}
    (hwell : WellFormed (frame :: below)) (htested : frame.testedFd = some fd)
    (hnone : ∀ g ∈ frame :: below, g.isHandler = false) (hmem : g ∈ below)
    (hholds : g.holds .io = true) : .reportLeakedFds .reporting ∈ below := by
  cases below with
  | nil => simp at hmem
  | cons caller below =>
      obtain ⟨pc, rfl⟩ := hwell.tested_caller htested
      have hwrite := hwell.below
      rcases List.mem_cons.mp hmem with rfl | hmem
      · simp [LockFrame.holds, LockFrame.guard] at hholds
      cases below with
      | nil => simp at hmem
      | cons writer below =>
          have hcalled := hwrite.calledBy
          have hwriter : writer.isHandler = false := hnone writer (by simp)
          cases writer with
          | reportLeakedFds pc' =>
              cases pc' <;> first | exact hcalled.elim | simp
          | handleCrashSignal pc' =>
              exact absurd hwriter (by simp [LockFrame.isHandler, LockFrame.function])
          | _ => exact hcalled.elim

/-- The test of a hook that finds the monitor on is followed by its lock. -/
theorem LockState.wantsIo_of_tested {frame : LockFrame} {below : List LockFrame} {fd : Int}
    (hadvance : label.move = .advance)
    (hstack : s.threads.stack label.thread = frame :: below)
    (htested : frame.testedFd = some fd) (hon : ¬ (s.monitor.enabled = false ∨ fd < 0))
    (hstep : s.step env label = some next) :
    ∃ top, top.wants = some .io ∧ next.threads.stack label.thread = top :: below ∧
      next.threads.owner = s.threads.owner := by
  obtain ⟨effect, heffect, happly⟩ := step_eq_some hstep
  rw [hadvance, hstack, LockMove.effect] at heffect
  have hgoto : ∃ top, top.wants = some .io ∧ effect = .goto (top :: below) := by
    cases frame with
    | opened fd' call pc =>
        cases pc with
        | testing =>
            obtain rfl := Option.some.inj htested
            obtain ⟨-, rfl⟩ := Prod.mk.inj (Option.some.inj heffect)
            exact ⟨.opened fd' call .locking, rfl, by rw [if_neg hon]⟩
        | _ => simp [LockFrame.testedFd] at htested
    | closed fd' pc =>
        cases pc with
        | testing =>
            obtain rfl := Option.some.inj htested
            obtain ⟨-, rfl⟩ := Prod.mk.inj (Option.some.inj heffect)
            exact ⟨.closed fd' .locking, rfl, by rw [if_neg hon]⟩
        | _ => simp [LockFrame.testedFd] at htested
    | _ => simp [LockFrame.testedFd] at htested
  obtain ⟨top, hwants, rfl⟩ := hgoto
  rw [← Option.some.inj happly]
  exact ⟨top, hwants, Threads.setStack_stack_self .., rfl⟩

theorem LockFrame.not_holds_of_wants {frame : LockFrame} {lock other : MutexId}
    (hwants : frame.wants = some lock) : frame.holds other = false :=
  holds_of_guard_none (guard_of_wants hwants) other

/-- Nothing but a report holds the mutex under a call that is about to lock it. -/
theorem LockState.not_owner_of_wantsIo (hinv : s.Inv) (hnone : s.NoHandler)
    (hunwatched : s.ReportsUnwatched label) (hmove : label.NotSignal)
    (hstep : s.step env label = some next) (hwants : next.WantsIo label.thread) :
    next.threads.owner .io ≠ some label.thread := by
  obtain ⟨effect, heffect, happly⟩ := step_eq_some hstep
  obtain ⟨top, rest, htop, hio⟩ := hwants
  intro howner
  obtain ⟨g, hg, hholds⟩ := (hinv.step hstep).exact.owner_iff.mp howner
  rw [htop] at hg
  have hrest : g ∈ rest := by
    rcases List.mem_cons.mp hg with rfl | hrest
    · rw [LockFrame.not_holds_of_wants hio] at hholds
      contradiction
    · exact hrest
  rw [Threads.apply_stack happly, Function.update_self] at htop
  have hwell := hinv.wellFormed label.thread
  have hnoHandler := hnone label.thread
  rcases LockMove.effect_cases heffect with ⟨entry, -, hframes, rfl⟩ |
    ⟨frame, below, hadvance, hframes, hturn⟩ |
    ⟨frame, below, callee, hframes, hcallee, rfl⟩ | ⟨fd, path, below, -, hframes, rfl⟩ |
    ⟨frame, below, -, hframes, hthrows⟩ | ⟨hsignal, -⟩
  · cases entry <;> simp [Effect.frames, EntryCall.frames] at htop <;>
      obtain ⟨rfl, -⟩ := htop <;> simp [LockFrame.wants] at hio
  · rw [hframes] at hwell hnoHandler
    rcases LockFrame.advance_wants hturn htop hio with rfl | ⟨-, rfl, htested | hentry⟩ |
      ⟨hpool, -, -⟩
    · rw [hwell.caller_wants (hnoHandler frame List.mem_cons_self)] at hio
      contradiction
    · obtain ⟨fd, htested, hon⟩ := htested
      have hreport := hwell.reporting_mem htested hnoHandler hrest hholds
      exact hon (hunwatched frame rest fd hadvance hframes htested hreport)
    · cases rest with
      | nil => simp at hrest
      | cons caller rest =>
          have hcalled := hwell.calledBy
          rcases hentry with hentry | hentry <;> rw [hentry] at hcalled <;>
            exact hcalled.elim
    · contradiction
  · obtain ⟨rfl, -⟩ := List.cons.inj htop
    rcases hcallee with ⟨-, -, rfl⟩ | ⟨hook, submap, -, -, rfl⟩ <;>
      simp [LockFrame.wants] at hio
  · cases hhooked : env.hooked <;>
      simp only [Effect.frames, hhooked, if_true, Bool.false_eq_true, if_false] at htop <;>
      obtain ⟨rfl, -⟩ := List.cons.inj htop <;> simp [LockFrame.wants] at hio
  · rcases LockFrame.throws_cases hthrows with ⟨call, -, rfl⟩ | ⟨pc, -, rfl⟩ <;>
      obtain ⟨rfl, -⟩ := List.cons.inj htop <;> simp [LockFrame.wants] at hio
  · exact absurd hsignal hmove

/-- One step leads to no self-deadlock if and only if it is not such a test. -/
theorem LockState.step_noSelfDeadlock_iff (hinv : s.Inv) (hnone : s.NoHandler)
    (hfree : s.NoSelfDeadlock) (hmove : label.NotSignal)
    (hstep : s.step env label = some next) :
    next.NoSelfDeadlock ↔ s.ReportsUnwatched label := by
  obtain ⟨effect, heffect, happly⟩ := step_eq_some hstep
  constructor
  · intro hnext frame below fd hadvance hstack htested hreport
    by_contra hon
    obtain ⟨top, hwants, htop, howner⟩ :=
      wantsIo_of_tested hadvance hstack htested hon hstep
    apply hnext label.thread ⟨top, below, htop, hwants⟩
    rw [howner, hinv.exact.owner_iff, hstack]
    exact ⟨_, List.mem_cons_of_mem frame hreport, rfl⟩
  · intro hunwatched t hwants
    by_cases hsame : t = label.thread
    · subst hsame
      exact not_owner_of_wantsIo hinv hnone hunwatched hmove hstep hwants
    · have hsameStack : next.threads.stack t = s.threads.stack t := by
        rw [Threads.apply_stack happly, Function.update_of_ne hsame]
      intro howner
      apply hfree t _ (Threads.apply_owner happly hsame howner)
      rw [WantsIo, ← hsameStack]
      exact hwants

/-- From any state of the monitor, over any run of its calls on any number of threads:
no thread is ever about to lock the mutex that it owns if and only if no file of a
report is opened or closed through a hook that finds the monitor on. -/
theorem io_noSelfDeadlock_iff (env : LockEnv) (monitor : IoMonitor)
    (labels : List (LockStep Tid)) (final : LockState Tid)
    (hlabels : ∀ label ∈ labels, label.NotSignal)
    (hrun : run (LockState.step env) (LockState.initial Tid monitor) labels = some final) :
    Throughout (LockState.step env) LockState.NoSelfDeadlock
        (LockState.initial Tid monitor) labels ↔
      Along (LockState.step env) LockState.ReportsUnwatched
        (LockState.initial Tid monitor) labels := by
  have hnone : (LockState.initial Tid monitor).NoHandler := by
    simp [LockState.NoHandler, LockState.initial, Threads.initial]
  have hfree : (LockState.initial Tid monitor).NoSelfDeadlock := by
    intro t _
    simp [LockState.initial, Threads.initial]
  have henv : Along (LockState.step env) (fun _ label => label.NotSignal)
      (LockState.initial Tid monitor) labels := (along_iff_forall hrun).mpr hlabels
  apply throughout_iff_along (fun s => s.Inv ∧ s.NoHandler ∧ s.NoSelfDeadlock) _ _
    ⟨LockState.Inv.initial monitor, hnone, hfree⟩ hfree henv hrun
  · rintro s label next ⟨hinv, hnone, hfree⟩ hmove hunwatched hstep
    exact ⟨hinv.step hstep, hnone.step hmove hstep,
      (LockState.step_noSelfDeadlock_iff hinv hnone hfree hmove hstep).mpr hunwatched⟩
  · rintro s label next ⟨hinv, hnone, hfree⟩ hmove hstep
    exact LockState.step_noSelfDeadlock_iff hinv hnone hfree hmove hstep

namespace DeadlockWitness

/-- The platform hooks the file of the report. -/
def hooked : LockEnv := { hooked := true, reporter := true }

def leaky : IoMonitor where
  enabled := true
  openFds := AList.insert 5 (FdInfo.ofPath none) ∅

def start : LockState Unit := LockState.initial Unit leaky

def only (move : LockMove) : LockStep Unit :=
  { thread := (), move := move }

/-- The report cannot open its file, and goes through. -/
def noFile : List (LockStep Unit) :=
  [only (.call .reportLeakedFds), only .advance, only .advance, only .allocate,
    only .advance, only .advance, only .advance, only (.openFile (-1) none), only .advance,
    only .advance, only .advance]

theorem noFile_noSelfDeadlock_iff :
    Throughout (LockState.step hooked) LockState.NoSelfDeadlock start noFile ↔
      Along (LockState.step hooked) LockState.ReportsUnwatched start noFile :=
  io_noSelfDeadlock_iff hooked leaky noFile _ (by simp [noFile, only, LockStep.NotSignal])
    rfl

/-- The report opens its file as descriptor 6. -/
def oneLeak : List (LockStep Unit) :=
  [only (.call .reportLeakedFds), only .advance, only .advance, only .advance,
    only (.openFile 6 none), only .advance]

theorem oneLeak_selfDeadlock :
    ¬ Throughout (LockState.step hooked) LockState.NoSelfDeadlock start oneLeak := by
  intro hall
  have hfinal := hall _ (List.prefix_refl _) _ rfl
  exact hfinal () ⟨_, _, rfl, rfl⟩ rfl

end DeadlockWitness

end Domovoy
