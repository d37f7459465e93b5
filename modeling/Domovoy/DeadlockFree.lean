/-
The mutexes are always taken in one order, the monitor's before those of the submaps and
these before the pool's, as long as nothing is thrown: a thread that cannot go on waits
for one that can, or for the monitor of its own. And a call takes a bounded number of
steps.
-/
import Domovoy.CrashLocks
import Domovoy.LockOrder

namespace Domovoy

open LockStacks Transition Relation

/-- The pool is locked last: nothing is locked under it. -/
def MutexId.level : MutexId → Nat
  | .pool => 0
  | .submap _ => 1
  | .io => 2

/-- The labels by which a call goes on: no thread begins another one. -/
def LockMove.GoesOn : LockMove → Prop
  | .advance => True
  | .openFile _ _ => True
  | _ => False

/-- Nothing is thrown: the pool maps its blocks, and no string or document runs out of
memory. -/
def LockStep.NotThrow {Tid : Type} (label : LockStep Tid) : Prop :=
  label.move ≠ .throw

/-- Nothing runs over a call that holds the pool, and over one that holds a submap only
a call of the pool. -/
def LockFrame.Over (frame under : LockFrame) : Prop :=
  under.guard ≠ some .pool ∧
    ∀ submap, under.guard = some (.submap submap) → frame.function = .pool

def Ranked (frames : List LockFrame) : Prop :=
  frames.Pairwise LockFrame.Over

theorem LockFrame.function_of_guard_pool {frame : LockFrame}
    (hguard : frame.guard = some .pool) : frame.function = .pool := by
  cases frame with
  | pool call pc => rfl
  | record call submap locked => cases locked <;> cases hguard
  | opened fd call pc | closed fd pc | disable pc => cases pc <;> cases hguard
  | reportLeakedFds pc => cases pc <;> cases hguard
  | writeToFile | handleCrashSignal | thrown => cases hguard

theorem LockFrame.function_of_guard_submap {frame : LockFrame} {index : Fin (2 ^ 4)}
    (hguard : frame.guard = some (.submap index)) : frame.function = .record := by
  cases frame with
  | pool call pc => cases pc <;> cases hguard
  | record call submap locked => rfl
  | opened fd call pc | closed fd pc | disable pc => cases pc <;> cases hguard
  | reportLeakedFds pc => cases pc <;> cases hguard
  | writeToFile | handleCrashSignal | thrown => cases hguard

section Ranks

variable {env : LockEnv} {monitor monitor' : IoMonitor} {frame : LockFrame}
  {below frames : List LockFrame} {effect : LockEffect}

/-- The next step of a call throws nothing of its own. -/
theorem LockFrame.advance_not_throwing
    (hquiet : ∀ g ∈ frame :: below, g.isThrowing = false)
    (hadvance : frame.advance env monitor below = some (monitor', effect)) :
    ∀ g ∈ effect.frames, g.isThrowing = false := by
  obtain ⟨hframe, hbelow⟩ := List.forall_mem_cons.mp hquiet
  cases advance_proceeds hadvance with
  | taken lock frame' _ _ _ hquiet' => exact List.forall_mem_cons.mpr ⟨hquiet', hbelow⟩
  | dropped | returned => exact hbelow
  | moved frame' _ _ hquiet' => exact List.forall_mem_cons.mpr ⟨hquiet', hbelow⟩
  | called callee frame' _ _ _ _ _ hquiet' =>
      exact List.forall_mem_cons.mpr ⟨hquiet'.1, List.forall_mem_cons.mpr ⟨hquiet'.2, hbelow⟩⟩
  | threwLocked _ hthrowing | threw hthrowing =>
      rw [hframe] at hthrowing
      contradiction
  | unwound _ _ _ hthrown =>
      rw [hthrown] at hframe
      contradiction

theorem LockMove.effect_not_throwing {move : LockMove} (hmove : move ≠ .throw)
    (hquiet : ∀ g ∈ frames, g.isThrowing = false)
    (heffect : move.effect env monitor frames = some (monitor', effect)) :
    ∀ g ∈ effect.frames, g.isThrowing = false := by
  rcases effect_cases heffect with ⟨entry, -, rfl, rfl⟩ | ⟨frame, below, -, rfl, hturn⟩ |
    ⟨frame, below, callee, rfl, hcallee, rfl⟩ | ⟨fd, path, below, -, rfl, rfl⟩ |
    ⟨frame, below, hthrow, -, -⟩ | ⟨-, rfl⟩
  · cases entry <;> simp [Effect.frames, EntryCall.frames, LockFrame.isThrowing]
  · exact LockFrame.advance_not_throwing hquiet hturn
  · refine List.forall_mem_cons.mpr ⟨?_, hquiet⟩
    rcases hcallee with ⟨-, -, rfl⟩ | ⟨hook, submap, -, -, rfl⟩ <;> rfl
  · obtain ⟨-, hbelow⟩ := List.forall_mem_cons.mp hquiet
    cases env.hooked with
    | true => exact List.forall_mem_cons.mpr ⟨rfl, List.forall_mem_cons.mpr ⟨rfl, hbelow⟩⟩
    | false => exact List.forall_mem_cons.mpr ⟨rfl, hbelow⟩
  · exact absurd hthrow hmove
  · exact List.forall_mem_cons.mpr ⟨rfl, hquiet⟩

/-- Where nothing is thrown, a call of the pool calls nothing, and one of the map calls
only the pool. -/
theorem LockFunction.CalledBy.over {callee caller : LockFrame}
    (hcalled : callee.function.CalledBy caller) (hnot : callee.isHandler = false)
    (hcallee : callee.isThrowing = false) (hcaller : caller.isThrowing = false) :
    caller.function ≠ .pool ∧ (caller.function = .record → callee.function = .pool) := by
  cases callee with
  | pool call pc =>
      refine ⟨?_, fun _ => rfl⟩
      cases caller with
      | pool call' pc' => cases hcalled
      | _ => exact LockFunction.noConfusion
  | record call submap locked =>
      cases caller with
      | pool call' pc' => cases pc' <;> first | cases hcalled; done | cases hcaller
      | writeToFile pc' => exact ⟨LockFunction.noConfusion, LockFunction.noConfusion⟩
      | handleCrashSignal pc' => exact ⟨LockFunction.noConfusion, LockFunction.noConfusion⟩
      | record | opened | closed | disable | reportLeakedFds | thrown => cases hcalled
  | opened fd call pc | closed fd pc =>
      cases caller <;> first
        | exact hcalled.elim
        | exact ⟨LockFunction.noConfusion, LockFunction.noConfusion⟩
  | disable pc => exact hcalled.elim
  | reportLeakedFds pc => exact hcalled.elim
  | writeToFile pc =>
      cases caller <;> first
        | exact hcalled.elim
        | exact ⟨LockFunction.noConfusion, LockFunction.noConfusion⟩
  | handleCrashSignal pc => cases hnot
  | thrown => cases hcallee

theorem Ranked.tail (hranked : Ranked (frame :: below)) : Ranked below :=
  (List.pairwise_cons.mp hranked).2

/-- A call keeps its place when it moves on. -/
theorem Ranked.replace {frame' : LockFrame} (hsame : frame'.function = frame.function)
    (hranked : Ranked (frame :: below)) : Ranked (frame' :: below) := by
  obtain ⟨hover, hbelow⟩ := List.pairwise_cons.mp hranked
  refine List.pairwise_cons.mpr ⟨fun under hunder => ?_, hbelow⟩
  obtain ⟨hpool, hsubmap⟩ := hover under hunder
  exact ⟨hpool, fun index hguard => hsame.trans (hsubmap index hguard)⟩

/-- What is called runs over the calls that its caller runs over: none of these holds a
submap, for the caller is not a call of the pool. -/
theorem Ranked.push {callee caller : LockFrame} (hranked : Ranked (caller :: below))
    (hcalled : callee.function.CalledBy caller) (hnot : callee.isHandler = false)
    (hcallee : callee.isThrowing = false) (hcaller : caller.isThrowing = false) :
    Ranked (callee :: caller :: below) := by
  obtain ⟨hnotPool, hrecord⟩ := hcalled.over hnot hcallee hcaller
  refine List.pairwise_cons.mpr ⟨?_, hranked⟩
  refine List.forall_mem_cons.mpr ⟨⟨?_, ?_⟩, fun under hunder => ?_⟩
  · exact fun hguard => hnotPool (LockFrame.function_of_guard_pool hguard)
  · exact fun index hguard => hrecord (LockFrame.function_of_guard_submap hguard)
  · obtain ⟨hpool, hsubmap⟩ := (List.pairwise_cons.mp hranked).1 under hunder
    exact ⟨hpool, fun index hguard => absurd (hsubmap index hguard) hnotPool⟩

theorem LockFrame.Turns.ranked (hturns : frame.Turns below frames)
    (hquiet : ∀ g ∈ frames, g.isThrowing = false) (hranked : Ranked (frame :: below)) :
    Ranked frames := by
  cases hturns with
  | returned => exact hranked.tail
  | moved frame' hsame => exact hranked.replace hsame
  | called callee frame' hsame hcallee hnot =>
      have hcaller := hquiet frame' (by simp)
      exact (hranked.replace hsame).push hcallee (decide_eq_false hnot)
        (hquiet callee List.mem_cons_self) hcaller
  | threw _ => cases hquiet .thrown List.mem_cons_self
  | unwound caller rest => cases hquiet .thrown List.mem_cons_self
  | closing fd rest => cases hquiet (.writeToFile .unwinding) (by simp)

/-- Every move keeps the stack of its thread ranked, if nothing is thrown and the signal
is delivered outside the sections of the pool and of the map. -/
theorem LockMove.effect_ranked {move : LockMove} (hmove : move ≠ .throw)
    (houtside : move = .signal → ∀ frame ∈ frames, ∀ lock,
      frame.holds lock = true → lock = .io)
    (hquiet : ∀ g ∈ frames, g.isThrowing = false) (hranked : Ranked frames)
    (heffect : move.effect env monitor frames = some (monitor', effect)) :
    Ranked effect.frames := by
  have hquiet' := effect_not_throwing hmove hquiet heffect
  rcases effect_cases heffect with ⟨entry, -, rfl, rfl⟩ | ⟨frame, below, -, rfl, hturn⟩ |
    ⟨frame, below, callee, rfl, hcallee, rfl⟩ | ⟨fd, path, below, -, rfl, rfl⟩ |
    ⟨frame, below, hthrow, -, -⟩ | ⟨hsignal, rfl⟩
  · cases entry <;> simp [Effect.frames, EntryCall.frames, Ranked]
  · exact (LockFrame.advance_turns hturn).ranked hquiet' hranked
  · have hcaller := hquiet frame List.mem_cons_self
    rcases hcallee with ⟨-, hallocates, rfl⟩ | ⟨hook, submap, -, hmallocs, rfl⟩
    · exact hranked.push hallocates rfl rfl hcaller
    · exact hranked.push hmallocs rfl rfl hcaller
  · have hsame : (LockFrame.writeToFile (.dumping fd)).function =
        (LockFrame.writeToFile .naming).function := rfl
    have hmoved := hranked.replace hsame
    cases env.hooked with
    | true => exact hmoved.push trivial rfl rfl rfl
    | false => exact hmoved
  · exact absurd hthrow hmove
  · refine List.pairwise_cons.mpr ⟨fun under hunder => ⟨?_, ?_⟩, hranked⟩
    · intro hguard
      cases houtside hsignal under hunder .pool (LockFrame.holds_eq_true.mpr hguard)
    · intro index hguard
      cases houtside hsignal under hunder (.submap index)
        (LockFrame.holds_eq_true.mpr hguard)

/-- A call that waits for a mutex is of the function that locks it. -/
theorem Ranked.not_submap {lock : MutexId} {under : LockFrame} {index : Fin (2 ^ 4)}
    (hranked : Ranked (frame :: below)) (hwants : frame.wants = some lock)
    (hnot : lock ≠ .pool) (hmem : under ∈ below) : under.guard ≠ some (.submap index) := by
  intro hguard
  have hpool := ((List.pairwise_cons.mp hranked).1 under hmem).2 index hguard
  cases frame with
  | pool call pc =>
      cases pc <;> cases hwants
      exact hnot rfl
  | _ => cases hpool

/-- Every mutex that the calls hold comes before the one that they wait for. -/
theorem Ranked.ordered (hranked : Ranked frames) :
    Ordered MutexId.level LockFrame.holds LockFrame.wants frames := by
  intro lock hwanted under hunder other hholds
  cases frames with
  | nil => cases hunder
  | cons top below =>
      rcases List.mem_cons.mp hunder with rfl | hbelow
      · rw [LockFrame.not_holds_of_wants hwanted] at hholds
        contradiction
      · have hguard := LockFrame.holds_eq_true.mp hholds
        have hpool := ((List.pairwise_cons.mp hranked).1 under hbelow).1
        cases lock with
        | pool =>
            cases other with
            | pool => exact absurd hguard hpool
            | submap index => exact Or.inr Nat.zero_lt_one
            | io => exact Or.inr Nat.zero_lt_two
        | submap index =>
            cases other with
            | pool => exact absurd hguard hpool
            | submap other =>
                exact absurd hguard (hranked.not_submap hwanted MutexId.noConfusion hbelow)
            | io => exact Or.inr Nat.one_lt_two
        | io =>
            cases other with
            | pool => exact absurd hguard hpool
            | submap other =>
                exact absurd hguard (hranked.not_submap hwanted MutexId.noConfusion hbelow)
            | io => exact Or.inl rfl

end Ranks

variable {Tid : Type} [DecidableEq Tid]

variable {env : LockEnv} {s next : LockState Tid} {label : LockStep Tid}

/-- What holds of every state that a run reaches with nothing thrown. -/
structure LockState.Sound (s : LockState Tid) : Prop where
  inv : s.Inv
  quiet : ∀ t, ∀ frame ∈ s.threads.stack t, frame.isThrowing = false
  ranked : ∀ t, Ranked (s.threads.stack t)

theorem LockState.Sound.initial (monitor : IoMonitor) :
    (LockState.initial Tid monitor).Sound where
  inv := Inv.initial monitor
  quiet := by simp [LockState.initial, Threads.initial]
  ranked := fun _ => List.Pairwise.nil

theorem LockState.Sound.step (hsound : s.Sound) (hthrow : label.NotThrow)
    (hsignal : s.SignalOutside label) (hstep : s.step env label = some next) :
    next.Sound := by
  obtain ⟨effect, heffect, happly⟩ := step_eq_some hstep
  have hquiet := hsound.quiet label.thread
  refine ⟨hsound.inv.step hstep, fun t => ?_, fun t => ?_⟩
  · rw [Threads.apply_stack happly]
    by_cases hsame : t = label.thread
    · rw [hsame, Function.update_self]
      exact LockMove.effect_not_throwing hthrow hquiet heffect
    · rw [Function.update_of_ne hsame]
      exact hsound.quiet t
  · rw [Threads.apply_stack happly]
    by_cases hsame : t = label.thread
    · rw [hsame, Function.update_self]
      exact LockMove.effect_ranked hthrow hsignal hquiet (hsound.ranked label.thread)
        heffect
    · rw [Function.update_of_ne hsame]
      exact hsound.ranked t

theorem LockState.Sound.run {labels : List (LockStep Tid)} {final : LockState Tid}
    (hsound : s.Sound) (hthrow : ∀ label ∈ labels, label.NotThrow)
    (hsignal : Along (LockState.step env) LockState.SignalOutside s labels)
    (hrun : Transition.run (LockState.step env) s labels = some final) : final.Sound := by
  have hquiet : Along (LockState.step env) (fun _ label => label.NotThrow) s labels :=
    (along_iff_forall hrun).mpr hthrow
  apply run_invariant_along _ hsound (hquiet.and hsignal) hrun
  rintro s label next hsound ⟨hthrow, hsignal⟩ hstep
  exact hsound.step hthrow hsignal hstep

/-- The only mutex that a thread waits for and owns is that of the monitor. -/
theorem LockState.Sound.waitsFor_self (hsound : s.Sound) {t : Tid}
    (hself : s.threads.WaitsFor LockFrame.wants t t) :
    s.WantsIo t ∧ s.threads.owner .io = some t := by
  obtain ⟨lock, hwanted, howner⟩ := hself
  obtain ⟨g, hmem, hholds⟩ := hsound.inv.exact.owner_iff.mp howner
  have hranked := hsound.ranked t
  cases hframes : s.threads.stack t with
  | nil =>
      rw [hframes] at hmem
      cases hmem
  | cons frame below =>
      rw [hframes] at hwanted hmem hranked
      rcases List.mem_cons.mp hmem with rfl | hbelow
      · rw [LockFrame.not_holds_of_wants hwanted] at hholds
        contradiction
      · have hguard := LockFrame.holds_eq_true.mp hholds
        cases lock with
        | pool => exact absurd hguard ((List.pairwise_cons.mp hranked).1 g hbelow).1
        | submap index =>
            exact absurd hguard (hranked.not_submap hwanted MutexId.noConfusion hbelow)
        | io => exact ⟨⟨frame, below, hframes, hwanted⟩, howner⟩

/-- Some step of the call that runs on the thread is enabled. -/
def LockState.CanGoOn (env : LockEnv) (s : LockState Tid) (t : Tid) : Prop :=
  ∃ move : LockMove, move.GoesOn ∧ (s.step env { thread := t, move := move }).isSome

/-- A step that waits for no lock is enabled. -/
theorem LockFrame.advance_apply (env : LockEnv) (monitor : IoMonitor) {frame : LockFrame}
    (below : List LockFrame) (hfree : ∀ lock, frame.wants = some lock →
      s.threads.owner lock = none) (hfile : frame ≠ .writeToFile .naming)
    (hquiet : frame.isThrowing = false) (t : Tid) :
    ∃ monitor' effect threads, frame.advance env monitor below = some (monitor', effect) ∧
      s.threads.apply t effect = some threads := by
  have htake : ∀ {lock frames}, frame.wants = some lock →
      ∃ threads, s.threads.apply t (.take lock frames) = some threads := by
    intro lock frames hwants
    exact ⟨_, if_pos (hfree lock hwants)⟩
  cases frame with
  | pool call pc =>
      cases pc
      · exact ⟨_, _, _, rfl, (htake rfl).choose_spec⟩
      · exact ⟨_, _, _, rfl, rfl⟩
      · exact ⟨_, _, _, rfl, rfl⟩
  | record call submap locked =>
      cases locked
      · exact ⟨_, _, _, rfl, (htake rfl).choose_spec⟩
      · exact ⟨_, _, _, rfl, rfl⟩
  | opened fd call pc =>
      cases pc
      · exact ⟨_, _, _, rfl, rfl⟩
      · exact ⟨_, _, _, rfl, (htake rfl).choose_spec⟩
      · exact ⟨_, _, _, rfl, rfl⟩
  | closed fd pc =>
      cases pc
      · exact ⟨_, _, _, rfl, rfl⟩
      · exact ⟨_, _, _, rfl, (htake rfl).choose_spec⟩
      · exact ⟨_, _, _, rfl, rfl⟩
  | disable pc =>
      cases pc
      · exact ⟨_, _, _, rfl, rfl⟩
      · exact ⟨_, _, _, rfl, (htake rfl).choose_spec⟩
      · exact ⟨_, _, _, rfl, rfl⟩
  | reportLeakedFds pc =>
      cases pc
      · exact ⟨_, _, _, rfl, rfl⟩
      · exact ⟨_, _, _, rfl, (htake rfl).choose_spec⟩
      · by_cases hwrite : monitor.leakedFds ≠ [] ∧ env.reporter = true
        · exact ⟨_, _, _, congrArg (fun e => some (monitor, e)) (if_pos hwrite), rfl⟩
        · exact ⟨_, _, _, congrArg (fun e => some (monitor, e)) (if_neg hwrite), rfl⟩
      · exact ⟨_, _, _, rfl, rfl⟩
  | writeToFile pc =>
      cases pc
      · exact absurd rfl hfile
      · exact ⟨_, _, _, rfl, rfl⟩
      · exact ⟨_, _, _, rfl, rfl⟩
      · exact ⟨_, _, _, rfl, rfl⟩
  | handleCrashSignal pc =>
      cases pc
      · exact ⟨_, _, _, rfl, rfl⟩
      · exact ⟨_, _, _, rfl, rfl⟩
      · exact ⟨_, _, _, rfl, rfl⟩
  | thrown => cases hquiet

theorem LockState.Sound.canGoOn (hsound : s.Sound) {t : Tid}
    (hopen : s.threads.stack t ≠ [])
    (hgoes : ∀ u, ¬ s.threads.WaitsFor LockFrame.wants t u) : s.CanGoOn env t := by
  obtain ⟨frame, below, hframes⟩ := List.exists_cons_of_ne_nil hopen
  by_cases hfile : frame = .writeToFile .naming
  · refine ⟨.openFile 0 none, trivial, ?_⟩
    rw [LockState.step, hframes, hfile]
    rfl
  · have hfree : ∀ lock, frame.wants = some lock → s.threads.owner lock = none := by
      intro lock hwants
      apply Threads.owner_eq_none hgoes
      rw [hframes]
      exact hwants
    have hquiet : frame.isThrowing = false := hsound.quiet t frame (by simp [hframes])
    obtain ⟨monitor', effect, threads, hadvance, happly⟩ :=
      LockFrame.advance_apply env s.monitor below hfree hfile hquiet t
    refine ⟨.advance, trivial, ?_⟩
    rw [LockState.step, hframes]
    simp [LockMove.effect, hadvance, happly]

/-- A thread with an open call waits for one that can go on, or for one that waits for
the monitor of its own. -/
theorem LockState.Sound.awaits (hsound : s.Sound) (env : LockEnv) {t : Tid}
    (hopen : s.threads.stack t ≠ []) :
    ∃ u, ReflTransGen (s.threads.WaitsFor LockFrame.wants) t u ∧ s.threads.stack u ≠ [] ∧
      (s.WantsIo u ∧ s.threads.owner .io = some u ∨ s.CanGoOn env u) := by
  have hordered := fun v => (hsound.ranked v).ordered
  obtain ⟨u, hchain, hends⟩ := hsound.inv.exact.awaits hordered t
  have hopenLast := hsound.inv.exact.awaits_not_idle hchain hopen
  exact ⟨u, hchain, hopenLast, hends.imp hsound.waitsFor_self (hsound.canGoOn hopenLast)⟩

/-- In every state that any number of threads reach with nothing thrown, and with crash
signals delivered anywhere outside the sections of the pool and of the map: a thread with
an open call waits, through the owners of the mutexes, for a thread that can go on or for
one that waits for the mutex of the monitor while it owns it. -/
theorem openCall_awaits (env : LockEnv) (monitor : IoMonitor)
    (labels : List (LockStep Tid)) (final : LockState Tid)
    (hthrow : ∀ label ∈ labels, label.NotThrow)
    (hsignal : Along (LockState.step env) LockState.SignalOutside
      (LockState.initial Tid monitor) labels)
    (hrun : run (LockState.step env) (LockState.initial Tid monitor) labels = some final)
    (t : Tid) (hopen : final.threads.stack t ≠ []) :
    ∃ u, ReflTransGen (final.threads.WaitsFor LockFrame.wants) t u ∧
      final.threads.stack u ≠ [] ∧
      (final.WantsIo u ∧ final.threads.owner .io = some u ∨ final.CanGoOn env u) :=
  ((LockState.Sound.initial monitor).run hthrow hsignal hrun).awaits env hopen

section CallsReturn

def workLeft (frames : List LockFrame) : Nat :=
  (frames.map LockFrame.stepsLeft).sum

@[simp] theorem workLeft_cons (frame : LockFrame) (below : List LockFrame) :
    workLeft (frame :: below) = frame.stepsLeft + workLeft below := by
  simp [workLeft]

/-- A request for memory: to the pool, or to `malloc`, whose hook records the block. -/
def LockMove.requests : LockMove → Bool
  | .allocate => true
  | .record _ _ => true
  | _ => false

/-- No call is begun: those that are open go on and ask for memory. -/
def LockStep.Goes (label : LockStep Tid) : Prop :=
  label.move.GoesOn ∨ label.move.requests = true

theorem workLeft_ite_lt {p : Prop} [Decidable p] {yes no : List LockFrame} {bound : Nat}
    (hyes : workLeft yes < bound) (hno : workLeft no < bound) :
    workLeft (if p then yes else no) < bound := by
  split
  · exact hyes
  · exact hno

/-- Every step of a call leaves it fewer steps. -/
theorem LockFrame.advance_workLeft {monitor monitor' : IoMonitor} {frame : LockFrame}
    {below : List LockFrame} {effect : LockEffect}
    (hadvance : frame.advance env monitor below = some (monitor', effect)) :
    workLeft effect.frames < workLeft (frame :: below) := by
  have hpos := frame.stepsLeft_pos
  cases advance_proceeds hadvance with
  | taken _ _ _ _ _ _ hless | moved _ _ _ _ hless =>
      simpa [Effect.frames] using hless
  | dropped | returned => simpa [Effect.frames] using hpos
  | called callee frame' _ _ _ _ _ _ hless =>
      simp only [Effect.frames, workLeft_cons]
      omega
  | threwLocked _ _ _ _ hless | threw _ _ _ hless =>
      simpa [Effect.frames, LockFrame.stepsLeft] using hless
  | unwound caller rest _ hframe hbelow hunwind =>
      subst hframe hbelow
      have hcaller := caller.stepsLeft_pos
      obtain ⟨-, ⟨lock, -, rfl⟩ | ⟨-, rfl⟩ | ⟨fd, rfl, -, rfl⟩⟩ := unwind_cases hunwind
      · simpa [Effect.frames, LockFrame.stepsLeft] using hcaller
      · simpa [Effect.frames, LockFrame.stepsLeft] using hcaller
      · simp [Effect.frames, LockFrame.stepsLeft]
        omega

/-- A step of a thread takes one from the work that its calls have left, a request for
memory adds two, and the steps of the others leave it. -/
theorem LockState.step_workLeft (hgoes : label.Goes) (hstep : s.step env label = some next)
    (t : Tid) :
    workLeft (next.threads.stack t) + (if label.thread = t then 1 else 0) ≤
      workLeft (s.threads.stack t) +
        3 * (if label.thread = t ∧ label.move.requests = true then 1 else 0) := by
  obtain ⟨effect, heffect, happly⟩ := step_eq_some hstep
  rw [Threads.apply_stack happly]
  by_cases hsame : label.thread = t
  · subst hsame
    rw [Function.update_self]
    rcases LockMove.effect_cases heffect with ⟨entry, hmove, -, -⟩ |
      ⟨frame, below, hmove, hframes, hadvance⟩ |
      ⟨frame, below, callee, hframes, hcallee, rfl⟩ |
      ⟨fd, path, below, hmove, hframes, rfl⟩ | ⟨frame, below, hmove, -, -⟩ | ⟨hmove, -⟩
    · simp [LockStep.Goes, hmove, LockMove.GoesOn, LockMove.requests] at hgoes
    · rw [hframes]
      have hlower := LockFrame.advance_workLeft hadvance
      simp only [hmove, LockMove.requests, if_true, Bool.false_eq_true, and_false, if_false]
      omega
    · have hadds : label.move.requests = true ∧ callee.stepsLeft = 2 := by
        rcases hcallee with ⟨hmove, -, rfl⟩ | ⟨hook, submap, hmove, -, rfl⟩
        · exact ⟨congrArg LockMove.requests hmove, rfl⟩
        · exact ⟨congrArg LockMove.requests hmove, rfl⟩
      simp only [hframes, Effect.frames, workLeft_cons, hadds, and_self, if_true]
      omega
    · have hlower : workLeft (if env.hooked then
          .opened fd (.open path) .testing :: .writeToFile (.dumping fd) :: below
          else .writeToFile (.dumping fd) :: below) <
          workLeft (.writeToFile .naming :: below) := by
        apply workLeft_ite_lt <;> simp [LockFrame.stepsLeft]
        omega
      rw [hframes]
      simp only [Effect.frames, hmove, if_true]
      omega
    · simp [LockStep.Goes, hmove, LockMove.GoesOn, LockMove.requests] at hgoes
    · simp [LockStep.Goes, hmove, LockMove.GoesOn, LockMove.requests] at hgoes
  · rw [Function.update_of_ne (Ne.symm hsame)]
    simp [hsame]

/-- The work that the calls of a thread have left bounds the steps it takes in a run that
begins no call. -/
theorem LockState.run_workLeft {labels : List (LockStep Tid)} {final : LockState Tid}
    (hgoes : ∀ label ∈ labels, label.Goes)
    (hrun : run (LockState.step env) s labels = some final) (t : Tid) :
    labels.countP (fun label => label.thread = t) ≤ workLeft (s.threads.stack t) +
      3 * labels.countP fun label => label.thread = t ∧ label.move.requests := by
  let potential (s : LockState Tid) : Nat := workLeft (s.threads.stack t)
  let mine (label : LockStep Tid) : Bool := label.thread = t
  let asks (label : LockStep Tid) : Bool := label.thread = t ∧ label.move.requests
  have hspends : ∀ (state : LockState Tid) (label : LockStep Tid) (next : LockState Tid),
      True → label.Goes → state.step env label = some next →
        potential next + (if mine label then 1 else 0) ≤
          potential state + 3 * (if asks label then 1 else 0) := by
    intro state label next _ hgoes hstep
    simpa [potential, mine, asks] using step_workLeft hgoes hstep t
  have hcount := run_countP_le (fun _ => True) (fun _ _ _ _ _ _ => trivial) hspends trivial
    ((along_iff_forall hrun).mpr hgoes) hrun
  exact (Nat.le_add_left _ _).trans hcount

omit [DecidableEq Tid] in
theorem LockStep.Goes.notSignal {label : LockStep Tid} (hgoes : label.Goes) :
    label.NotSignal := by
  intro hsignal
  simp [LockStep.Goes, hsignal, LockMove.GoesOn, LockMove.requests] at hgoes

omit [DecidableEq Tid] in
theorem LockStep.Goes.notThrow {label : LockStep Tid} (hgoes : label.Goes) :
    label.NotThrow := by
  intro hthrow
  simp [LockStep.Goes, hthrow, LockMove.GoesOn, LockMove.requests] at hgoes

instance (s : LockState Tid) (label : LockStep Tid) :
    Decidable (s.ReportsUnwatched label) :=
  decidable_of_iff (label.move = .advance →
      ∀ fd ∈ (s.threads.stack label.thread).head?.bind LockFrame.testedFd,
        .reportLeakedFds .reporting ∈ (s.threads.stack label.thread).tail →
          s.monitor.enabled = false ∨ fd < 0) (by
    constructor
    · intro hall frame below fd hmove hstack htested hreport
      rw [hstack] at hall
      exact hall hmove fd htested hreport
    · intro hall hmove fd htested hreport
      cases hstack : s.threads.stack label.thread with
      | nil =>
          rw [hstack] at htested
          contradiction
      | cons frame below =>
          rw [hstack] at htested hreport
          exact hall frame below fd hmove hstack htested hreport)

/-- The calls that are open when no more are begun, with no signal before or after,
nothing thrown and no report watching its own file: on every thread they take a bounded
number of steps, and where none of them can go on they have all returned. -/
theorem calls_return (env : LockEnv) (monitor : IoMonitor)
    (before labels : List (LockStep Tid)) (s final : LockState Tid)
    (hbefore : run (LockState.step env) (LockState.initial Tid monitor) before = some s)
    (hrun : run (LockState.step env) s labels = some final)
    (hsignal : ∀ label ∈ before, label.NotSignal) (hthrow : ∀ label ∈ before, label.NotThrow)
    (hgoes : ∀ label ∈ labels, label.Goes)
    (hunwatched : Along (LockState.step env) LockState.ReportsUnwatched
      (LockState.initial Tid monitor) (before ++ labels)) :
    (∀ t, labels.countP (fun label => label.thread = t) ≤ workLeft (s.threads.stack t) +
        3 * labels.countP fun label => label.thread = t ∧ label.move.requests) ∧
      ((∀ t, ¬ final.CanGoOn env t) → ∀ t, final.threads.stack t = []) := by
  refine ⟨LockState.run_workLeft hgoes hrun, fun hstuck t => ?_⟩
  by_contra hopen
  have hall : run (LockState.step env) (LockState.initial Tid monitor) (before ++ labels) =
      some final := run_append_eq_some.mpr ⟨s, hbefore, hrun⟩
  have hsignals : ∀ label ∈ before ++ labels, label.NotSignal :=
    List.forall_mem_append.mpr ⟨hsignal, fun label hmem => (hgoes label hmem).notSignal⟩
  have hthrows : ∀ label ∈ before ++ labels, label.NotThrow :=
    List.forall_mem_append.mpr ⟨hthrow, fun label hmem => (hgoes label hmem).notThrow⟩
  have houtside : Along (LockState.step env) LockState.SignalOutside
      (LockState.initial Tid monitor) (before ++ labels) := by
    apply Along.imp (fun _ _ _ _ _ _ => trivial) _ trivial
      ((along_iff_forall hall).mpr hsignals)
    intro s label _ hsignal hmove
    exact absurd hmove hsignal
  have hsound := (LockState.Sound.initial monitor).run hthrows houtside hall
  obtain ⟨u, -, -, ⟨hwants, howner⟩ | hgo⟩ := hsound.awaits env hopen
  · have hfree := (io_noSelfDeadlock_iff env monitor _ final hsignals hall).mpr hunwatched
    exact hfree _ (List.prefix_refl _) final hall u hwants howner
  · exact hstuck u hgo

namespace CallsReturnWitness

/-- The platform writes the file of the report without the hooks. -/
def unhooked : LockEnv := { hooked := false, reporter := true }

def watching : IoMonitor := { IoMonitor.initial with enabled := true }

def start : LockState Bool := LockState.initial Bool watching

def first (move : LockMove) : LockStep Bool := { thread := false, move := move }

def second (move : LockMove) : LockStep Bool := { thread := true, move := move }

/-- The second thread has the pool; the first one has the monitor and waits for it. -/
def poolTaken : List (LockStep Bool) :=
  [second (.call (.pool .allocate)), second .advance, first (.call (.opened 4 (.open none))),
    first .advance, first .advance, first .allocate]

theorem poolTaken_awaits :
    ∃ final, run (LockState.step unhooked) start poolTaken = some final ∧
      ∃ u, ReflTransGen (final.threads.WaitsFor LockFrame.wants) false u ∧
        final.threads.stack u ≠ [] ∧
        (final.WantsIo u ∧ final.threads.owner .io = some u ∨ final.CanGoOn unhooked u) := by
  refine ⟨_, rfl, ?_⟩
  apply openCall_awaits unhooked watching poolTaken _ _ _ rfl false (List.cons_ne_nil _ _)
  · simp [poolTaken, first, second, LockStep.NotThrow]
  · simp [poolTaken, first, second, Along, LockState.SignalOutside]

/-- The second thread gives the pool back, and both calls are over. -/
def givenBack : List (LockStep Bool) :=
  [second .advance, first .advance, first .advance, first .advance]

theorem givenBack_return :
    ∃ s final, run (LockState.step unhooked) start poolTaken = some s ∧
      run (LockState.step unhooked) s givenBack = some final ∧
      (∀ t, givenBack.countP (fun label => label.thread = t) ≤
        workLeft (s.threads.stack t) +
          3 * givenBack.countP fun label => label.thread = t ∧ label.move.requests) ∧
      ((∀ t, ¬ final.CanGoOn unhooked t) → ∀ t, final.threads.stack t = []) := by
  refine ⟨_, _, rfl, rfl, ?_⟩
  apply calls_return unhooked watching poolTaken givenBack _ _ rfl rfl
  · simp [poolTaken, first, second, LockStep.NotSignal]
  · simp [poolTaken, first, second, LockStep.NotThrow]
  · simp [givenBack, first, second, LockStep.Goes, LockMove.GoesOn]
  · decide

end CallsReturnWitness

end CallsReturn

end Domovoy
