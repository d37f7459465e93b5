/-
What `Init` does to the memory of the structures that live in the isolated pool.
-/
import Domovoy.PoolExtends
import Domovoy.Startup

namespace Domovoy

open WordAlign Transition

/-- The block is mapped, or it went with a teardown of the pool. -/
def Startup.Sits (unmapped : List PoolPiece) (s : Startup) (piece : PoolPiece) : Prop :=
  piece.teardowns = s.teardowns ∧ s.pool.heap piece.block ≠ none ∨
    piece.teardowns < s.teardowns ∧ piece ∈ unmapped

/-- The structure has memory from before the last teardown of the pool. -/
def Startup.Old (s : Startup) (user : PoolUser) : Prop :=
  ∃ piece ∈ s.memory user, piece.teardowns < s.teardowns

/-- What the calls in `Init` leave alone. -/
structure Startup.Kept (unmapped : List PoolPiece) (s before : Startup) : Prop where
  accounted : ∃ keys, s.pool.Accounted keys
  teardowns : s.teardowns = before.teardowns
  sits : ∀ user, ∀ piece ∈ s.memory user, s.Sits unmapped piece
  hooks : s.hooksInitialized = true → s.hooksInitializing = true
  unbuilt : s.hooksInitializing = false → s.memory .gAllocations = []
  map : s.Old .gAllocations ↔ before.Old .gAllocations
  fds : s.memory .openFds = before.memory .openFds
  threads : s.memory .threadStates = before.memory .threadStates
  thread : s.monitorThread = true → s.process.cpu.running = true

/-- New memory: in a block that is mapped now. -/
def Startup.Fresh (s : Startup) (pool : Pool) (piece : PoolPiece) : Prop :=
  piece.teardowns = s.teardowns ∧ pool.heap piece.block ≠ none

variable {unmapped : List PoolPiece} {before s : Startup}

theorem Startup.Sits.setPool {piece : PoolPiece} (hsits : s.Sits unmapped piece)
    {pool : Pool} (hextends : s.pool.Extends pool) :
    Startup.Sits unmapped { s with pool := pool } piece := by
  rcases hsits with ⟨hcurrent, hmapped⟩ | hgone
  · exact Or.inl ⟨hcurrent, hextends.kept _ hmapped⟩
  · exact Or.inr hgone

theorem Startup.Kept.setPool (hkept : s.Kept unmapped before) {pool : Pool}
    (hextends : s.pool.Extends pool) :
    Startup.Kept unmapped { s with pool := pool } before :=
  ⟨hextends.accounted hkept.accounted, hkept.teardowns,
    fun user piece hpiece => (hkept.sits user piece hpiece).setPool hextends,
    hkept.hooks, hkept.unbuilt, hkept.map, hkept.fds, hkept.threads, hkept.thread⟩

variable {env : StartupEnv} {sizes : TypeSizes} {config : DomovoyConfig}

/-- A call on the pool hands out memory in a block that is mapped, or throws. -/
theorem Startup.allocate_spec (hos : env.os.FreshRegions) (call : InitCall)
    (size alignment : Word) (s : Startup) :
    ∃ pool, s.pool.Extends pool ∧
      ((∃ ptr piece, s.allocate env call size alignment =
          (.ok (ptr, piece), { s with pool := pool }) ∧ s.Fresh pool piece) ∨
        s.allocate env call size alignment =
          (.error (.threw call), { s with pool := pool })) := by
  have hextends := allocate_extends hos size alignment s.pool
  have hserved := (allocate_kept env.os size alignment s.pool).2
  rw [Startup.allocate]
  rcases hresult : Domovoy.allocate env.os size alignment s.pool with ⟨_ | ptr, pool⟩
  · rw [hresult] at hextends
    exact ⟨pool, hextends, Or.inr rfl⟩
  · rw [hresult] at hextends hserved
    exact ⟨pool, hextends, Or.inl ⟨ptr, _, rfl, rfl, hserved ptr rfl⟩⟩

theorem Startup.isolatedString_spec (hos : env.os.FreshRegions) (call : InitCall)
    (config : DomovoyConfig) (s : Startup) :
    ∃ pool, s.pool.Extends pool ∧
      ((∃ pieces, s.isolatedString env call config = (.ok pieces, { s with pool := pool }) ∧
          ∀ piece ∈ pieces, s.Fresh pool piece) ∨
        s.isolatedString env call config =
          (.error (.threw call), { s with pool := pool })) := by
  rw [Startup.isolatedString]
  split
  · exact ⟨s.pool, .refl _, Or.inl ⟨[], rfl, by simp⟩⟩
  · obtain ⟨pool, hextends, ⟨ptr, piece, hresult, hfresh⟩ | hresult⟩ :=
      s.allocate_spec hos call (BitVec.ofNat 64 (config.outputDir.utf8ByteSize + 1)) 1
    · exact ⟨pool, hextends, Or.inl ⟨[piece], by rw [hresult], by simpa using hfresh⟩⟩
    · exact ⟨pool, hextends, Or.inr (by rw [hresult])⟩

/-- The reporter is constructed in memory that is new, or not at all. -/
theorem Startup.constructReporter_spec (hos : env.os.FreshRegions)
    (config : DomovoyConfig) (s : Startup) :
    ∃ pool, s.pool.Extends pool ∧
      ((∃ call, s.constructReporter env config =
          (.error (.threw call), { s with pool := pool })) ∨
        ∃ pieces, (∀ piece ∈ pieces, s.Fresh pool piece) ∧
          s.constructReporter env config = (.ok (), { s with
            pool := pool
            process.core.reporter := some { outputDir := config.outputDir }
            memory := Function.update s.memory .reporter pieces })) := by
  rw [Startup.constructReporter]
  obtain ⟨pool, hextends, ⟨ptr, piece, hresult, hfresh⟩ | hresult⟩ :=
    s.allocate_spec hos .reporterMemory sizeofReporter maxAlign
  · obtain ⟨pool', hextends', ⟨pieces, hcopy, hpieces⟩ | hcopy⟩ :=
      Startup.isolatedString_spec hos .reporterDir config { s with pool := pool }
    · refine ⟨pool', hextends.trans hextends', Or.inr ⟨piece :: pieces, ?_, ?_⟩⟩
      · refine List.forall_mem_cons.mpr ⟨⟨hfresh.1, hextends'.kept _ hfresh.2⟩, hpieces⟩
      · rw [hresult]
        simp only [hcopy]
    · refine ⟨pool', hextends.trans hextends', Or.inl ⟨.reporterDir, ?_⟩⟩
      rw [hresult]
      simp only [hcopy]
  · exact ⟨pool, hextends, Or.inl ⟨.reporterMemory, by rw [hresult]⟩⟩

theorem Startup.Kept.hooksInit (hos : env.os.FreshRegions)
    (hkept : s.Kept unmapped before) :
    (s.hooksInit sizes env).2.Kept unmapped before := by
  rw [Startup.hooksInit]
  split
  · exact hkept
  · split
    · exact hkept
    next hidle =>
      have hunbuilt := hkept.unbuilt (Bool.eq_false_of_not_eq_true hidle)
      have hnotOld : ¬ before.Old .gAllocations := by
        rw [← hkept.map, Startup.Old, hunbuilt]
        simp
      obtain ⟨pool, hextends, ⟨ptr, piece, hresult, hfresh⟩ | hresult⟩ :=
        Startup.allocate_spec hos .allocationMap sizes.sizeofAllocMap sizes.alignofAllocMap
          { s with hooksInitializing := true }
      · simp only [hresult]
        refine ⟨hextends.accounted hkept.accounted, hkept.teardowns, ?_, fun _ => rfl,
          fun hidle => ?_, ?_, ?_, ?_, hkept.thread⟩
        · intro user other hother
          by_cases huser : user = .gAllocations
          · subst huser
            simp only [Function.update_self, List.mem_singleton] at hother
            rw [hother]
            exact Or.inl hfresh
          · simp only [Function.update_of_ne huser] at hother
            exact (hkept.sits user other hother).setPool hextends
        · cases hidle
        · refine iff_of_false ?_ hnotOld
          rintro ⟨other, hother, hold⟩
          simp only [Function.update_self, List.mem_singleton] at hother
          rw [hother, hfresh.1] at hold
          exact absurd hold (Nat.lt_irrefl _)
        · exact hkept.fds
        · exact hkept.threads
      · simp only [hresult]
        have hset := hkept.setPool hextends
        refine ⟨hset.accounted, hset.teardowns, hset.sits, fun _ => rfl, fun hidle => ?_,
          hset.map, hset.fds, hset.threads, hset.thread⟩
        cases hidle

theorem Startup.Kept.constructReporter (hos : env.os.FreshRegions)
    (hkept : s.Kept unmapped before) :
    (s.constructReporter env config).2.Kept unmapped before := by
  obtain ⟨pool, hextends, ⟨call, hresult⟩ | ⟨pieces, hfresh, hresult⟩⟩ :=
    s.constructReporter_spec hos config
  · rw [hresult]
    exact hkept.setPool hextends
  · rw [hresult]
    have hset := hkept.setPool hextends
    refine ⟨hset.accounted, hset.teardowns, ?_, hset.hooks, hset.unbuilt, hset.map,
      hset.fds, hset.threads, hset.thread⟩
    intro user other hother
    by_cases huser : user = .reporter
    · subst huser
      simp only [Function.update_self] at hother
      exact Or.inl (hfresh other hother)
    · simp only [Function.update_of_ne huser] at hother
      exact hset.sits user other hother

theorem Startup.Kept.initializePool (hos : env.os.FreshRegions)
    (hkept : s.Kept unmapped before) :
    (s.initializePool env config).2.Kept unmapped before := by
  have hextends := initializePool_extends hos config.allocatorCapacityBytes s.pool
  rw [Startup.initializePool]
  rcases hresult : Domovoy.initializePool env.os config.allocatorCapacityBytes s.pool with
    ⟨_ | _, pool⟩
  all_goals
    rw [hresult] at hextends
    exact hkept.setPool hextends

theorem Startup.Kept.outDir (hos : env.os.FreshRegions)
    (hkept : s.Kept unmapped before) : (s.outDir env config).2.Kept unmapped before := by
  rw [Startup.outDir]
  obtain ⟨pool, hextends, ⟨pieces, hresult, -⟩ | hresult⟩ :=
    s.isolatedString_spec hos .outDir config
  all_goals
    rw [hresult]
    exact hkept.setPool hextends

/-- `Install` and `Start` leave the pool's structures alone. -/
theorem Startup.install_frame (hos : env.os.FreshRegions) (sizes : TypeSizes)
    (s : Startup) :
    ∃ pool crash signals, s.pool.Extends pool ∧
      (s.install sizes env).2 = { s with
        pool := pool
        process.crash := crash
        process.signals := signals } := by
  rw [Startup.install]
  split
  · exact ⟨s.pool, s.process.crash, s.process.signals, .refl _, rfl⟩
  · obtain ⟨pool, hextends, ⟨ptr, piece, hresult, -⟩ | hresult⟩ :=
      Startup.allocate_spec hos .signalStack sizes.sigstksz maxAlign
        { s with process.crash.installed := true }
    · exact ⟨pool, _, _, hextends, by simp only [hresult]; rfl⟩
    · exact ⟨pool, _, _, hextends, by simp only [hresult]; rfl⟩

theorem Startup.start_frame (env : StartupEnv) (s : Startup) :
    ∃ running thread, (s.start env).2 = { s with
        process.cpu.running := running
        monitorThread := thread } ∧
      ((s.monitorThread = true → s.process.cpu.running = true) →
        thread = true → running = true) := by
  by_cases hrunning : s.process.cpu.running = true
  · refine ⟨s.process.cpu.running, s.monitorThread, ?_, id⟩
    rw [Startup.start, if_pos hrunning]
  · rw [Startup.start, if_neg hrunning]
    cases hspawns : env.spawns with
    | true => exact ⟨true, true, rfl, fun _ _ => rfl⟩
    | false => exact ⟨true, s.monitorThread, rfl, fun _ _ => rfl⟩

theorem Startup.Kept.install (hos : env.os.FreshRegions)
    (hkept : s.Kept unmapped before) :
    (s.install sizes env).2.Kept unmapped before := by
  obtain ⟨pool, crash, signals, hextends, hresult⟩ := s.install_frame hos sizes
  have hset := hkept.setPool hextends
  rw [hresult]
  exact ⟨hset.accounted, hset.teardowns, hset.sits, hset.hooks, hset.unbuilt, hset.map,
    hset.fds, hset.threads, hset.thread⟩

theorem Startup.Kept.start (hkept : s.Kept unmapped before) :
    (s.start env).2.Kept unmapped before := by
  obtain ⟨running, thread, hresult, hthread⟩ := s.start_frame env
  rw [hresult]
  exact ⟨hkept.accounted, hkept.teardowns, hkept.sits, hkept.hooks, hkept.unbuilt,
    hkept.map, hkept.fds, hkept.threads, hthread hkept.thread⟩

theorem Startup.Kept.initStages (hos : env.os.FreshRegions) :
    ∀ stage ∈ initStages sizes env config, ∀ s : Startup, s.Kept unmapped before →
      (stage s).2.Kept unmapped before := by
  simp only [Domovoy.initStages, List.forall_mem_cons, List.not_mem_nil, false_implies,
    implies_true, and_true]
  refine ⟨fun s hs => hs.hooksInit hos, fun s hs => hs.initializePool hos,
    fun s hs => hs.outDir hos, fun s hs => hs.constructReporter hos,
    fun s hs => onlyIf_keeps (P := (·.Kept unmapped before)) hs (hs.install hos),
    fun s hs => onlyIf_keeps (P := (·.Kept unmapped before)) hs ?_,
    fun s hs => onlyIf_keeps (P := (·.Kept unmapped before)) hs hs.start⟩
  exact ⟨hs.accounted, hs.teardowns, hs.sits, hs.hooks, hs.unbuilt, hs.map, hs.fds,
    hs.threads, hs.thread⟩

theorem Startup.Kept.init (hos : env.os.FreshRegions) (hkept : s.Kept unmapped before) :
    (s.init sizes env config).2.Kept unmapped before := by
  rw [Startup.init]
  split
  · exact hkept
  · have hconfigured : Startup.Kept unmapped
        { s with process.core.config := config } before :=
      ⟨hkept.accounted, hkept.teardowns, hkept.sits, hkept.hooks, hkept.unbuilt, hkept.map,
        hkept.fds, hkept.threads, hkept.thread⟩
    have hstages : (runStages (Domovoy.initStages sizes env config)
        { s with process.core.config := config }).2.Kept unmapped before :=
      runStages_keeps (P := (·.Kept unmapped before)) (Startup.Kept.initStages hos)
        hconfigured
    revert hstages
    rcases runStages (Domovoy.initStages sizes env config)
      { s with process.core.config := config } with ⟨_ | _, after⟩
    · exact id
    · intro hafter
      exact ⟨hafter.accounted, hafter.teardowns, hafter.sits, hafter.hooks, hafter.unbuilt,
        hafter.map, hafter.fds, hafter.threads, hafter.thread⟩

/-- The parts of `Init` behind the reporter take no memory for the structures. -/
theorem Startup.keeps_memory (hos : env.os.FreshRegions) (sizes : TypeSizes)
    (config : DomovoyConfig) (start : Startup) :
    ∀ stage ∈ [onlyIf config.enableCrashHandler (Startup.install sizes env),
      onlyIf config.enableIoMonitoring
        (fun s => (.ok (), { s with process.io := s.process.io.enable })),
      onlyIf config.enableCpuProfiler (Startup.start env)], ∀ s : Startup,
        s.memory = start.memory ∧ s.teardowns = start.teardowns →
          (stage s).2.memory = start.memory ∧ (stage s).2.teardowns = start.teardowns := by
  simp only [List.forall_mem_cons, List.not_mem_nil, false_implies, implies_true, and_true]
  refine ⟨fun s hs => ?_, fun s hs => ?_, fun s hs => ?_⟩
  · apply onlyIf_keeps
      (P := fun s => s.memory = start.memory ∧ s.teardowns = start.teardowns) hs
    obtain ⟨pool, crash, signals, -, hresult⟩ := s.install_frame hos sizes
    rw [hresult]
    exact hs
  · exact onlyIf_keeps
      (P := fun s => s.memory = start.memory ∧ s.teardowns = start.teardowns) hs hs
  · apply onlyIf_keeps
      (P := fun s => s.memory = start.memory ∧ s.teardowns = start.teardowns) hs
    obtain ⟨running, thread, hresult, -⟩ := s.start_frame env
    rw [hresult]
    exact hs

/-- An `Init` that returns has constructed its reporter in the pool as it is. -/
theorem Startup.init_ok_reporter (hos : env.os.FreshRegions) {after : Startup}
    (hdown : s.process.core.initialized = false)
    (hok : s.init sizes env config = (.ok (), after)) : ¬ after.Old .reporter := by
  rw [Startup.init, if_neg (by simp [hdown])] at hok
  rcases hstages : runStages (Domovoy.initStages sizes env config)
    { s with process.core.config := config } with ⟨_ | ⟨⟨⟩⟩, last⟩
  · rw [hstages] at hok
    cases hok
  · rw [hstages] at hok
    obtain rfl := (Prod.mk.inj hok).2
    rw [Domovoy.initStages] at hstages
    obtain ⟨s₁, -, hstages⟩ := runStages_cons_ok.mp hstages
    obtain ⟨s₂, -, hstages⟩ := runStages_cons_ok.mp hstages
    obtain ⟨s₃, -, hstages⟩ := runStages_cons_ok.mp hstages
    obtain ⟨s₄, hreporter, hstages⟩ := runStages_cons_ok.mp hstages
    have hcurrent : ∀ piece ∈ s₄.memory .reporter, piece.teardowns = s₄.teardowns := by
      obtain ⟨pool, -, ⟨call, hresult⟩ | ⟨pieces, hfresh, hresult⟩⟩ :=
        s₃.constructReporter_spec hos config
      · rw [hresult] at hreporter
        cases hreporter
      · rw [hresult] at hreporter
        obtain rfl := (Prod.mk.inj hreporter).2
        intro piece hpiece
        exact (hfresh piece hpiece).1
    have hkept := runStages_keeps
      (P := fun s => s.memory = s₄.memory ∧ s.teardowns = s₄.teardowns)
      (keeps_memory hos sizes config s₄) ⟨rfl, rfl⟩
    rw [hstages] at hkept
    obtain ⟨hmemory, hteardowns⟩ := hkept
    rintro ⟨piece, hpiece, hold⟩
    change piece ∈ last.memory .reporter at hpiece
    change piece.teardowns < last.teardowns at hold
    rw [hmemory] at hpiece
    rw [hteardowns, hcurrent piece hpiece] at hold
    exact Nat.lt_irrefl _ hold

/-- Outside a session, with no monitor thread. -/
def Startup.Idle (s : Startup) : Prop :=
  s.process.core.initialized = false ∧ s.monitorThread = false

theorem Startup.Idle.hooksInit (hidle : s.Idle) : (s.hooksInit sizes env).2.Idle := by
  rw [Startup.hooksInit]
  split
  · exact hidle
  · split
    · exact hidle
    · obtain ⟨pool, ⟨value, hresult⟩ | hresult⟩ := Startup.allocate_poolOnly env
        .allocationMap sizes.sizeofAllocMap sizes.alignofAllocMap
        { s with hooksInitializing := true }
      all_goals
        simp only [hresult]
        exact hidle

/-- The parts of `Init` before `Start`. -/
theorem Startup.Idle.beforeStart (hos : env.os.FreshRegions) (sizes : TypeSizes)
    (config : DomovoyConfig) :
    ∀ stage ∈ [Startup.hooksInit sizes env, Startup.initializePool env config,
      Startup.outDir env config, Startup.constructReporter env config,
      onlyIf config.enableCrashHandler (Startup.install sizes env),
      onlyIf config.enableIoMonitoring
        (fun s => (.ok (), { s with process.io := s.process.io.enable }))],
      ∀ s : Startup, s.Idle → (stage s).2.Idle := by
  simp only [List.forall_mem_cons, List.not_mem_nil, false_implies, implies_true, and_true]
  refine ⟨fun s hs => hs.hooksInit, fun s hs => ?_, fun s hs => ?_, fun s hs => ?_,
    fun s hs => onlyIf_keeps (P := Startup.Idle) hs ?_,
    fun s hs => onlyIf_keeps (P := Startup.Idle) hs hs⟩
  · obtain ⟨pool, ⟨value, hresult⟩ | hresult⟩ := s.initializePool_poolOnly env config
    all_goals
      rw [hresult]
      exact hs
  · obtain ⟨pool, ⟨value, hresult⟩ | hresult⟩ := s.outDir_poolOnly env config
    all_goals
      rw [hresult]
      exact hs
  · rcases s.constructReporter_cases env config with
      ⟨call, pool, -, hresult⟩ | ⟨pool, pieces, hresult⟩
    all_goals
      rw [hresult]
      exact hs
  · obtain ⟨pool, crash, signals, -, hresult⟩ := s.install_frame hos sizes
    rw [hresult]
    exact hs

/-- `Start` that throws has started no thread. -/
theorem Startup.Idle.start_error (hidle : s.Idle) {stop : InitStop} {after : Startup}
    (herror : onlyIf config.enableCpuProfiler (Startup.start env) s = (.error stop, after)) :
    after.Idle := by
  rw [onlyIf, Startup.start] at herror
  split at herror
  · split at herror
    · cases herror
    · cases hspawns : env.spawns with
      | true =>
          simp only [hspawns, if_true] at herror
          cases herror
      | false =>
          simp only [hspawns, Bool.false_eq_true, if_false] at herror
          obtain ⟨-, rfl⟩ := Prod.mk.inj herror
          exact hidle
  · cases herror

/-- An `Init` that throws leaves no session and no monitor thread. -/
theorem Startup.init_error_idle (hos : env.os.FreshRegions) (hidle : s.Idle)
    {stop : InitStop} {after : Startup}
    (herror : s.init sizes env config = (.error stop, after)) : after.Idle := by
  rw [Startup.init, if_neg (by simp [hidle.1])] at herror
  rcases hstages : runStages (Domovoy.initStages sizes env config)
    { s with process.core.config := config } with ⟨stop' | _, last⟩
  · rw [hstages] at herror
    obtain ⟨-, rfl⟩ := Prod.mk.inj herror
    exact runStages_append_error (P := Startup.Idle)
      (Startup.Idle.beforeStart hos sizes config)
      (fun s hs stop after hresult => Startup.Idle.start_error hs hresult)
      (s := { s with process.core.config := config }) hidle hstages
  · rw [hstages] at herror
    cases herror

end Domovoy
