/-
`Init` call by call, with the calls that can throw, and how its parts follow on one
another.
-/
import Domovoy.OptIn
import Domovoy.StlAllocator

namespace Domovoy

open WordAlign Transition

/-- The calls in `Init` that can throw. -/
inductive InitCall where
  /-- `Allocate` for the map, in `InitHooks`. -/
  | allocationMap
  | initializePool
  /-- The string `out_dir`. -/
  | outDir
  /-- `Allocate` for the reporter. -/
  | reporterMemory
  /-- The copy of `out_dir` that the reporter is constructed with. -/
  | reporterDir
  /-- `Allocate(SIGSTKSZ)` in `Install`. -/
  | signalStack
  /-- The thread that `Start` creates. -/
  | monitorThread
deriving DecidableEq, Repr

/-- Why `Init` does not go on; `waits` is the loop on `hooks_initialized`. -/
inductive InitStop where
  | threw (call : InitCall)
  | waits
deriving DecidableEq, Repr

/-- What the operating system grants during one `Init`. -/
structure StartupEnv where
  os : Mmap
  spawns : Bool

/-- The sizes that the platform and the map's library decide. -/
structure TypeSizes where
  sizeofAllocMap : Word
  alignofAllocMap : Word
  sigstksz : Word
deriving DecidableEq, Repr

/-- `sizeof(JsonFileReporter)`. -/
def sizeofReporter : Word := 40

/-- `alignof(std::max_align_t)`. -/
def maxAlign : Word := 16

/-- The structures that live in the isolated pool. -/
inductive PoolUser where
  | gAllocations
  | openFds
  | threadStates
  | reporter
deriving DecidableEq, Repr

/-- A block of the pool, named by its address and by how often the pool had been shut
down before it was mapped. -/
structure PoolPiece where
  teardowns : Nat
  block : Word
deriving DecidableEq, Repr

/-- The state that `Init` works on. `monitorThread` holds while `monitor_thread_` is a
running thread; `teardowns` and `memory`, the blocks that the memory of a structure came
from, are for the statements only. -/
structure Startup where
  process : Process
  pool : Pool
  hooksInitialized : Bool
  hooksInitializing : Bool
  gAllocations : Option Word
  monitorThread : Bool
  teardowns : Nat
  memory : PoolUser → List PoolPiece

/-- A call of `Init` on the isolated pool: the chunk and the block it lies in. -/
def Startup.allocate (env : StartupEnv) (call : InitCall) (size alignment : Word)
    (s : Startup) : Except InitStop (Word × PoolPiece) × Startup :=
  match Domovoy.allocate env.os size alignment s.pool with
  | (.ok ptr, pool) =>
      (.ok (ptr, ⟨s.teardowns, s.pool.blockFor env.os size alignment⟩),
        { s with pool := pool })
  | (.error _, pool) => (.error (.threw call), { s with pool := pool })

/-- `domovoy_linux_alloc_hooks_init`. -/
def Startup.hooksInit (sizes : TypeSizes) (env : StartupEnv) (s : Startup) :
    Except InitStop Unit × Startup :=
  if s.hooksInitialized then (.ok (), s)
  else if s.hooksInitializing then (.error .waits, s)
  else
    let s := { s with hooksInitializing := true }
    match s.allocate env .allocationMap sizes.sizeofAllocMap sizes.alignofAllocMap with
    | (.ok (mapMemory, piece), s) =>
        (.ok (), { s with
          gAllocations := some mapMemory
          hooksInitialized := true
          memory := Function.update s.memory .gAllocations [piece] })
    | (.error stop, s) => (.error stop, s)

def Startup.initializePool (env : StartupEnv) (config : DomovoyConfig) (s : Startup) :
    Except InitStop Unit × Startup :=
  match Domovoy.initializePool env.os config.allocatorCapacityBytes s.pool with
  | (.ok (), pool) => (.ok (), { s with pool := pool })
  | (.error _, pool) => (.error (.threw .initializePool), { s with pool := pool })

/-- A copy of `output_dir` in an `isolated_string`; up to 15 characters need no
memory. -/
def Startup.isolatedString (env : StartupEnv) (call : InitCall) (config : DomovoyConfig)
    (s : Startup) : Except InitStop (List PoolPiece) × Startup :=
  let length := config.outputDir.utf8ByteSize
  if length ≤ 15 then (.ok [], s)
  else
    match s.allocate env call (BitVec.ofNat 64 (length + 1)) 1 with
    | (.ok (_, piece), s) => (.ok [piece], s)
    | (.error stop, s) => (.error stop, s)

def Startup.outDir (env : StartupEnv) (config : DomovoyConfig) (s : Startup) :
    Except InitStop Unit × Startup :=
  match s.isolatedString env .outDir config with
  | (.ok _, s) => (.ok (), s)
  | (.error stop, s) => (.error stop, s)

/-- `reporter_` is assigned once the constructor has returned. -/
def Startup.constructReporter (env : StartupEnv) (config : DomovoyConfig)
    (s : Startup) : Except InitStop Unit × Startup :=
  match s.allocate env .reporterMemory sizeofReporter maxAlign with
  | (.error stop, s) => (.error stop, s)
  | (.ok (_, piece), s) =>
      match s.isolatedString env .reporterDir config with
      | (.error stop, s) => (.error stop, s)
      | (.ok pieces, s) =>
          (.ok (), { s with
            process.core.reporter := some { outputDir := config.outputDir }
            memory := Function.update s.memory .reporter (piece :: pieces) })

/-- `Install`: the flag is set before the memory is asked for. -/
def Startup.install (sizes : TypeSizes) (env : StartupEnv) (s : Startup) :
    Except InitStop Unit × Startup :=
  if s.process.crash.installed then (.ok (), s)
  else
    let s := { s with process.crash.installed := true }
    match s.allocate env .signalStack sizes.sigstksz maxAlign with
    | (.ok (memory, _), s) =>
        let altStack := some { sp := memory, size := sizes.sigstksz }
        let (crash, signals) := crashSignals.foldl (fun state sig => replaceAction sig state)
          (s.process.crash, { s.process.signals with altStack := altStack })
        (.ok (), { s with process.crash := crash, process.signals := signals })
    | (.error stop, s) => (.error stop, s)

/-- `Start`: the flag is set before the thread is created. -/
def Startup.start (env : StartupEnv) (s : Startup) : Except InitStop Unit × Startup :=
  if s.process.cpu.running then (.ok (), s)
  else
    let s := { s with process.cpu.running := true }
    if env.spawns then (.ok (), { s with monitorThread := true })
    else (.error (.threw .monitorThread), s)

/-- Run parts of `Init` up to the first that does not return. -/
def runStages : List (Startup → Except InitStop Unit × Startup) →
    Startup → Except InitStop Unit × Startup
  | [], s => (.ok (), s)
  | stage :: stages, s =>
      match stage s with
      | (.ok (), s) => runStages stages s
      | (.error stop, s) => (.error stop, s)

/-- The parts of `Init` that depend on a flag of the configuration. -/
def onlyIf (enabled : Bool) (stage : Startup → Except InitStop Unit × Startup)
    (s : Startup) : Except InitStop Unit × Startup :=
  if enabled then stage s else (.ok (), s)

def initStages (sizes : TypeSizes) (env : StartupEnv) (config : DomovoyConfig) :
    List (Startup → Except InitStop Unit × Startup) :=
  [Startup.hooksInit sizes env,
    Startup.initializePool env config,
    Startup.outDir env config,
    Startup.constructReporter env config,
    onlyIf config.enableCrashHandler (Startup.install sizes env),
    onlyIf config.enableIoMonitoring
      (fun s => (.ok (), { s with process.io := s.process.io.enable })),
    onlyIf config.enableCpuProfiler (Startup.start env)]

def Startup.init (sizes : TypeSizes) (env : StartupEnv) (config : DomovoyConfig)
    (s : Startup) : Except InitStop Unit × Startup :=
  if s.process.core.initialized then (.ok (), s)
  else
    match runStages (initStages sizes env config)
        { s with process.core.config := config } with
    | (.ok (), s) => (.ok (), { s with process.core.initialized := true })
    | (.error stop, s) => (.error stop, s)

/-- `Stop` joins the monitor's thread. -/
def Startup.shutdown (env : ShutdownEnv) (s : Startup) : Except Thrown Unit × Startup :=
  let (result, process) := s.process.shutdown env
  let joined := s.process.core.initialized && s.process.cpu.running
  (result, { s with process := process, monitorThread := s.monitorThread && !joined })

/-- The calls that are made after a flag has been set which keeps the part from being
run again: `hooks_initializing`, `installed_` and `running_`. -/
def InitCall.guarded : InitCall → Bool
  | .allocationMap => true
  | .signalStack => true
  | .monitorThread => true
  | _ => false

/-- What touches nothing but the pool. -/
def PoolOnly {α : Type} (call : InitCall) (s : Startup)
    (result : Except InitStop α × Startup) : Prop :=
  ∃ pool, (∃ value, result = (.ok value, { s with pool := pool })) ∨
    result = (.error (.threw call), { s with pool := pool })

theorem Startup.allocate_poolOnly (env : StartupEnv) (call : InitCall)
    (size alignment : Word) (s : Startup) :
    PoolOnly call s (s.allocate env call size alignment) := by
  rw [allocate]
  rcases Domovoy.allocate env.os size alignment s.pool with ⟨_ | ptr, pool⟩
  · exact ⟨pool, Or.inr rfl⟩
  · exact ⟨pool, Or.inl ⟨_, rfl⟩⟩

theorem Startup.initializePool_poolOnly (env : StartupEnv) (config : DomovoyConfig)
    (s : Startup) : PoolOnly .initializePool s (s.initializePool env config) := by
  rw [Startup.initializePool]
  rcases Domovoy.initializePool env.os config.allocatorCapacityBytes s.pool with
    ⟨_ | _, pool⟩
  · exact ⟨pool, Or.inr rfl⟩
  · exact ⟨pool, Or.inl ⟨(), rfl⟩⟩

theorem Startup.isolatedString_poolOnly (env : StartupEnv) (call : InitCall)
    (config : DomovoyConfig) (s : Startup) :
    PoolOnly call s (s.isolatedString env call config) := by
  rw [Startup.isolatedString]
  split
  · exact ⟨s.pool, Or.inl ⟨[], rfl⟩⟩
  · obtain ⟨pool, ⟨value, hresult⟩ | hresult⟩ := s.allocate_poolOnly env call
      (BitVec.ofNat 64 (config.outputDir.utf8ByteSize + 1)) 1
    · exact ⟨pool, Or.inl ⟨_, by rw [hresult]⟩⟩
    · exact ⟨pool, Or.inr (by rw [hresult])⟩

theorem Startup.outDir_poolOnly (env : StartupEnv) (config : DomovoyConfig)
    (s : Startup) : PoolOnly .outDir s (s.outDir env config) := by
  rw [Startup.outDir]
  obtain ⟨pool, ⟨value, hresult⟩ | hresult⟩ := s.isolatedString_poolOnly env .outDir config
  · exact ⟨pool, Or.inl ⟨(), by rw [hresult]⟩⟩
  · exact ⟨pool, Or.inr (by rw [hresult])⟩

variable {s after : Startup}

theorem PoolOnly.ok {call : InitCall} {result : Except InitStop Unit × Startup}
    (honly : PoolOnly call s result) (hok : result = (.ok (), after)) :
    ∃ pool, after = { s with pool := pool } := by
  obtain ⟨pool, ⟨_, rfl⟩ | rfl⟩ := honly
  · exact ⟨pool, (Prod.mk.inj hok).2.symm⟩
  · cases hok

theorem Startup.constructReporter_cases (env : StartupEnv) (config : DomovoyConfig)
    (s : Startup) :
    (∃ call pool, call.guarded = false ∧
        s.constructReporter env config = (.error (.threw call), { s with pool := pool })) ∨
      ∃ pool pieces, s.constructReporter env config =
        (.ok (), { s with
          pool := pool
          process.core.reporter := some { outputDir := config.outputDir }
          memory := Function.update s.memory .reporter pieces }) := by
  rw [Startup.constructReporter]
  obtain ⟨pool, ⟨⟨ptr, piece⟩, hmemory⟩ | hmemory⟩ :=
    s.allocate_poolOnly env .reporterMemory sizeofReporter maxAlign
  · obtain ⟨pool', ⟨pieces, hcopy⟩ | hcopy⟩ :=
      Startup.isolatedString_poolOnly env .reporterDir config { s with pool := pool }
    · exact Or.inr ⟨pool', piece :: pieces, by rw [hmemory]; simp only [hcopy]⟩
    · exact Or.inl ⟨.reporterDir, pool', rfl, by rw [hmemory]; simp only [hcopy]⟩
  · exact Or.inl ⟨.reporterMemory, pool, rfl, by rw [hmemory]⟩

theorem onlyIf_keeps {P : Startup → Prop} {enabled : Bool}
    {stage : Startup → Except InitStop Unit × Startup} (hs : P s)
    (hstage : P (stage s).2) : P (onlyIf enabled stage s).2 := by
  rw [onlyIf]
  split
  · exact hstage
  · exact hs

theorem onlyIf_ok {enabled : Bool} {stage : Startup → Except InitStop Unit × Startup}
    (hok : onlyIf enabled stage s = (.ok (), after)) :
    enabled = true ∧ stage s = (.ok (), after) ∨ enabled = false ∧ after = s := by
  cases enabled with
  | true => exact Or.inl ⟨rfl, hok⟩
  | false => exact Or.inr ⟨rfl, (Prod.mk.inj hok).2.symm⟩

/-- What every part of `Init` preserves holds however far `Init` gets. -/
theorem runStages_keeps {P : Startup → Prop}
    {stages : List (Startup → Except InitStop Unit × Startup)}
    (hstages : ∀ stage ∈ stages, ∀ s : Startup, P s → P (stage s).2) (hs : P s) :
    P (runStages stages s).2 := by
  induction stages generalizing s with
  | nil => exact hs
  | cons stage stages ih =>
      obtain ⟨hfirst, hrest⟩ := List.forall_mem_cons.mp hstages
      have hnext := hfirst s hs
      rw [runStages]
      revert hnext
      rcases stage s with ⟨_ | _, next⟩
      · exact id
      · exact ih hrest

theorem runStages_cons_ok {stage : Startup → Except InitStop Unit × Startup}
    {stages : List (Startup → Except InitStop Unit × Startup)} :
    runStages (stage :: stages) s = (.ok (), after) ↔
      ∃ next, stage s = (.ok (), next) ∧ runStages stages next = (.ok (), after) := by
  rw [runStages]
  rcases stage s with ⟨_ | _, next⟩ <;> simp

/-- Where only the last part can break `P`, and only when it returns, an exception leaves
`P`. -/
theorem runStages_append_error {first : List (Startup → Except InitStop Unit × Startup)}
    {stage : Startup → Except InitStop Unit × Startup} {P : Startup → Prop}
    (hfirst : ∀ stage ∈ first, ∀ s : Startup, P s → P (stage s).2)
    (hstage : ∀ s : Startup, P s → ∀ stop after, stage s = (.error stop, after) → P after)
    (hs : P s) {stop : InitStop}
    (herror : runStages (first ++ [stage]) s = (.error stop, after)) : P after := by
  induction first generalizing s with
  | nil =>
      rw [List.nil_append, runStages] at herror
      rcases hresult : stage s with ⟨stop' | _, next⟩
      · rw [hresult] at herror
        obtain ⟨-, rfl⟩ := Prod.mk.inj herror
        exact hstage s hs stop' next hresult
      · rw [hresult] at herror
        cases herror
  | cons head first ih =>
      obtain ⟨hhead, hrest⟩ := List.forall_mem_cons.mp hfirst
      have hnext := hhead s hs
      rw [List.cons_append, runStages] at herror
      rcases hresult : head s with ⟨stop' | _, next⟩
      · rw [hresult] at herror hnext
        obtain ⟨-, rfl⟩ := Prod.mk.inj herror
        exact hnext
      · rw [hresult] at herror hnext
        exact ih hrest hnext herror

variable {sizes : TypeSizes} {env : StartupEnv} {config : DomovoyConfig}

theorem Startup.hooksInit_ok (hok : s.hooksInit sizes env = (.ok (), after)) :
    after.process = s.process ∧ after.hooksInitialized = true := by
  rw [Startup.hooksInit] at hok
  split at hok
  next hdone =>
    obtain rfl := (Prod.mk.inj hok).2
    exact ⟨rfl, hdone⟩
  next =>
    split at hok
    · cases hok
    · obtain ⟨pool, ⟨value, hresult⟩ | hresult⟩ := Startup.allocate_poolOnly env
        .allocationMap sizes.sizeofAllocMap sizes.alignofAllocMap
        { s with hooksInitializing := true }
      · simp only [hresult] at hok
        obtain rfl := (Prod.mk.inj hok).2
        exact ⟨rfl, rfl⟩
      · simp only [hresult] at hok
        cases hok

theorem Startup.constructReporter_ok
    (hok : s.constructReporter env config = (.ok (), after)) :
    after.process = { s.process with
        core.reporter := some { outputDir := config.outputDir } } ∧
      after.hooksInitialized = s.hooksInitialized := by
  rcases s.constructReporter_cases env config with
    ⟨call, pool, -, hresult⟩ | ⟨pool, pieces, hresult⟩
  · rw [hresult] at hok
    cases hok
  · rw [hresult] at hok
    obtain rfl := (Prod.mk.inj hok).2
    exact ⟨rfl, rfl⟩

/-- `Install` once its stack has been granted. -/
theorem Startup.install_ok (hok : s.install sizes env = (.ok (), after)) :
    ∃ memory, after.process = { s.process with
        crash := (s.process.crash.install memory sizes.sigstksz s.process.signals).1
        signals := (s.process.crash.install memory sizes.sigstksz s.process.signals).2 } ∧
      after.hooksInitialized = s.hooksInitialized := by
  by_cases hinstalled : s.process.crash.installed = true
  · rw [Startup.install, if_pos hinstalled] at hok
    obtain rfl := (Prod.mk.inj hok).2
    exact ⟨0, by rw [CrashHandler.install_of_installed hinstalled], rfl⟩
  · rw [Startup.install, if_neg hinstalled] at hok
    obtain ⟨pool, ⟨⟨memory, piece⟩, hresult⟩ | hresult⟩ := Startup.allocate_poolOnly env
      .signalStack sizes.sigstksz maxAlign { s with process.crash.installed := true }
    · simp only [hresult] at hok
      obtain rfl := (Prod.mk.inj hok).2
      refine ⟨memory, ?_, rfl⟩
      rw [CrashHandler.install, if_neg hinstalled]
    · simp only [hresult] at hok
      cases hok

theorem Startup.start_ok (hok : s.start env = (.ok (), after)) :
    after.process = { s.process with cpu := s.process.cpu.start } ∧
      after.hooksInitialized = s.hooksInitialized := by
  by_cases hrunning : s.process.cpu.running = true
  · rw [Startup.start, if_pos hrunning] at hok
    obtain rfl := (Prod.mk.inj hok).2
    exact ⟨by rw [CpuMonitor.start, if_pos hrunning], rfl⟩
  · rw [Startup.start, if_neg hrunning] at hok
    by_cases hspawns : env.spawns = true
    · simp only [hspawns, if_true] at hok
      obtain rfl := (Prod.mk.inj hok).2
      exact ⟨by rw [CpuMonitor.start, if_neg hrunning], rfl⟩
    · simp only [hspawns, Bool.false_eq_true, if_false] at hok
      cases hok

/-- An `Init` that meets no failure does to the process what `Init` is to do, and leaves
the hooks initialised. -/
theorem Startup.init_ok (hdown : s.process.core.initialized = false)
    (hok : s.init sizes env config = (.ok (), after)) :
    (∃ memory, after.process = s.process.init config memory sizes.sigstksz) ∧
      after.hooksInitialized = true := by
  rw [Startup.init, if_neg (by simp [hdown])] at hok
  rcases hstages : runStages (initStages sizes env config)
    { s with process.core.config := config } with ⟨_ | ⟨⟨⟩⟩, last⟩
  · rw [hstages] at hok
    cases hok
  · rw [hstages] at hok
    obtain rfl := (Prod.mk.inj hok).2
    simp only [initStages, runStages_cons_ok] at hstages
    obtain ⟨s₁, hhooks, s₂, hpool, s₃, hdir, s₅, hreporter, s₆, hinstall,
      s₇, hio, s₈, hstart, hlast⟩ := hstages
    obtain rfl := (Prod.mk.inj hlast).2
    obtain ⟨hprocess₁, hdone⟩ := hooksInit_ok hhooks
    obtain ⟨pool₂, rfl⟩ := (s₁.initializePool_poolOnly env config).ok hpool
    obtain ⟨pool₃, rfl⟩ := (outDir_poolOnly env config _).ok hdir
    obtain ⟨hprocess₅, hdone₅⟩ := constructReporter_ok hreporter
    rw [hprocess₁] at hprocess₅
    have hinstalled : ∃ memory, s₆.process =
        (if config.enableCrashHandler then
          { s₅.process with
            crash := (s₅.process.crash.install memory sizes.sigstksz s₅.process.signals).1
            signals := (s₅.process.crash.install memory sizes.sigstksz
              s₅.process.signals).2 }
        else s₅.process) ∧ s₆.hooksInitialized = s₅.hooksInitialized := by
      rcases onlyIf_ok hinstall with ⟨hon, hinstall⟩ | ⟨hoff, rfl⟩
      · obtain ⟨memory, hprocess, hdone⟩ := install_ok hinstall
        exact ⟨memory, by rw [if_pos hon, hprocess], hdone⟩
      · exact ⟨0, by simp [hoff], rfl⟩
    have henabled : s₇.process =
        (if config.enableIoMonitoring then
          { s₆.process with io := s₆.process.io.enable } else s₆.process) ∧
          s₇.hooksInitialized = s₆.hooksInitialized := by
      rcases onlyIf_ok hio with ⟨hon, hio⟩ | ⟨hoff, rfl⟩
      · obtain rfl := (Prod.mk.inj hio).2
        exact ⟨by rw [if_pos hon], rfl⟩
      · exact ⟨by simp [hoff], rfl⟩
    have hstarted : s₈.process =
        (if config.enableCpuProfiler then
          { s₇.process with cpu := s₇.process.cpu.start } else s₇.process) ∧
          s₈.hooksInitialized = s₇.hooksInitialized := by
      rcases onlyIf_ok hstart with ⟨hon, hstart⟩ | ⟨hoff, rfl⟩
      · obtain ⟨hprocess, hdone⟩ := start_ok hstart
        exact ⟨by rw [if_pos hon, hprocess], hdone⟩
      · exact ⟨by simp [hoff], rfl⟩
    obtain ⟨memory, hprocess₆, hdone₆⟩ := hinstalled
    refine ⟨⟨memory, ?_⟩, ?_⟩
    · rw [hstarted.1, henabled.1, hprocess₆, hprocess₅]
      simp only [Process.init, hdown, Bool.false_eq_true, if_false]
    · exact hstarted.2.trans (henabled.2.trans (hdone₆.trans (hdone₅.trans hdone)))

end Domovoy
