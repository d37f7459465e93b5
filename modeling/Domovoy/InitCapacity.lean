/-
The capacity that `Init` is configured with, next to the blocks that are on the pool's
list when it returns: which of the calls that reach the pool maps the first block.
-/
import Domovoy.PoolCapacity
import Domovoy.PoolTeardown

namespace Domovoy

open WordAlign Transition

/-- What the process does before the first `Init`: the hooks, and the pool itself. -/
inductive PriorCall where
  | hook (call : HookCall) (returned : Word) (requests : List StlRequest)
  | openFd (call : IoCall) (fd : Int) (requests : List StlRequest)
  | closeFd (fd : Int)
  | allocate (size alignment : Word)

def TeardownWorld.prior (os : Mmap) (sizes : TypeSizes) (w : TeardownWorld) :
    PriorCall → Option TeardownWorld
  | .hook call returned requests => w.step os sizes (.hook call returned requests)
  | .openFd call fd requests => w.step os sizes (.openFd call fd requests)
  | .closeFd fd => w.step os sizes (.closeFd fd)
  | .allocate size alignment =>
      some { w with startup.pool := (allocate os size alignment w.startup.pool).2 }

/-- A hooked call that the C++ library makes inside `Init`; `requests` is what the map
asks for to record it. -/
def Startup.hookedCall (os : Mmap) (sizes : TypeSizes) (s : Startup)
    (requests : List StlRequest) : Option Startup :=
  match s.ensureInit os sizes with
  | (.error _, _) => none
  | (.ok (), s) =>
      match serveAll os s.teardowns requests s.pool with
      | (some pieces, pool) =>
          some { s with
            pool := pool
            memory := Function.update s.memory .gAllocations
              (pieces ++ s.memory .gAllocations) }
      | (none, _) => none

/-- The parts of `Init` from the `n`-th on, with the hooked calls that are made in front
of each of them and behind the last. -/
def Startup.runAmid (os : Mmap) (sizes : TypeSizes) (hooked : Nat → List (List StlRequest)) :
    Nat → List (Startup → Except InitStop Unit × Startup) → Startup → Option Startup
  | n, [], s => run (hookedCall os sizes) s (hooked n)
  | n, stage :: stages, s =>
      match run (hookedCall os sizes) s (hooked n) with
      | none => none
      | some s =>
          match stage s with
          | (.ok (), s) => runAmid os sizes hooked (n + 1) stages s
          | (.error _, _) => none

/-- `Init` when it returns. -/
def Startup.initAmid (sizes : TypeSizes) (env : StartupEnv)
    (hooked : Nat → List (List StlRequest)) (config : DomovoyConfig) (s : Startup) :
    Option Startup :=
  if s.process.core.initialized then some s
  else
    match runAmid env.os sizes hooked 0 (initStages sizes env config)
        { s with process.core.config := config } with
    | some s => some { s with process.core.initialized := true }
    | none => none

/-- The chunk that a container's request comes down to. -/
def StlRequest.chunk (request : StlRequest) : ChunkRequest where
  size := request.n * request.sizeofT
  alignment := request.alignofT

def chunks (calls : List (List StlRequest)) : List ChunkRequest :=
  calls.flatten.map StlRequest.chunk

/-- The memory of one copy of `output_dir`. -/
def dirRequests (config : DomovoyConfig) : List ChunkRequest :=
  let length := config.outputDir.utf8ByteSize
  if length ≤ 15 then [] else [⟨BitVec.ofNat 64 (length + 1), 1⟩]

/-- What `Init` asks of the pool, `Initialize` apart. -/
def initRequests (sizes : TypeSizes) (hooked : Nat → List (List StlRequest))
    (config : DomovoyConfig) (hooksInitialized : Bool) : List ChunkRequest :=
  (if hooksInitialized then [] else [⟨sizes.sizeofAllocMap, sizes.alignofAllocMap⟩]) ++
    chunks (hooked 0) ++ chunks (hooked 1) ++ chunks (hooked 2) ++ dirRequests config ++
      chunks (hooked 3) ++ (⟨sizeofReporter, maxAlign⟩ :: dirRequests config) ++
        chunks (hooked 4) ++
          (if config.enableCrashHandler then [⟨sizes.sigstksz, maxAlign⟩] else []) ++
            chunks (hooked 5) ++ chunks (hooked 6) ++ chunks (hooked 7)

/-- A part of `Init` has had exactly these chunks from the pool. -/
structure Startup.Takes (os : Mmap) (requests : List ChunkRequest) (s after : Startup) :
    Prop where
  pool : run (Pool.grant os) s.pool requests = some after.pool
  hooks : s.hooksInitialized = true → after.hooksInitialized = true

/-- The process before `Init` as far as the pool is concerned. -/
structure Startup.Fallow (s : Startup) : Prop where
  stocked : ∃ keys, s.pool.Stocked keys ∧ (s.hooksInitialized = true → keys ≠ [])
  down : s.process.core.initialized = false
  uninstalled : s.process.crash.installed = false

section

variable {os : Mmap} {sizes : TypeSizes} {env : StartupEnv} {config : DomovoyConfig}
  {s middle after : Startup}

theorem Startup.runAmid_cons_eq_some {hooked : Nat → List (List StlRequest)} {n : Nat}
    {stage : Startup → Except InitStop Unit × Startup}
    {stages : List (Startup → Except InitStop Unit × Startup)} :
    runAmid os sizes hooked n (stage :: stages) s = some after ↔
      ∃ middle, run (hookedCall os sizes) s (hooked n) = some middle ∧
        ∃ next, stage middle = (.ok (), next) ∧
          runAmid os sizes hooked (n + 1) stages next = some after := by
  rw [runAmid]
  rcases run (hookedCall os sizes) s (hooked n) with _ | middle
  · simp
  · rcases hresult : stage middle with ⟨_ | _, next⟩ <;> simp [hresult]

/-- Without hooked calls in between, this is `Init`. -/
theorem Startup.initAmid_nil :
    s.initAmid sizes env (fun _ => []) config = some after ↔
      s.init sizes env config = (.ok (), after) := by
  have hstages : ∀ stages n (start last : Startup),
      runAmid env.os sizes (fun _ => []) n stages start = some last ↔
        runStages stages start = (.ok (), last) := by
    intro stages
    induction stages with
    | nil => intro n start last; simp [runAmid, runStages]
    | cons stage stages ih =>
        intro n start last
        rw [runAmid, runStages]
        simp only [run_nil]
        rcases stage start with ⟨_ | _, next⟩
        · simp
        · exact ih (n + 1) next last
  rw [initAmid, Startup.init]
  split
  · simp
  · rcases hresult : runStages (initStages sizes env config)
      { s with process.core.config := config } with ⟨stop | _, last⟩
    · rcases hamid : runAmid env.os sizes (fun _ => []) 0 (initStages sizes env config)
        { s with process.core.config := config } with _ | other
      · simp
      · rw [(hstages _ _ _ _).mp hamid] at hresult
        cases hresult
    · rw [(hstages _ 0 _ _).mpr hresult]
      simp

theorem Startup.Takes.trans {first second : List ChunkRequest}
    (hfirst : s.Takes os first middle) (hsecond : middle.Takes os second after) :
    s.Takes os (first ++ second) after where
  pool := run_append_eq_some.mpr ⟨middle.pool, hfirst.pool, hsecond.pool⟩
  hooks := fun hooks => hsecond.hooks (hfirst.hooks hooks)

theorem Startup.takes_nil (hpool : after.pool = s.pool)
    (hooks : after.hooksInitialized = s.hooksInitialized) : s.Takes os [] after :=
  ⟨by rw [run_nil, hpool], by rw [hooks]; exact id⟩

/-- A call of `Init` on the pool that returns has been granted its chunk. -/
theorem Startup.allocate_grant {call : InitCall} {size alignment : Word}
    {ptr : Word × PoolPiece} (hok : s.allocate env call size alignment = (.ok ptr, after)) :
    ∃ pool, s.pool.grant env.os ⟨size, alignment⟩ = some pool ∧
      after = { s with pool := pool } := by
  rw [Startup.allocate] at hok
  rcases hresult : Domovoy.allocate env.os size alignment s.pool with ⟨_ | _, pool⟩
  · rw [hresult] at hok
    cases hok
  · rw [hresult] at hok
    exact ⟨pool, by simp [Pool.grant, hresult], (Prod.mk.inj hok).2.symm⟩

theorem Startup.hooksInit_takes (hok : s.hooksInit sizes env = (.ok (), after)) :
    s.Takes env.os (if s.hooksInitialized then []
      else [⟨sizes.sizeofAllocMap, sizes.alignofAllocMap⟩]) after ∧
      after.hooksInitialized = true ∧ after.process = s.process := by
  obtain ⟨hprocess, hdone⟩ := hooksInit_ok hok
  refine ⟨⟨?_, fun _ => hdone⟩, hdone, hprocess⟩
  by_cases hooks : s.hooksInitialized = true
  · rw [Startup.hooksInit, if_pos hooks] at hok
    obtain rfl := (Prod.mk.inj hok).2
    simp [hooks]
  · rw [Startup.hooksInit, if_neg hooks] at hok
    split at hok
    · cases hok
    · rw [if_neg hooks, run_cons_eq_some]
      rcases hresult : Startup.allocate env .allocationMap sizes.sizeofAllocMap
        sizes.alignofAllocMap { s with hooksInitializing := true } with ⟨_ | _, next⟩
      · simp only [hresult] at hok
        cases hok
      · obtain ⟨pool, hgrant, rfl⟩ := Startup.allocate_grant hresult
        simp only [hresult] at hok
        obtain rfl := (Prod.mk.inj hok).2
        exact ⟨pool, hgrant, rfl⟩

/-- `Initialize` does nothing to a list that has a block. -/
theorem Startup.initializePool_takes (hhead : s.pool.headBlock ≠ nullptr)
    (hok : s.initializePool env config = (.ok (), after)) : after = s := by
  rw [Startup.initializePool, Domovoy.initializePool, if_neg hhead] at hok
  exact (Prod.mk.inj hok).2.symm

theorem Startup.isolatedString_takes {call : InitCall} {pieces : List PoolPiece}
    (hok : s.isolatedString env call config = (.ok pieces, after)) :
    ∃ pool, run (Pool.grant env.os) s.pool (dirRequests config) = some pool ∧
      after = { s with pool := pool } := by
  rw [Startup.isolatedString] at hok
  by_cases hshort : config.outputDir.utf8ByteSize ≤ 15
  · simp only [hshort, if_true] at hok
    obtain rfl := (Prod.mk.inj hok).2
    exact ⟨s.pool, by simp [dirRequests, hshort], rfl⟩
  · simp only [hshort, if_false] at hok
    rcases hresult : s.allocate env call
      (BitVec.ofNat 64 (config.outputDir.utf8ByteSize + 1)) 1 with ⟨_ | _, next⟩
    · rw [hresult] at hok
      cases hok
    · obtain ⟨pool, hgrant, rfl⟩ := Startup.allocate_grant hresult
      rw [hresult] at hok
      obtain rfl := (Prod.mk.inj hok).2
      refine ⟨pool, ?_, rfl⟩
      simp only [dirRequests, hshort, if_false, run_cons_eq_some]
      exact ⟨pool, hgrant, rfl⟩

theorem Startup.outDir_takes (hok : s.outDir env config = (.ok (), after)) :
    s.Takes env.os (dirRequests config) after ∧ after.process = s.process := by
  rw [Startup.outDir] at hok
  rcases hresult : s.isolatedString env .outDir config with ⟨_ | _, next⟩
  · rw [hresult] at hok
    cases hok
  · obtain ⟨pool, hgrants, rfl⟩ := Startup.isolatedString_takes hresult
    rw [hresult] at hok
    obtain rfl := (Prod.mk.inj hok).2
    exact ⟨⟨hgrants, id⟩, rfl⟩

theorem Startup.constructReporter_takes
    (hok : s.constructReporter env config = (.ok (), after)) :
    s.Takes env.os (⟨sizeofReporter, maxAlign⟩ :: dirRequests config) after ∧
      after.process.crash = s.process.crash := by
  rw [Startup.constructReporter] at hok
  rcases hmemory : s.allocate env .reporterMemory sizeofReporter maxAlign with
    ⟨_ | _, next⟩
  · rw [hmemory] at hok
    cases hok
  · obtain ⟨pool, hgrant, rfl⟩ := Startup.allocate_grant hmemory
    rw [hmemory] at hok
    simp only at hok
    rcases hcopy : Startup.isolatedString env .reporterDir config { s with pool := pool }
      with ⟨_ | _, next⟩
    · rw [hcopy] at hok
      cases hok
    · obtain ⟨pool', hgrants, rfl⟩ := Startup.isolatedString_takes hcopy
      rw [hcopy] at hok
      obtain rfl := (Prod.mk.inj hok).2
      exact ⟨⟨run_cons_eq_some.mpr ⟨pool, hgrant, hgrants⟩, id⟩, rfl⟩

theorem Startup.install_takes (huninstalled : s.process.crash.installed = false)
    (hok : s.install sizes env = (.ok (), after)) :
    s.Takes env.os [⟨sizes.sigstksz, maxAlign⟩] after := by
  rw [Startup.install, if_neg (by simp [huninstalled])] at hok
  rcases hresult : Startup.allocate env .signalStack sizes.sigstksz maxAlign
    { s with process.crash.installed := true } with ⟨_ | _, next⟩
  · simp only [hresult] at hok
    cases hok
  · obtain ⟨pool, hgrant, rfl⟩ := Startup.allocate_grant hresult
    simp only [hresult] at hok
    obtain rfl := (Prod.mk.inj hok).2
    exact ⟨run_cons_eq_some.mpr ⟨pool, hgrant, rfl⟩, id⟩

theorem Startup.start_takes (hok : s.start env = (.ok (), after)) :
    s.Takes env.os [] after := by
  obtain ⟨running, thread, hresult, -⟩ := s.start_frame env
  rw [hok] at hresult
  obtain rfl : after = _ := hresult
  exact Startup.takes_nil rfl rfl

/-- What a container is given is what its requests are granted. -/
theorem serveAll_grant {teardowns : Nat} {requests : List StlRequest} {pool last : Pool}
    {pieces : List PoolPiece} (hserved : serveAll os teardowns requests pool = (some pieces, last)) :
    run (Pool.grant os) pool (requests.map StlRequest.chunk) = some last := by
  induction requests generalizing pool pieces with
  | nil => exact congrArg some (Prod.mk.inj hserved).2
  | cons request requests ih =>
      rw [serveAll, stlAllocate] at hserved
      rw [List.map_cons, run_cons_eq_some]
      split at hserved
      next ptr next hfirst =>
        split at hfirst
        · cases hfirst
        · rcases hresult : allocate os (request.n * request.sizeofT) request.alignofT pool
            with ⟨_ | ptr', granted⟩
          · rw [hresult] at hfirst
            cases hfirst
          · rw [hresult] at hfirst
            simp only at hfirst
            split at hfirst
            · cases hfirst
            · obtain rfl := (Prod.mk.inj hfirst).2
              refine ⟨granted, by simp [Pool.grant, StlRequest.chunk, hresult], ?_⟩
              rcases hrest : serveAll os teardowns requests granted with ⟨_ | others, last'⟩
              · simp [hrest] at hserved
              · simp only [hrest, Prod.mk.injEq] at hserved
                obtain ⟨-, rfl⟩ := hserved
                exact ih hrest
      next => cases hserved

/-- A hooked call once the hooks are there. -/
theorem Startup.hookedCall_takes (hooks : s.hooksInitialized = true)
    {requests : List StlRequest} (hcall : s.hookedCall os sizes requests = some after) :
    s.Takes os (requests.map StlRequest.chunk) after ∧ after.process = s.process := by
  have hready : s.ensureInit os sizes = (.ok (), s) := by
    rw [ensureInit, Startup.hooksInit, if_pos hooks]
    split <;> rfl
  simp only [hookedCall, hready] at hcall
  rcases hserved : serveAll os s.teardowns requests s.pool with ⟨_ | pieces, pool⟩
  · rw [hserved] at hcall
    cases hcall
  · rw [hserved] at hcall
    obtain rfl := Option.some.inj hcall
    exact ⟨⟨serveAll_grant hserved, id⟩, rfl⟩

theorem Startup.hookedCalls_takes (hooks : s.hooksInitialized = true)
    {calls : List (List StlRequest)}
    (hcalls : run (hookedCall os sizes) s calls = some after) :
    s.Takes os (chunks calls) after ∧ after.process = s.process := by
  induction calls generalizing s with
  | nil =>
      obtain rfl := Option.some.inj hcalls
      exact ⟨Startup.takes_nil rfl rfl, rfl⟩
  | cons requests calls ih =>
      obtain ⟨next, hcall, hrest⟩ := run_cons_eq_some.mp hcalls
      obtain ⟨hfirst, hprocess⟩ := Startup.hookedCall_takes hooks hcall
      obtain ⟨hothers, hprocess'⟩ := ih (hfirst.hooks hooks) hrest
      rw [chunks, List.flatten_cons, List.map_append]
      exact ⟨hfirst.trans hothers, hprocess'.trans hprocess⟩

/-- Hooks that are being initialised for ever stay so, and `Init` waits for them. -/
theorem Startup.hookedCalls_stuck (hbusy : s.hooksInitializing = true)
    (hooks : s.hooksInitialized = false) {calls : List (List StlRequest)}
    (hcalls : run (hookedCall os sizes) s calls = some after) :
    after.hooksInit sizes env = (.error .waits, after) := by
  induction calls generalizing s with
  | nil =>
      obtain rfl := Option.some.inj hcalls
      simp [Startup.hooksInit, hbusy, hooks]
  | cons requests calls ih =>
      obtain ⟨next, hcall, hrest⟩ := run_cons_eq_some.mp hcalls
      rw [hookedCall, ensureInit, if_pos hbusy] at hcall
      simp only at hcall
      rcases hserved : serveAll os s.teardowns requests s.pool with ⟨_ | pieces, pool⟩
      · rw [hserved] at hcall
        cases hcall
      · rw [hserved] at hcall
        obtain rfl := Option.some.inj hcall
        refine ih ?_ ?_ hrest
        · exact hbusy
        · exact hooks

/-- The map is the first thing that is asked for, in `Init` or in a hooked call before
it. -/
theorem Startup.hooksReady_takes {calls : List (List StlRequest)}
    (hcalls : run (hookedCall env.os sizes) s calls = some middle)
    (hok : middle.hooksInit sizes env = (.ok (), after)) :
    s.Takes env.os ((if s.hooksInitialized then []
      else [⟨sizes.sizeofAllocMap, sizes.alignofAllocMap⟩]) ++ chunks calls) after ∧
      after.hooksInitialized = true ∧ after.process = s.process := by
  by_cases hooks : s.hooksInitialized = true
  · obtain ⟨hserved, hprocess⟩ := Startup.hookedCalls_takes hooks hcalls
    obtain ⟨hinit, hdone, hprocess'⟩ := Startup.hooksInit_takes hok
    rw [if_pos (hserved.hooks hooks)] at hinit
    rw [if_pos hooks, List.nil_append]
    exact ⟨by simpa using hserved.trans hinit, hdone, hprocess'.trans hprocess⟩
  · have hoff : s.hooksInitialized = false := Bool.eq_false_of_not_eq_true hooks
    cases calls with
    | nil =>
        obtain rfl := Option.some.inj hcalls
        simpa [chunks] using Startup.hooksInit_takes hok
    | cons requests calls =>
        obtain ⟨next, hcall, hrest⟩ := run_cons_eq_some.mp hcalls
        by_cases hbusy : s.hooksInitializing = true
        · rw [Startup.hookedCalls_stuck hbusy hoff hcalls] at hok
          cases hok
        · rw [hookedCall, ensureInit, if_neg hbusy] at hcall
          rcases hresult : s.hooksInit sizes { os := env.os, spawns := true } with
            ⟨_ | _, ready⟩
          · rw [hresult] at hcall
            cases hcall
          · obtain ⟨hmap, hdone, hprocess⟩ := Startup.hooksInit_takes hresult
            rw [hresult] at hcall
            have hagain : ready.hookedCall env.os sizes requests = some next := by
              rw [hookedCall, ensureInit, Startup.hooksInit, if_pos hdone, ite_self]
              exact hcall
            obtain ⟨hserved, hprocess'⟩ := Startup.hookedCalls_takes hdone
              (run_cons_eq_some.mpr ⟨next, hagain, hrest⟩)
            obtain ⟨hinit, hdone', hprocess''⟩ := Startup.hooksInit_takes hok
            rw [if_pos (hserved.hooks hdone)] at hinit
            refine ⟨by simpa using hmap.trans (hserved.trans hinit), hdone', ?_⟩
            exact hprocess''.trans (hprocess'.trans hprocess)

theorem Startup.onlyIf_takes {enabled : Bool}
    {stage : Startup → Except InitStop Unit × Startup} {requests : List ChunkRequest}
    (hok : onlyIf enabled stage s = (.ok (), after))
    (hstage : stage s = (.ok (), after) → s.Takes os requests after) :
    s.Takes os (if enabled then requests else []) after := by
  rcases onlyIf_ok hok with ⟨rfl, hok⟩ | ⟨rfl, rfl⟩
  · exact hstage hok
  · exact Startup.takes_nil rfl rfl

/-- When `Initialize` is called the map has been placed, so the list has a block. -/
theorem Startup.Fallow.listed (hos : os.FreshRegions) (hfallow : s.Fallow)
    {others : List ChunkRequest}
    (htakes : s.Takes os ((if s.hooksInitialized then []
      else [⟨sizes.sizeofAllocMap, sizes.alignofAllocMap⟩]) ++ others) after) :
    after.pool.headBlock ≠ nullptr := by
  obtain ⟨keys, hstocked, hkeys⟩ := hfallow.stocked
  obtain ⟨⟨keys', hafter, hne⟩, -⟩ := hstocked.run_grant hos htakes.pool
  refine mt hafter.toLinked.nil_iff.mp (hne ?_)
  by_cases hooks : s.hooksInitialized = true
  · exact Or.inl (hkeys hooks)
  · exact Or.inr (by simp [hooks])

/-- The parts of `Init` take what they ask for, and `Initialize` adds nothing. -/
theorem Startup.Fallow.runAmid_takes (hos : env.os.FreshRegions) (hfallow : s.Fallow)
    {hooked : Nat → List (List StlRequest)}
    (hparts : runAmid env.os sizes hooked 0 (initStages sizes env config) s = some after) :
    s.Takes env.os (initRequests sizes hooked config s.hooksInitialized) after := by
  simp only [initStages, runAmid_cons_eq_some] at hparts
  obtain ⟨s₀, hfront, s₁, hhooks, s₂, hcalls₁, s₃, hpool, s₄, hcalls₂, s₅, hdir, s₆, hcalls₃,
    s₇, hreporter, s₈, hcalls₄, s₉, hinstall, s₁₀, hcalls₅, s₁₁, hio, s₁₂, hcalls₆, s₁₃,
    hstart, hcalls₇⟩ := hparts
  obtain ⟨htakes₁, hdone₁, hprocess₁⟩ := Startup.hooksReady_takes hfront hhooks
  obtain ⟨htakes₂, hprocess₂⟩ := Startup.hookedCalls_takes hdone₁ hcalls₁
  have htakes := htakes₁.trans htakes₂
  have hhead : s₂.pool.headBlock ≠ nullptr := by
    rw [List.append_assoc] at htakes
    exact hfallow.listed hos htakes
  obtain rfl := Startup.initializePool_takes hhead hpool
  have hdone₂ := htakes₂.hooks hdone₁
  obtain ⟨htakes₄, hprocess₄⟩ := Startup.hookedCalls_takes hdone₂ hcalls₂
  obtain ⟨htakes₅, hprocess₅⟩ := Startup.outDir_takes hdir
  have hdone₅ := htakes₅.hooks (htakes₄.hooks hdone₂)
  obtain ⟨htakes₆, hprocess₆⟩ := Startup.hookedCalls_takes hdone₅ hcalls₃
  obtain ⟨htakes₇, hcrash₇⟩ := Startup.constructReporter_takes hreporter
  have hdone₇ := htakes₇.hooks (htakes₆.hooks hdone₅)
  obtain ⟨htakes₈, hprocess₈⟩ := Startup.hookedCalls_takes hdone₇ hcalls₄
  have huninstalled : s₈.process.crash.installed = false := by
    rw [hprocess₈, hcrash₇, hprocess₆, hprocess₅, hprocess₄, hprocess₂, hprocess₁]
    exact hfallow.uninstalled
  have htakes₉ := Startup.onlyIf_takes hinstall (Startup.install_takes huninstalled)
  have hdone₉ := htakes₉.hooks (htakes₈.hooks hdone₇)
  obtain ⟨htakes₁₀, -⟩ := Startup.hookedCalls_takes hdone₉ hcalls₅
  have htakes₁₁ : s₁₀.Takes env.os [] s₁₁ := by
    rcases onlyIf_ok hio with ⟨-, hio⟩ | ⟨-, rfl⟩
    · obtain rfl := (Prod.mk.inj hio).2
      exact Startup.takes_nil rfl rfl
    · exact Startup.takes_nil rfl rfl
  have hdone₁₁ := htakes₁₁.hooks (htakes₁₀.hooks hdone₉)
  obtain ⟨htakes₁₂, -⟩ := Startup.hookedCalls_takes hdone₁₁ hcalls₆
  have htakes₁₃ : s₁₂.Takes env.os [] s₁₃ := by
    rcases onlyIf_ok hstart with ⟨-, hstart⟩ | ⟨-, rfl⟩
    · exact Startup.start_takes hstart
    · exact Startup.takes_nil rfl rfl
  have hdone₁₃ := htakes₁₃.hooks (htakes₁₂.hooks hdone₁₁)
  obtain ⟨htakes₁₄, -⟩ := Startup.hookedCalls_takes hdone₁₃ hcalls₇
  have hmiddle := ((htakes.trans htakes₄).trans htakes₅).trans htakes₆
  have hlate := ((hmiddle.trans htakes₇).trans htakes₈).trans htakes₉
  have hall := ((((hlate.trans htakes₁₀).trans htakes₁₁).trans htakes₁₂).trans htakes₁₃).trans
    htakes₁₄
  rw [List.append_nil, List.append_nil] at hall
  exact hall

/-- `Init` returns with what its own requests have put on the list, whatever capacity it
is configured with. -/
theorem Startup.Fallow.initAmid (hos : env.os.FreshRegions) (hfallow : s.Fallow)
    {hooked : Nat → List (List StlRequest)}
    (hok : s.initAmid sizes env hooked config = some after) :
    minBlockSize.toNat ≤ after.pool.totalSize ∧
      after.pool.totalSize = s.pool.totalSize +
        s.pool.growthOf env.os (initRequests sizes hooked config s.hooksInitialized) := by
  rw [Startup.initAmid, if_neg (by simp [hfallow.down])] at hok
  rcases hparts : runAmid env.os sizes hooked 0 (initStages sizes env config)
    { s with process.core.config := config } with _ | last
  · rw [hparts] at hok
    cases hok
  · rw [hparts] at hok
    obtain rfl := Option.some.inj hok
    have hconfigured : Startup.Fallow { s with process.core.config := config } :=
      ⟨hfallow.stocked, hfallow.down, hfallow.uninstalled⟩
    have htakes := hconfigured.runAmid_takes hos hparts
    obtain ⟨keys, hstocked, -⟩ := hfallow.stocked
    obtain ⟨⟨keys', hafter, hne⟩, htotal⟩ := hstocked.run_grant hos htakes.pool
    refine ⟨hafter.le_totalSize (hne (Or.inr ?_)), htotal⟩
    simp [initRequests]

theorem serveAll_keepsStock (hos : os.FreshRegions) (teardowns : Nat)
    (requests : List StlRequest) (pool : Pool) :
    pool.KeepsStock (serveAll os teardowns requests pool).2 := by
  induction requests generalizing pool with
  | nil => exact .refl pool
  | cons request requests ih =>
      have hfirst := stlAllocate_keepsStock hos request pool
      simp only [serveAll]
      rcases hresult : stlAllocate os request pool with ⟨_ | ptr, after⟩
      · rw [hresult] at hfirst
        exact hfirst
      · rw [hresult] at hfirst
        exact hfirst.trans (ih after)

theorem Startup.Fallow.setPool (hfallow : s.Fallow) {pool : Pool}
    (hkeeps : s.pool.KeepsStock pool) : Startup.Fallow { s with pool := pool } := by
  obtain ⟨keys, hstocked, hkeys⟩ := hfallow.stocked
  obtain ⟨keys', hafter, hne⟩ := hkeeps keys hstocked
  exact ⟨⟨keys', hafter, fun hooks => hne (hkeys hooks)⟩, hfallow.down, hfallow.uninstalled⟩

theorem Startup.Fallow.serve (hos : os.FreshRegions) (hfallow : s.Fallow) (user : PoolUser)
    (requests : List StlRequest) : (s.serve os user requests).Fallow := by
  have hkeeps := serveAll_keepsStock hos s.teardowns requests s.pool
  rw [Startup.serve]
  rcases hserved : serveAll os s.teardowns requests s.pool with ⟨_ | pieces, pool⟩
  · rw [hserved] at hkeeps
    exact hfallow.setPool hkeeps
  · rw [hserved] at hkeeps
    have hset := hfallow.setPool hkeeps
    exact ⟨hset.stocked, hset.down, hset.uninstalled⟩

/-- The hooks are only ready once the map has been placed in the pool. -/
theorem Startup.Fallow.hooksInit (hos : env.os.FreshRegions) (hfallow : s.Fallow) :
    (s.hooksInit sizes env).2.Fallow := by
  rw [Startup.hooksInit]
  split
  · exact hfallow
  · split
    · exact hfallow
    · have hkeeps :=
        allocate_keepsStock hos sizes.sizeofAllocMap sizes.alignofAllocMap s.pool
      simp only [Startup.allocate]
      rcases hresult : Domovoy.allocate env.os sizes.sizeofAllocMap sizes.alignofAllocMap s.pool
        with ⟨_ | ptr, pool⟩
      · rw [hresult] at hkeeps
        have hset := hfallow.setPool hkeeps
        exact ⟨hset.stocked, hset.down, hset.uninstalled⟩
      · have hgrant : s.pool.grant env.os ⟨sizes.sizeofAllocMap, sizes.alignofAllocMap⟩ =
            some pool := by
          simp [Pool.grant, hresult]
        obtain ⟨keys, hstocked, -⟩ := hfallow.stocked
        obtain ⟨⟨keys', hafter, hne⟩, -⟩ := hstocked.grant hos hgrant
        exact ⟨⟨keys', hafter, fun _ => hne⟩, hfallow.down, hfallow.uninstalled⟩

theorem Startup.Fallow.ensureInit (hos : os.FreshRegions) (hfallow : s.Fallow) :
    (s.ensureInit os sizes).2.Fallow := by
  rw [Startup.ensureInit]
  split
  · exact hfallow
  · exact hfallow.hooksInit hos

theorem TeardownWorld.prior_fallow (hos : os.FreshRegions) {w next : TeardownWorld}
    {call : PriorCall} (hfallow : w.startup.Fallow)
    (hstep : w.prior os sizes call = some next) : next.startup.Fallow := by
  cases call with
  | hook call returned requests =>
      have hready : (w.startup.ensureInit os sizes).2.Fallow := hfallow.ensureInit hos
      simp only [prior, TeardownWorld.step] at hstep
      rcases hresult : w.startup.ensureInit os sizes with ⟨⟨⟨_⟩ | _⟩ | _, s⟩
      all_goals
        rw [hresult] at hstep hready
        simp only at hstep
      · obtain rfl := Option.some.inj hstep
        exact hready
      · cases hstep
      · split at hstep
        · obtain rfl := Option.some.inj hstep
          exact hready.serve hos .gAllocations requests
        · obtain rfl := Option.some.inj hstep
          exact hready
  | openFd call fd requests =>
      have hserved := hfallow.serve hos .openFds requests
      simp only [prior, TeardownWorld.step] at hstep
      split at hstep
      · split at hstep
        · obtain rfl := Option.some.inj hstep
          exact ⟨hserved.stocked, hserved.down, hserved.uninstalled⟩
        · obtain rfl := Option.some.inj hstep
          exact hserved
      · obtain rfl := Option.some.inj hstep
        exact hfallow
  | closeFd fd =>
      obtain rfl := Option.some.inj hstep
      exact ⟨hfallow.stocked, hfallow.down, hfallow.uninstalled⟩
  | allocate size alignment =>
      obtain rfl := Option.some.inj hstep
      exact hfallow.setPool (allocate_keepsStock hos size alignment w.startup.pool)

theorem TeardownWorld.initial_fallow (actions : CrashSignal → SigAction)
    (altStack : Option AltStack) (disk : Disk) :
    (TeardownWorld.initial actions altStack disk).startup.Fallow :=
  ⟨⟨[], Pool.stocked_initial, fun hooks => by cases hooks⟩, rfl, rfl⟩

theorem TeardownWorld.run_prior_fallow (hos : os.FreshRegions) {w last : TeardownWorld}
    {calls : List PriorCall} (hfallow : w.startup.Fallow)
    (hrun : run (TeardownWorld.prior os sizes) w calls = some last) : last.startup.Fallow :=
  run_invariant (fun _ _ _ hinv hstep => TeardownWorld.prior_fallow hos hinv hstep) hfallow hrun

end

/-- After any calls on the hooks and the pool, `Init` honours the capacity exactly if it is
at most what the list already has and what the other requests of `Init` add to it. -/
theorem capacity_honoured_iff (sizes : TypeSizes) (env : StartupEnv)
    (hos : env.os.FreshRegions) (actions : CrashSignal → SigAction)
    (altStack : Option AltStack) (disk : Disk) (calls : List PriorCall)
    (before : TeardownWorld)
    (hbefore : run (TeardownWorld.prior env.os sizes)
      (TeardownWorld.initial actions altStack disk) calls = some before)
    (hooked : Nat → List (List StlRequest)) (config : DomovoyConfig) (after : Startup)
    (hok : before.startup.initAmid sizes env hooked config = some after) :
    max config.allocatorCapacityBytes.toNat (2 * 1024 * 1024) ≤ after.pool.totalSize ↔
      config.allocatorCapacityBytes.toNat ≤ before.startup.pool.totalSize +
        before.startup.pool.growthOf env.os
          (initRequests sizes hooked config before.startup.hooksInitialized) := by
  have hfallow := TeardownWorld.run_prior_fallow hos
    (TeardownWorld.initial_fallow actions altStack disk) hbefore
  obtain ⟨hleast, htotal⟩ := hfallow.initAmid hos hok
  rw [← htotal, Nat.max_le]
  exact and_iff_left hleast

namespace CapacityWitness

def env : StartupEnv where
  os := MappingsWitness.scarceMmap
  spawns := true

/-- The capacity of the examples in the documentation. -/
def config : DomovoyConfig where
  allocatorCapacityBytes := 8 * 1024 * 1024

def init : Option Startup :=
  TeardownWitness.initial.startup.initAmid RetryWitness.sizes env (fun _ => []) config

/-- `Init` returns with one block on the list, which was mapped for the map of the
hooks. -/
theorem init_totalSize : init.map (fun s => s.pool.totalSize) = some (2 * 1024 * 1024) := by
  decide +kernel

theorem init_returns : ∃ after, init = some after ∧ after.pool.totalSize = 2 * 1024 * 1024 :=
  Option.map_eq_some_iff.mp init_totalSize

/-- The documented 8 MiB, asked for in the first call that the process makes. -/
theorem documented_capacity_ignored :
    ¬ ∀ (sizes : TypeSizes) (env : StartupEnv), env.os.FreshRegions →
      ∀ (actions : CrashSignal → SigAction) (altStack : Option AltStack) (disk : Disk)
        (calls : List PriorCall) (before : TeardownWorld),
        run (TeardownWorld.prior env.os sizes)
            (TeardownWorld.initial actions altStack disk) calls = some before →
          ∀ (hooked : Nat → List (List StlRequest)) (config : DomovoyConfig) (after : Startup),
            config.allocatorCapacityBytes.toNat ≤ 2 ^ 62 →
              before.startup.initAmid sizes env hooked config = some after →
                max config.allocatorCapacityBytes.toNat (2 * 1024 * 1024) ≤
                  after.pool.totalSize := by
  intro hhonoured
  obtain ⟨after, hinit, htotal⟩ := init_returns
  have hcapacity := hhonoured RetryWitness.sizes env MappingsWitness.scarceMmap_fresh _ _ _ []
    TeardownWitness.initial rfl (fun _ => []) config after (by decide) hinit
  rw [htotal] at hcapacity
  exact absurd hcapacity (by decide)

theorem documented_capacity_iff : ∃ after, init = some after ∧
    (max config.allocatorCapacityBytes.toNat (2 * 1024 * 1024) ≤ after.pool.totalSize ↔
      config.allocatorCapacityBytes.toNat ≤ TeardownWitness.initial.startup.pool.totalSize +
        TeardownWitness.initial.startup.pool.growthOf env.os
          (initRequests RetryWitness.sizes (fun _ => []) config false)) := by
  obtain ⟨after, hinit, -⟩ := init_returns
  exact ⟨after, hinit, capacity_honoured_iff RetryWitness.sizes env
    MappingsWitness.scarceMmap_fresh _ _ _ [] TeardownWitness.initial rfl (fun _ => []) config
    after hinit⟩

end CapacityWitness

end Domovoy
