/-
The structures that live in the isolated pool across teardowns of the pool: which blocks
their memory came from, and whether those are still mapped when the memory is used.
-/
import Domovoy.InitRetry
import Domovoy.IoSteps
import Domovoy.StartupMemory

namespace Domovoy

open WordAlign Transition

/-- The requests of a container, with the blocks that they are met from if all of them
are. -/
def serveAll (os : Mmap) (teardowns : Nat) :
    List StlRequest → Pool → Option (List PoolPiece) × Pool
  | [], pool => (some [], pool)
  | request :: requests, pool =>
      let block := pool.blockFor os (request.n * request.sizeofT) request.alignofT
      match stlAllocate os request pool with
      | (.ok _, pool) =>
          let (pieces, pool) := serveAll os teardowns requests pool
          (pieces.map fun pieces => ⟨teardowns, block⟩ :: pieces, pool)
      | (.error _, pool) => (none, pool)

/-- A container asks for memory; when a request is refused it is left as it was. -/
def Startup.serve (os : Mmap) (user : PoolUser) (requests : List StlRequest)
    (s : Startup) : Startup :=
  match serveAll os s.teardowns requests s.pool with
  | (some pieces, pool) =>
      { s with
        pool := pool
        memory := Function.update s.memory user (pieces ++ s.memory user) }
  | (none, pool) => { s with pool := pool }

/-- The blocks that have been unmapped, and which of the structures that outlive a
session had memory in the pool when it was shut down. -/
structure TeardownWorld where
  startup : Startup
  unmapped : List PoolPiece
  mapTorn : Bool
  fdsTorn : Bool

/-- `hooked` says that `Init` calls something of the C++ library that allocates, `returned`
is what the real function hands out, and `requests` is what a container asks for. -/
inductive LifecycleEvent where
  | init (spawns : Bool) (config : DomovoyConfig) (hooked : Bool)
  | shutdown (env : ShutdownEnv) (requests : List StlRequest)
  | poolShutdown
  | hook (call : HookCall) (returned : Word) (requests : List StlRequest)
  | openFd (call : IoCall) (fd : Int) (requests : List StlRequest)
  | closeFd (fd : Int)
  | scan (requests : List StlRequest)

/-- A hook records or drops a block. -/
def HookCall.records (returned : Word) : HookCall → Bool
  | .malloc _ => returned ≠ nullptr
  | .calloc _ _ => returned ≠ nullptr
  | .memalign _ _ => returned ≠ nullptr
  | .posixMemalign _ _ _ => returned ≠ nullptr
  | .free ptr => ptr ≠ nullptr
  | .realloc ptr _ => ptr ≠ nullptr || returned ≠ nullptr

/-- The structures in the pool that an event reads or writes. -/
def TeardownWorld.uses (w : TeardownWorld) : LifecycleEvent → List PoolUser
  | .init _ config hooked =>
      if !w.startup.process.core.initialized && hooked && config.enableLeakDetection then
        [.gAllocations]
      else []
  | .shutdown _ _ =>
      if w.startup.process.core.initialized then
        [.gAllocations, .reporter] ++
          (if w.startup.process.cpu.running then [.threadStates] else []) ++
            (if w.startup.process.io.enabled then [.openFds] else [])
      else []
  | .poolShutdown => []
  | .hook call returned _ =>
      if call.records returned && w.startup.process.core.config.enableLeakDetection then
        [.gAllocations]
      else []
  | .openFd _ fd _ => if w.startup.process.io.enabled && 0 ≤ fd then [.openFds] else []
  | .closeFd fd => if w.startup.process.io.enabled && 0 ≤ fd then [.openFds] else []
  | .scan _ => [.threadStates, .reporter]

/-- A hook calls `EnsureInit` as long as its real function has not been looked up. -/
def Startup.ensureInit (os : Mmap) (sizes : TypeSizes) (s : Startup) :
    Except InitStop Unit × Startup :=
  if s.hooksInitializing then (.ok (), s)
  else s.hooksInit sizes { os := os, spawns := true }

/-- The maps that a teardown of a session has emptied give their memory back. -/
def Startup.release (users : List PoolUser) (s : Startup) : Startup :=
  { s with memory := fun user => if user ∈ users then [] else s.memory user }

/-- One call, whether it returns or throws; `none` when it never ends, when the
application may not make it, or when there is no monitor thread to make it. -/
def TeardownWorld.step (os : Mmap) (sizes : TypeSizes) (w : TeardownWorld)
    (event : LifecycleEvent) : Option TeardownWorld :=
  let s := w.startup
  match event with
  | .init spawns config _ =>
      match s.init sizes { os := os, spawns := spawns } config with
      | (.error .waits, _) => none
      | (_, s) => some { w with startup := s }
  | .shutdown env requests =>
      if s.process.core.initialized then
        let stopped := if s.process.cpu.running then [PoolUser.threadStates] else []
        let disabled := if s.process.io.enabled then [PoolUser.openFds] else []
        let (reported, pool) := stlAllocateAll os requests s.pool
        match reported, { s with pool := pool }.shutdown env with
        | .ok (), (.ok (), after) =>
            some { w with
              startup := after.release (stopped ++ disabled ++ [.reporter])
              fdsTorn := w.fdsTorn && !s.process.io.enabled }
        | .ok (), (.error _, after) => some { w with startup := after.release stopped }
        | .error _, _ =>
            some { w with
              startup := { s with
                  pool := pool
                  process := s.process.quieted
                  monitorThread := s.monitorThread && !s.process.cpu.running }.release
                stopped }
      else some w
  | .poolShutdown =>
      if s.process.core.initialized then none
      else
        let calls := munmapCalls (s.pool.mapped.length + 1) s.pool.headBlock s.pool
        some {
          startup := { s with
            pool := (Domovoy.shutdown s.pool).2
            teardowns := s.teardowns + 1 }
          unmapped := calls.map (fun region => ⟨s.teardowns, region.base⟩) ++ w.unmapped
          mapTorn := w.mapTorn || !(s.memory .gAllocations).isEmpty
          fdsTorn := w.fdsTorn || !(s.memory .openFds).isEmpty }
  | .hook call returned requests =>
      match s.ensureInit os sizes with
      | (.error .waits, _) => none
      | (.error (.threw _), s) => some { w with startup := s }
      | (.ok (), s) =>
          if call.records returned && s.process.core.config.enableLeakDetection &&
              s.gAllocations.isSome then
            some { w with startup := s.serve os .gAllocations requests }
          else some { w with startup := s }
  | .openFd call fd requests =>
      if s.process.io.enabled && 0 ≤ fd then
        let served := s.serve os .openFds requests
        if (serveAll os s.teardowns requests s.pool).1.isSome then
          some { w with
            startup := { served with process.io := call.record fd s.process.io } }
        else some { w with startup := served }
      else some w
  | .closeFd fd =>
      some { w with startup := { s with process.io := s.process.io.onClose fd } }
  | .scan requests =>
      if s.monitorThread then some { w with startup := s.serve os .threadStates requests }
      else none

/-- The process before `main`, with any actions of the application on the signals. -/
def TeardownWorld.initial (actions : CrashSignal → SigAction)
    (altStack : Option AltStack) (disk : Disk) : TeardownWorld where
  startup :=
    { process := (Framework.initial actions altStack disk).process
      pool := Pool.initial
      hooksInitialized := false
      hooksInitializing := false
      gAllocations := none
      monitorThread := false
      teardowns := 0
      memory := fun _ => [] }
  unmapped := []
  mapTorn := false
  fdsTorn := false

/-- Whatever the event reads or writes in the pool is in blocks that are still mapped. -/
def TeardownWorld.Safe (w : TeardownWorld) (event : LifecycleEvent) : Prop :=
  ∀ user ∈ w.uses event, ∀ piece ∈ w.startup.memory user, piece ∉ w.unmapped

/-- The event uses neither the allocation map nor the map of descriptors once the pool
has been shut down under it. -/
def TeardownWorld.Spared (w : TeardownWorld) (event : LifecycleEvent) : Prop :=
  (.gAllocations ∈ w.uses event → w.mapTorn = false) ∧
    (.openFds ∈ w.uses event → w.fdsTorn = false)

section

variable {os : Mmap} {s : Startup}

/-- A container's requests are met from blocks that are mapped afterwards. -/
theorem serveAll_spec (hos : os.FreshRegions) (teardowns : Nat)
    (requests : List StlRequest) (pool : Pool) :
    pool.Extends (serveAll os teardowns requests pool).2 ∧
      ∀ pieces, (serveAll os teardowns requests pool).1 = some pieces →
        ∀ piece ∈ pieces, piece.teardowns = teardowns ∧
          (serveAll os teardowns requests pool).2.heap piece.block ≠ none := by
  induction requests generalizing pool with
  | nil =>
      refine ⟨.refl pool, ?_⟩
      intro pieces hpieces
      obtain rfl := Option.some.inj hpieces
      simp
  | cons request requests ih =>
      have hfirst := stlAllocate_extends hos request pool
      have hserved := (stlAllocate_kept os request pool).2
      simp only [serveAll]
      rcases hresult : stlAllocate os request pool with ⟨_ | ptr, after⟩
      · rw [hresult] at hfirst
        exact ⟨hfirst, nofun⟩
      · rw [hresult] at hfirst hserved
        obtain ⟨hrest, hpieces⟩ := ih after
        refine ⟨hfirst.trans hrest, ?_⟩
        simp only [Option.map_eq_some_iff]
        rintro _ ⟨pieces, hsome, rfl⟩
        refine List.forall_mem_cons.mpr ⟨⟨rfl, ?_⟩, hpieces pieces hsome⟩
        exact hrest.kept _ (hserved ptr rfl)

/-- A container that grows changes nothing but the pool and its own memory, which
becomes no older. -/
theorem Startup.serve_spec (hos : os.FreshRegions) (user : PoolUser)
    (requests : List StlRequest) (s : Startup) :
    ∃ pool pieces, s.pool.Extends pool ∧ (∀ piece ∈ pieces, s.Fresh pool piece) ∧
      s.serve os user requests = { s with
        pool := pool
        memory := Function.update s.memory user (pieces ++ s.memory user) } := by
  obtain ⟨hextends, hpieces⟩ := serveAll_spec hos s.teardowns requests s.pool
  rw [serve]
  rcases hresult : serveAll os s.teardowns requests s.pool with ⟨_ | pieces, pool⟩
  · rw [hresult] at hextends
    exact ⟨pool, [], hextends, by simp, by simp⟩
  · rw [hresult] at hextends hpieces
    exact ⟨pool, pieces, hextends, hpieces pieces rfl, rfl⟩

theorem Startup.old_update {pool : Pool} {pieces : List PoolPiece}
    (hfresh : ∀ piece ∈ pieces, s.Fresh pool piece) (grown user : PoolUser) :
    Startup.Old { s with
        pool := pool
        memory := Function.update s.memory grown (pieces ++ s.memory grown) } user ↔
      s.Old user := by
  by_cases huser : user = grown
  · subst huser
    simp only [Startup.Old, Function.update_self, List.mem_append]
    constructor
    · rintro ⟨piece, hnew | hpiece, hold⟩
      · rw [(hfresh piece hnew).1] at hold
        exact absurd hold (Nat.lt_irrefl _)
      · exact ⟨piece, hpiece, hold⟩
    · rintro ⟨piece, hpiece, hold⟩
      exact ⟨piece, Or.inr hpiece, hold⟩
  · simp only [Startup.Old, Function.update_of_ne huser]

/-- What holds between two events. -/
structure TeardownWorld.Inv (w : TeardownWorld) : Prop where
  accounted : ∃ keys, w.startup.pool.Accounted keys
  sits : ∀ user, ∀ piece ∈ w.startup.memory user, w.startup.Sits w.unmapped piece
  gone : ∀ piece ∈ w.unmapped, piece.teardowns < w.startup.teardowns
  hooks : w.startup.hooksInitialized = true → w.startup.hooksInitializing = true
  unbuilt : w.startup.hooksInitializing = false → w.startup.memory .gAllocations = []
  map : w.mapTorn = true ↔ w.startup.Old .gAllocations
  fds : w.fdsTorn = true ↔ w.startup.Old .openFds
  reporter : w.startup.process.core.initialized = true → ¬ w.startup.Old .reporter
  threads : ¬ w.startup.Old .threadStates
  idle : w.startup.monitorThread = false → w.startup.memory .threadStates = []
  running : w.startup.monitorThread = true → w.startup.process.cpu.running = true
  session : w.startup.monitorThread = true → w.startup.process.core.initialized = true

variable {env : StartupEnv} {sizes : TypeSizes} {config : DomovoyConfig}
  {w : TeardownWorld}

theorem TeardownWorld.initial_inv (actions : CrashSignal → SigAction)
    (altStack : Option AltStack) (disk : Disk) :
    (TeardownWorld.initial actions altStack disk).Inv where
  accounted := ⟨[], Pool.accounted_initial⟩
  sits := by simp [initial]
  gone := by simp [initial]
  hooks := nofun
  unbuilt := fun _ => rfl
  map := by simp [initial, Startup.Old]
  fds := by simp [initial, Startup.Old]
  reporter := nofun
  threads := by simp [initial, Startup.Old]
  idle := fun _ => rfl
  running := nofun
  session := nofun

/-- The memory of a structure is mapped exactly as long as none of it is from before the
last teardown. -/
theorem TeardownWorld.Inv.mapped_iff (hinv : w.Inv) (user : PoolUser) :
    (∀ piece ∈ w.startup.memory user, piece ∉ w.unmapped) ↔ ¬ w.startup.Old user := by
  constructor
  · rintro hmapped ⟨piece, hpiece, hold⟩
    rcases hinv.sits user piece hpiece with ⟨hcurrent, -⟩ | ⟨-, hgone⟩
    · omega
    · exact hmapped piece hpiece hgone
  · intro hyoung piece hpiece hunmapped
    exact hyoung ⟨piece, hpiece, hinv.gone piece hunmapped⟩

/-- The reporter is only used in a session. -/
theorem TeardownWorld.Inv.session_of_uses (hinv : w.Inv) {event : LifecycleEvent}
    (henabled : ∃ next, w.step os sizes event = some next)
    (huses : .reporter ∈ w.uses event) : w.startup.process.core.initialized = true := by
  cases event with
  | init spawns config hooked =>
      simp only [uses] at huses
      split at huses <;> simp at huses
  | shutdown env requests =>
      by_contra hdown
      simp [uses, hdown] at huses
  | poolShutdown => simp [uses] at huses
  | hook call returned requests =>
      simp only [uses] at huses
      split at huses <;> simp at huses
  | openFd call fd requests =>
      simp only [uses] at huses
      split at huses <;> simp at huses
  | closeFd fd =>
      simp only [uses] at huses
      split at huses <;> simp at huses
  | scan requests =>
      obtain ⟨next, hstep⟩ := henabled
      simp only [step, Option.ite_none_right_eq_some] at hstep
      exact hinv.session hstep.1

/-- The map of the threads and the reporter never dangle when they are used. -/
theorem TeardownWorld.Inv.safe_iff (hinv : w.Inv) {event : LifecycleEvent}
    (henabled : ∃ next, w.step os sizes event = some next) :
    w.Safe event ↔ w.Spared event := by
  have hreporter : .reporter ∈ w.uses event → ¬ w.startup.Old .reporter :=
    fun huses => hinv.reporter (hinv.session_of_uses henabled huses)
  have hmap : ¬ w.startup.Old .gAllocations ↔ w.mapTorn = false := by
    rw [← hinv.map, Bool.not_eq_true]
  have hfds : ¬ w.startup.Old .openFds ↔ w.fdsTorn = false := by
    rw [← hinv.fds, Bool.not_eq_true]
  simp only [Safe, Spared, hinv.mapped_iff]
  constructor
  · intro hsafe
    exact ⟨fun huses => hmap.mp (hsafe _ huses), fun huses => hfds.mp (hsafe _ huses)⟩
  · rintro ⟨hspareMap, hspareFds⟩ user huses
    cases user with
    | gAllocations => exact hmap.mpr (hspareMap huses)
    | openFds => exact hfds.mpr (hspareFds huses)
    | threadStates => exact hinv.threads
    | reporter => exact hreporter huses

theorem TeardownWorld.Inv.kept (hinv : w.Inv) :
    w.startup.Kept w.unmapped w.startup :=
  ⟨hinv.accounted, rfl, hinv.sits, hinv.hooks, hinv.unbuilt, Iff.rfl, rfl, rfl,
    hinv.running⟩

/-- The invariant after a call that keeps what the calls in `Init` keep. -/
theorem TeardownWorld.Inv.of_kept (hinv : w.Inv) {s : Startup}
    (hkept : s.Kept w.unmapped w.startup)
    (hreporter : s.process.core.initialized = true → ¬ s.Old .reporter)
    (hidle : s.monitorThread = false → w.startup.monitorThread = false)
    (hsession : s.monitorThread = true → s.process.core.initialized = true) :
    TeardownWorld.Inv { w with startup := s } where
  accounted := hkept.accounted
  sits := hkept.sits
  gone := by
    intro piece hpiece
    rw [hkept.teardowns]
    exact hinv.gone piece hpiece
  hooks := hkept.hooks
  unbuilt := hkept.unbuilt
  map := hinv.map.trans hkept.map.symm
  fds := by
    rw [Startup.Old, hkept.fds, hkept.teardowns]
    exact hinv.fds
  reporter := hreporter
  threads := by
    rw [Startup.Old, hkept.threads, hkept.teardowns]
    exact hinv.threads
  idle := by
    intro hstopped
    rw [hkept.threads]
    exact hinv.idle (hidle hstopped)
  running := hkept.thread
  session := hsession

theorem TeardownWorld.Inv.serve (hos : os.FreshRegions) (hinv : w.Inv) (user : PoolUser)
    (requests : List StlRequest)
    (hmap : user = .gAllocations → w.startup.hooksInitializing = true)
    (hthreads : user = .threadStates → w.startup.monitorThread = true) :
    TeardownWorld.Inv { w with startup := w.startup.serve os user requests } := by
  obtain ⟨pool, pieces, hextends, hfresh, hserved⟩ :=
    w.startup.serve_spec hos user requests
  have hold := Startup.old_update hfresh user
  rw [hserved]
  refine ⟨hextends.accounted hinv.accounted, ?_, hinv.gone, hinv.hooks, ?_,
    hinv.map.trans (hold _).symm, hinv.fds.trans (hold _).symm,
    fun hup hreporter => hinv.reporter hup ((hold _).mp hreporter),
    fun hthreads => hinv.threads ((hold _).mp hthreads), ?_, hinv.running, hinv.session⟩
  · intro other piece hpiece
    by_cases hother : other = user
    · subst hother
      simp only [Function.update_self, List.mem_append] at hpiece
      rcases hpiece with hpiece | hpiece
      · exact Or.inl (hfresh piece hpiece)
      · exact (hinv.sits other piece hpiece).setPool hextends
    · simp only [Function.update_of_ne hother] at hpiece
      exact (hinv.sits other piece hpiece).setPool hextends
  · intro hidle
    have huser : .gAllocations ≠ user := by
      rintro rfl
      rw [hmap rfl] at hidle
      contradiction
    simp only [Function.update_of_ne huser]
    exact hinv.unbuilt hidle
  · intro hstopped
    have huser : .threadStates ≠ user := by
      rintro rfl
      rw [hthreads rfl] at hstopped
      contradiction
    simp only [Function.update_of_ne huser]
    exact hinv.idle hstopped

/-- The flag of a structure after the pool has been shut down: it has memory, all of
which is from before. -/
theorem Startup.torn_iff {torn : Bool} {user : PoolUser}
    (hsits : ∀ piece ∈ s.memory user, s.Sits unmapped piece)
    (htorn : torn = true ↔ s.Old user) :
    (torn || !(s.memory user).isEmpty) = true ↔
      ∃ piece ∈ s.memory user, piece.teardowns < s.teardowns + 1 := by
  rw [Bool.or_eq_true, htorn, Bool.not_eq_true', List.isEmpty_eq_false_iff_exists_mem]
  constructor
  · rintro (⟨piece, hpiece, hold⟩ | ⟨piece, hpiece⟩)
    · exact ⟨piece, hpiece, Nat.lt_succ_of_lt hold⟩
    · refine ⟨piece, hpiece, ?_⟩
      rcases hsits piece hpiece with ⟨hcurrent, -⟩ | ⟨hold, -⟩
      · omega
      · omega
  · rintro ⟨piece, hpiece, -⟩
    exact Or.inr ⟨piece, hpiece⟩

/-- A teardown of the pool unmaps every block that the structures' memory came from. -/
theorem TeardownWorld.Inv.poolShutdown (hinv : w.Inv) {next : TeardownWorld}
    (hstep : w.step os sizes .poolShutdown = some next) : next.Inv := by
  simp only [step] at hstep
  split at hstep
  · cases hstep
  next hdown =>
    obtain rfl := Option.some.inj hstep
    obtain ⟨keys, hkeys⟩ := hinv.accounted
    obtain ⟨hshutdown, hcalls⟩ := hkeys.shutdown
    have hstopped : w.startup.monitorThread = false := by
      cases hthread : w.startup.monitorThread with
      | false => rfl
      | true => exact absurd (hinv.session hthread) hdown
    have hunmapped : ∀ address, w.startup.pool.heap address ≠ none →
        ∃ region ∈ munmapCalls (w.startup.pool.mapped.length + 1)
          w.startup.pool.headBlock w.startup.pool, region.base = address := by
      intro address hmapped
      obtain ⟨block, hblock⟩ := Option.ne_none_iff_exists'.mp hmapped
      refine ⟨w.startup.pool.regionAt address, ?_, by simp⟩
      rw [hcalls.mem_iff, ← hkeys.regions.mem_iff]
      exact List.mem_map_of_mem (hkeys.complete address block hblock)
    refine ⟨⟨[], ?_⟩, ?_, ?_, hinv.hooks, hinv.unbuilt, ?_, ?_, ?_, ?_, ?_, hinv.running,
      ?_⟩
    · rw [hshutdown]
      exact Pool.accounted_initial.setMmapCalls _
    · intro user piece hpiece
      refine Or.inr ?_
      rw [List.mem_append, List.mem_map]
      rcases hinv.sits user piece hpiece with ⟨hcurrent, hmapped⟩ | ⟨hold, hgone⟩
      · obtain ⟨region, hregion, hbase⟩ := hunmapped _ hmapped
        refine ⟨Nat.lt_succ_of_le (Nat.le_of_eq hcurrent), Or.inl ⟨region, hregion, ?_⟩⟩
        rw [hbase, ← hcurrent]
      · exact ⟨Nat.lt_succ_of_lt hold, Or.inr hgone⟩
    · intro piece hpiece
      rcases List.mem_append.mp hpiece with hpiece | hpiece
      · obtain ⟨region, -, rfl⟩ := List.mem_map.mp hpiece
        exact Nat.lt_succ_self _
      · exact Nat.lt_succ_of_lt (hinv.gone piece hpiece)
    · exact Startup.torn_iff (hinv.sits _) hinv.map
    · exact Startup.torn_iff (hinv.sits _) hinv.fds
    · intro hup
      exact absurd hup hdown
    · rintro ⟨piece, hpiece, -⟩
      rw [show _ = [] from hinv.idle hstopped] at hpiece
      exact List.not_mem_nil hpiece
    · exact hinv.idle
    · exact hinv.session

theorem TeardownWorld.Inv.init (hos : os.FreshRegions) (hinv : w.Inv) {spawns hooked : Bool}
    {next : TeardownWorld}
    (hstep : w.step os sizes (.init spawns config hooked) = some next) : next.Inv := by
  have hkept : (w.startup.init sizes { os := os, spawns := spawns } config).2.Kept _ _ :=
    hinv.kept.init hos
  simp only [step] at hstep
  cases hup : w.startup.process.core.initialized with
  | true =>
      rw [Startup.init, if_pos hup] at hstep
      obtain rfl := Option.some.inj hstep
      exact hinv
  | false =>
      have hstopped : w.startup.monitorThread = false := by
        cases hthread : w.startup.monitorThread with
        | false => rfl
        | true =>
            rw [hinv.session hthread] at hup
            contradiction
      rcases hresult : w.startup.init sizes { os := os, spawns := spawns } config with
        ⟨stop | ⟨⟨⟩⟩, s⟩
      · rw [hresult] at hstep hkept
        have hidle : s.Idle := Startup.init_error_idle hos ⟨hup, hstopped⟩ hresult
        cases stop with
        | waits => cases hstep
        | threw call =>
            obtain rfl := Option.some.inj hstep
            refine hinv.of_kept hkept (fun hup' => ?_) (fun _ => hstopped) (fun hthread => ?_)
            · rw [hidle.1] at hup'
              contradiction
            · rw [hidle.2] at hthread
              contradiction
      · rw [hresult] at hstep hkept
        obtain rfl := Option.some.inj hstep
        have hactive := (Startup.init_ok hup hresult).1
        have hsession : s.process.core.initialized = true := by
          obtain ⟨memory, hprocess⟩ := hactive
          rw [hprocess, (Process.init_asked _ hup config memory sizes.sigstksz).1]
        exact hinv.of_kept hkept (fun _ => Startup.init_ok_reporter hos hup hresult)
          (fun _ => hstopped) (fun _ => hsession)

theorem Startup.hooksInit_frame (env : StartupEnv) (sizes : TypeSizes) (s : Startup) :
    (s.hooksInit sizes env).2.process = s.process ∧
      (s.hooksInit sizes env).2.monitorThread = s.monitorThread ∧
        (s.hooksInit sizes env).2.teardowns = s.teardowns ∧
          (s.hooksInit sizes env).2.memory .reporter = s.memory .reporter := by
  rw [Startup.hooksInit]
  split
  · exact ⟨rfl, rfl, rfl, rfl⟩
  · split
    · exact ⟨rfl, rfl, rfl, rfl⟩
    · obtain ⟨pool, ⟨value, hresult⟩ | hresult⟩ := Startup.allocate_poolOnly env
        .allocationMap sizes.sizeofAllocMap sizes.alignofAllocMap
        { s with hooksInitializing := true }
      · simp only [hresult, true_and]
        rfl
      · simp only [hresult, and_self]

theorem Startup.ensureInit_ok {after : Startup}
    (hdone : s.hooksInitialized = true → s.hooksInitializing = true)
    (hok : s.ensureInit os sizes = (.ok (), after)) : after.hooksInitializing = true := by
  rw [Startup.ensureInit] at hok
  split at hok
  next hbusy =>
    obtain rfl := (Prod.mk.inj hok).2
    exact hbusy
  next hidle =>
    rw [Startup.hooksInit] at hok
    split at hok
    next hinitialized => exact absurd (hdone hinitialized) hidle
    next =>
      obtain ⟨pool, ⟨value, hresult⟩ | hresult⟩ := Startup.allocate_poolOnly
        { os := os, spawns := true } .allocationMap sizes.sizeofAllocMap
        sizes.alignofAllocMap { s with hooksInitializing := true }
      · simp only [hresult] at hok
        obtain rfl := (Prod.mk.inj hok).2
        rfl
      · simp only [hresult] at hok
        cases hok

theorem TeardownWorld.Inv.ensureInit (hos : os.FreshRegions) (hinv : w.Inv) :
    TeardownWorld.Inv { w with startup := (w.startup.ensureInit os sizes).2 } := by
  rw [Startup.ensureInit]
  split
  · exact hinv
  · have hkept : (w.startup.hooksInit sizes { os := os, spawns := true }).2.Kept _ _ :=
      hinv.kept.hooksInit hos
    obtain ⟨hprocess, hthread, hteardowns, hmemory⟩ :=
      w.startup.hooksInit_frame { os := os, spawns := true } sizes
    apply hinv.of_kept hkept
    · rw [hprocess, Startup.Old, hmemory, hteardowns]
      exact hinv.reporter
    · rw [hthread]
      exact id
    · rw [hthread, hprocess]
      exact hinv.session

theorem TeardownWorld.Inv.hook (hos : os.FreshRegions) (hinv : w.Inv) {call : HookCall}
    {returned : Word} {requests : List StlRequest} {next : TeardownWorld}
    (hstep : w.step os sizes (.hook call returned requests) = some next) : next.Inv := by
  have hensured : TeardownWorld.Inv
      { w with startup := (w.startup.ensureInit os sizes).2 } := hinv.ensureInit hos
  simp only [step] at hstep
  rcases hresult : w.startup.ensureInit os sizes with ⟨stop | ⟨⟨⟩⟩, s⟩
  · rw [hresult] at hstep hensured
    cases stop with
    | waits => cases hstep
    | threw _ =>
        obtain rfl := Option.some.inj hstep
        exact hensured
  · rw [hresult] at hstep hensured
    have hhooks := Startup.ensureInit_ok hinv.hooks hresult
    simp only at hstep
    split at hstep
    · obtain rfl := Option.some.inj hstep
      exact hensured.serve hos .gAllocations requests (fun _ => hhooks) nofun
    · obtain rfl := Option.some.inj hstep
      exact hensured

/-- Other values of what the structures do not depend on. -/
theorem TeardownWorld.Inv.setIo (hinv : w.Inv) (io : IoMonitor) :
    TeardownWorld.Inv { w with startup := { w.startup with process.io := io } } :=
  ⟨hinv.accounted, hinv.sits, hinv.gone, hinv.hooks, hinv.unbuilt, hinv.map, hinv.fds,
    hinv.reporter, hinv.threads, hinv.idle, hinv.running, hinv.session⟩

/-- The end of a session, however far its teardown gets. -/
theorem TeardownWorld.Inv.release (hinv : w.Inv)
    (hup : w.startup.process.core.initialized = true) {pool : Pool}
    (hextends : w.startup.pool.Extends pool) (process : Process) {users : List PoolUser}
    {fdsTorn : Bool} (hmap : .gAllocations ∉ users)
    (hthreads : w.startup.monitorThread = true → .threadStates ∈ users)
    (hfds : fdsTorn = true ↔ .openFds ∉ users ∧ w.fdsTorn = true) :
    TeardownWorld.Inv { w with
      startup := { w.startup with
        pool := pool, process := process, monitorThread := false }.release users
      fdsTorn := fdsTorn } := by
  have hmemory : ∀ user piece, piece ∈ (if user ∈ users then []
      else w.startup.memory user) → user ∉ users ∧ piece ∈ w.startup.memory user := by
    intro user piece hpiece
    by_cases huser : user ∈ users
    · simp [huser] at hpiece
    · rw [if_neg huser] at hpiece
      exact ⟨huser, hpiece⟩
  refine ⟨hextends.accounted hinv.accounted, ?_, hinv.gone, hinv.hooks, ?_, ?_, ?_, ?_, ?_,
    ?_, nofun, nofun⟩
  · intro user piece hpiece
    exact (hinv.sits user piece (hmemory user piece hpiece).2).setPool hextends
  · intro hidle
    exact (if_neg hmap).trans (hinv.unbuilt hidle)
  · rw [hinv.map, Startup.Old, Startup.Old]
    simp only [Startup.release, if_neg hmap]
  · rw [hfds, hinv.fds]
    simp only [Startup.Old, Startup.release]
    by_cases huser : .openFds ∈ users
    · simp [huser]
    · simp [huser]
  · rintro - ⟨piece, hpiece, hold⟩
    exact hinv.reporter hup ⟨piece, (hmemory _ piece hpiece).2, hold⟩
  · rintro ⟨piece, hpiece, hold⟩
    exact hinv.threads ⟨piece, (hmemory _ piece hpiece).2, hold⟩
  · intro _
    change (if PoolUser.threadStates ∈ users then [] else _) = _
    by_cases huser : .threadStates ∈ users
    · rw [if_pos huser]
    · rw [if_neg huser]
      apply hinv.idle
      cases hthread : w.startup.monitorThread with
      | false => rfl
      | true => exact absurd (hthreads hthread) huser

/-- `Stop` has joined the monitor's thread, if there was one. -/
theorem Startup.shutdown_joins (env : ShutdownEnv)
    (hjoins : (s.monitorThread && !(s.process.core.initialized && s.process.cpu.running)) =
      false) :
    s.shutdown env = ((s.process.shutdown env).1,
      { s with process := (s.process.shutdown env).2, monitorThread := false }) := by
  simp only [Startup.shutdown, hjoins]

theorem TeardownWorld.Inv.shutdown (hos : os.FreshRegions) (hinv : w.Inv)
    {env : ShutdownEnv} {requests : List StlRequest} {next : TeardownWorld}
    (hstep : w.step os sizes (.shutdown env requests) = some next) : next.Inv := by
  cases hup : w.startup.process.core.initialized with
  | false =>
      simp only [step, hup, Bool.false_eq_true, if_false] at hstep
      obtain rfl := Option.some.inj hstep
      exact hinv
  | true =>
      have hextends := stlAllocateAll_extends hos requests w.startup.pool
      have hjoins : (w.startup.monitorThread && !w.startup.process.cpu.running) = false := by
        cases hthread : w.startup.monitorThread with
        | false => rfl
        | true => simp [hinv.running hthread]
      have hthreads : w.startup.monitorThread = true → PoolUser.threadStates ∈
          (if w.startup.process.cpu.running then [PoolUser.threadStates] else []) := by
        intro hthread
        simp [hinv.running hthread]
      simp only [step, hup, if_true] at hstep
      rcases hreported : stlAllocateAll os requests w.startup.pool with ⟨error | ⟨⟨⟩⟩, pool⟩
      · rw [hreported] at hextends hstep
        simp only [hjoins] at hstep
        obtain rfl := Option.some.inj hstep
        refine hinv.release hup hextends _ ?_ hthreads ?_
        · split <;> simp
        · split <;> simp
      · rw [hreported] at hextends hstep
        simp only at hstep
        rw [Startup.shutdown_joins env (by simpa [hup] using hjoins)] at hstep
        rcases hshutdown : w.startup.process.shutdown env with ⟨thrown | ⟨⟨⟩⟩, process⟩
        · simp only [hshutdown] at hstep
          obtain rfl := Option.some.inj hstep
          refine hinv.release hup hextends _ ?_ hthreads ?_
          · split <;> simp
          · split <;> simp
        · simp only [hshutdown] at hstep
          obtain rfl := Option.some.inj hstep
          refine hinv.release hup hextends _ ?_ ?_ ?_
          · split <;> split <;> simp
          · intro hthread
            simp [hthreads hthread]
          · cases w.startup.process.io.enabled <;> split <;> simp

/-- Every step preserves the invariant. -/
theorem TeardownWorld.step_inv (hos : os.FreshRegions) (hinv : w.Inv)
    {event : LifecycleEvent} {next : TeardownWorld}
    (hstep : w.step os sizes event = some next) : next.Inv := by
  cases event with
  | init spawns config hooked => exact hinv.init hos hstep
  | shutdown env requests => exact hinv.shutdown hos hstep
  | poolShutdown => exact hinv.poolShutdown hstep
  | hook call returned requests => exact hinv.hook hos hstep
  | openFd call fd requests =>
      have hserved := hinv.serve hos .openFds requests nofun nofun
      simp only [step] at hstep
      split at hstep
      · split at hstep
        · obtain rfl := Option.some.inj hstep
          obtain ⟨pool, pieces, -, -, hresult⟩ :=
            w.startup.serve_spec hos .openFds requests
          rw [hresult] at hserved ⊢
          exact hserved.setIo _
        · obtain rfl := Option.some.inj hstep
          exact hserved
      · obtain rfl := Option.some.inj hstep
        exact hinv
  | closeFd fd =>
      obtain rfl := Option.some.inj hstep
      exact hinv.setIo _
  | scan requests =>
      simp only [step, Option.ite_none_right_eq_some] at hstep
      obtain ⟨hthread, hstep⟩ := hstep
      obtain rfl := Option.some.inj hstep
      exact hinv.serve hos .threadStates requests nofun (fun _ => hthread)

/-- In every run of the calls, whatever an event reads or writes in the pool is still
mapped if and only if none of them uses the allocation map or the map of descriptors
once the pool has been shut down under it. -/
theorem structures_mapped_iff (hos : os.FreshRegions) (sizes : TypeSizes)
    (actions : CrashSignal → SigAction) (altStack : Option AltStack) (disk : Disk)
    {events : List LifecycleEvent} {final : TeardownWorld}
    (hrun : run (TeardownWorld.step os sizes)
      (TeardownWorld.initial actions altStack disk) events = some final) :
    Along (TeardownWorld.step os sizes) TeardownWorld.Safe
        (TeardownWorld.initial actions altStack disk) events ↔
      Along (TeardownWorld.step os sizes) TeardownWorld.Spared
        (TeardownWorld.initial actions altStack disk) events :=
  along_congr TeardownWorld.Inv
    (fun _ _ _ hinv _ hstep => TeardownWorld.step_inv hos hinv hstep)
    (fun _ _ hinv henabled => hinv.safe_iff henabled)
    (TeardownWorld.initial_inv actions altStack disk) (along_enabled hrun)

end

namespace TeardownWitness

/-- Every signal of the application is at its default. -/
def defaultAction : SigAction where
  handler := .sigDfl
  flags := 0
  mask := 0

def initial : TeardownWorld :=
  TeardownWorld.initial (fun _ => defaultAction) none { writable := true, files := ∅ }

def leaks : DomovoyConfig where
  enableLeakDetection := true
  enableCrashHandler := true

def monitors : DomovoyConfig where
  enableIoMonitoring := true
  enableCpuProfiler := true

def ending : ShutdownEnv where
  leakReport := none
  leaksMs := 0
  ioLeakMs := 0

def step : TeardownWorld → LifecycleEvent → Option TeardownWorld :=
  TeardownWorld.step MappingsWitness.scarceMmap RetryWitness.sizes

/-- A session with leak detection, a teardown of the pool, and a session without, whose
first `Init` gets no memory. -/
def events : List LifecycleEvent :=
  [.init true leaks false, .hook (.malloc 24) 0x1000 [⟨1, 40, 8⟩], .shutdown ending [],
    .poolShutdown, .init true monitors true, .init true monitors true,
    .hook (.malloc 8) 0x2000 [], .scan [⟨1, 40, 8⟩],
    .openFd (.socket 0 0 0) 3 [⟨1, 40, 8⟩], .closeFd 3, .shutdown ending []]

theorem events_mapped_iff :
    Along step TeardownWorld.Safe initial events ↔
      Along step TeardownWorld.Spared initial events := by
  have hruns : (run step initial events).isSome = true := by decide +kernel
  obtain ⟨final, hrun⟩ := Option.isSome_iff_exists.mp hruns
  exact structures_mapped_iff MappingsWitness.scarceMmap_fresh RetryWitness.sizes _ _ _ hrun

/-- A session with leak detection, a teardown of the pool, and another such session. -/
def twoSessions : List LifecycleEvent :=
  [.init true leaks false, .shutdown ending [], .poolShutdown, .init true leaks false]

def grantingStep : TeardownWorld → LifecycleEvent → Option TeardownWorld :=
  TeardownWorld.step PoolWitness.strideMmap RetryWitness.sizes

/-- The second session's first `malloc` writes to a map that has been unmapped. -/
theorem twoSessions_unmapped : ∃ w, run grantingStep initial twoSessions = some w ∧
    (∃ next, grantingStep w (.hook (.malloc 8) 0x1000 []) = some next) ∧
      ¬ w.Safe (.hook (.malloc 8) 0x1000 []) := by
  have hdangles : (run grantingStep initial twoSessions).any (fun w =>
      (grantingStep w (.hook (.malloc 8) 0x1000 [])).isSome &&
        (w.uses (.hook (.malloc 8) 0x1000 [])).contains .gAllocations &&
          (w.startup.memory .gAllocations).any (· ∈ w.unmapped)) = true := by
    decide +kernel
  obtain ⟨w, hrun, hw⟩ := (Option.any_eq_true _ _).mp hdangles
  rw [Bool.and_eq_true, Bool.and_eq_true, Option.isSome_iff_exists,
    List.contains_iff_mem, List.any_eq_true] at hw
  obtain ⟨⟨hnext, huses⟩, piece, hpiece, hunmapped⟩ := hw
  refine ⟨w, hrun, hnext, fun hsafe => ?_⟩
  exact hsafe _ huses piece hpiece (of_decide_eq_true hunmapped)

end TeardownWitness

end Domovoy
