/-
The IO hooks under any number of threads.  An opening call is the real call and
then the critical section that records its descriptor; `close` is the critical
section that erases the record and then the real call.
-/
import Domovoy.IoMonitor
import Domovoy.Registry

namespace Domovoy

open Transition

/-- The hooked calls that return a new descriptor. -/
inductive IoCall where
  | open (path : Option CString)
  | open64 (path : Option CString)
  | openat (dirfd : Int) (path : Option CString)
  | openat64 (dirfd : Int) (path : Option CString)
  | socket (domain type protocol : Int)
deriving DecidableEq

/-- What the hook does with a descriptor that is not negative. -/
def IoCall.record (call : IoCall) (fd : Int) (monitor : IoMonitor) : IoMonitor :=
  match call with
  | .open path => monitor.onOpen fd path
  | .open64 path => monitor.onOpen fd path
  | .openat _ path => monitor.onOpen fd path
  | .openat64 _ path => monitor.onOpen fd path
  | .socket _ _ _ => monitor.onSocket fd

/-- Where a thread stands in its hook call. -/
inductive IoPc where
  | idle
  /-- The real opening call is next. -/
  | calling (call : IoCall)
  /-- `OnOpen` or `OnSocket` is next, then the hook returns `fd`. -/
  | recording (fd : Int) (call : IoCall)
  /-- `OnClose(fd)` is next. -/
  | erasing (fd : Int)
  /-- The real `close(fd)` is next. -/
  | closing (fd : Int)
deriving DecidableEq

inductive IoMove where
  | call (call : IoCall)
  | close (fd : Int)
  | kernel (answer : Option Int)
  | monitor
deriving DecidableEq

structure IoStep (Tid : Type) where
  thread : Tid
  move : IoMove

/-- The monitor, the open descriptors with the calls that returned them, the
descriptors the application holds from completed calls, and the position of every
thread. -/
structure IoState (Tid : Type) where
  monitor : IoMonitor
  openBy : Int → Option IoCall
  owned : Int → Bool
  pc : Tid → IoPc

/-- A session has just been enabled. -/
def IoState.initial (Tid : Type) : IoState Tid where
  monitor := IoMonitor.initial.enable
  openBy := fun _ => none
  owned := fun _ => false
  pc := fun _ => .idle

variable {Tid : Type} [DecidableEq Tid]

/-- One atomic step.  A real opening call fails, or returns a descriptor that is
not open. -/
def IoState.step (s : IoState Tid) (label : IoStep Tid) : Option (IoState Tid) :=
  let setPc := Function.update s.pc label.thread
  match label.move, s.pc label.thread with
  | .call call, .idle => some { s with pc := setPc (.calling call) }
  | .close fd, .idle =>
      if s.owned fd then
        some { s with
          owned := Function.update s.owned fd false
          pc := setPc (.erasing fd) }
      else none
  | .kernel none, .calling _ => some { s with pc := setPc .idle }
  | .kernel (some fd), .calling call =>
      if 0 ≤ fd ∧ s.openBy fd = none then
        some { s with
          openBy := Function.update s.openBy fd (some call)
          pc := setPc (.recording fd call) }
      else none
  | .monitor, .recording fd call =>
      some { s with
        monitor := call.record fd s.monitor
        owned := Function.update s.owned fd true
        pc := setPc .idle }
  | .monitor, .erasing fd =>
      some { s with monitor := s.monitor.onClose fd, pc := setPc (.closing fd) }
  | .kernel _, .closing fd =>
      some { s with
        openBy := Function.update s.openBy fd none
        pc := setPc .idle }
  | _, _ => none

/-- What the monitor keeps of a call. -/
def IoCall.info : IoCall → FdInfo
  | .open path => .ofPath path
  | .open64 path => .ofPath path
  | .openat _ path => .ofPath path
  | .openat64 _ path => .ofPath path
  | .socket _ _ _ => .ofSocket

def IoState.recorded (s : IoState Tid) (fd : Int) : Option FdInfo :=
  s.monitor.openFds.lookup fd

/-- What a position means for the registry of descriptors. -/
def IoPc.phase : IoPc → Registry.Phase Int FdInfo
  | .idle => .idle
  | .calling _ => .idle
  | .recording fd call => .acquired fd call.info
  | .erasing fd => .retiring fd
  | .closing fd => .unregistered fd

def IoState.registry (s : IoState Tid) : Registry.State Tid Int FdInfo where
  live := fun fd => (s.openBy fd).map IoCall.info
  table := s.recorded
  owned := s.owned
  phase := fun t => (s.pc t).phase

/-- The descriptor that the hook is about to pass to the monitor. -/
def IoPc.passes : IoPc → Option Int
  | .recording fd _ => some fd
  | .erasing fd => some fd
  | _ => none

/-- The monitor stays enabled, and no hook passes it a negative descriptor. -/
structure IoState.Monitoring (s : IoState Tid) : Prop where
  enabled : s.monitor.enabled = true
  owned_nonneg : ∀ fd, s.owned fd = true → 0 ≤ fd
  passes_nonneg : ∀ t fd, (s.pc t).passes = some fd → 0 ≤ fd

theorem IoCall.record_of_enabled {monitor : IoMonitor} (henabled : monitor.enabled = true)
    {fd : Int} (hfd : 0 ≤ fd) (call : IoCall) :
    call.record fd monitor =
      { monitor with openFds := monitor.openFds.insert fd call.info } := by
  have hguard : ¬ (monitor.enabled = false ∨ fd < 0) := by
    simp [henabled, hfd]
  cases call <;>
    simp only [record, IoMonitor.onOpen, IoMonitor.onSocket, if_neg hguard, info]

theorem IoMonitor.onClose_of_enabled {monitor : IoMonitor}
    (henabled : monitor.enabled = true) {fd : Int} (hfd : 0 ≤ fd) :
    monitor.onClose fd = { monitor with openFds := monitor.openFds.erase fd } := by
  have hguard : ¬ (monitor.enabled = false ∨ fd < 0) := by
    simp [henabled, hfd]
  rw [onClose, if_neg hguard]

variable {s s' : IoState Tid} {t : Tid}

omit [DecidableEq Tid] in
theorem IoState.initial_monitoring : (IoState.initial Tid).Monitoring where
  enabled := rfl
  owned_nonneg := by simp [initial]
  passes_nonneg := by simp [initial, IoPc.passes]

/-- Moving one thread on, for the part of the invariant that is about positions. -/
theorem IoState.passes_update (hmonitoring : s.Monitoring) {pc : IoPc}
    (hpc : ∀ fd, pc.passes = some fd → 0 ≤ fd) :
    ∀ t' fd, (Function.update s.pc t pc t').passes = some fd → 0 ≤ fd := by
  intro t' fd hpasses
  by_cases ht : t' = t
  · subst t'
    rw [Function.update_self] at hpasses
    exact hpc fd hpasses
  · rw [Function.update_of_ne ht] at hpasses
    exact hmonitoring.passes_nonneg t' fd hpasses

theorem IoState.step_monitoring {label : IoStep Tid} (hmonitoring : s.Monitoring)
    (hstep : s.step label = some s') : s'.Monitoring := by
  rcases label with ⟨t, move⟩
  simp only [step] at hstep
  split at hstep
  case h_1 call hpc =>
    obtain rfl := Option.some.inj hstep
    exact ⟨hmonitoring.enabled, hmonitoring.owned_nonneg,
      passes_update hmonitoring (by simp [IoPc.passes])⟩
  case h_2 fd hpc =>
    obtain ⟨howned, hafter⟩ := Option.ite_none_right_eq_some.mp hstep
    obtain rfl := Option.some.inj hafter
    refine ⟨hmonitoring.enabled, ?_, passes_update hmonitoring ?_⟩
    · intro fd' howned'
      by_cases hfd : fd' = fd
      · simp [hfd] at howned'
      · simp only [Function.update_of_ne hfd] at howned'
        exact hmonitoring.owned_nonneg fd' howned'
    · rintro fd' ⟨rfl⟩
      exact hmonitoring.owned_nonneg fd howned
  case h_3 call hpc =>
    obtain rfl := Option.some.inj hstep
    exact ⟨hmonitoring.enabled, hmonitoring.owned_nonneg,
      passes_update hmonitoring (by simp [IoPc.passes])⟩
  case h_4 fd call hpc =>
    obtain ⟨hfd, hafter⟩ := Option.ite_none_right_eq_some.mp hstep
    obtain rfl := Option.some.inj hafter
    refine ⟨hmonitoring.enabled, hmonitoring.owned_nonneg, passes_update hmonitoring ?_⟩
    rintro fd' ⟨rfl⟩
    exact hfd.1
  case h_5 fd call hpc =>
    obtain rfl := Option.some.inj hstep
    have hfd : 0 ≤ fd := hmonitoring.passes_nonneg t fd (by rw [hpc, IoPc.passes])
    refine ⟨?_, ?_, passes_update hmonitoring (by simp [IoPc.passes])⟩
    · rw [IoCall.record_of_enabled hmonitoring.enabled hfd]
      exact hmonitoring.enabled
    · intro fd' howned
      by_cases hne : fd' = fd
      · exact hne ▸ hfd
      · simp only [Function.update_of_ne hne] at howned
        exact hmonitoring.owned_nonneg fd' howned
  case h_6 fd hpc =>
    obtain rfl := Option.some.inj hstep
    have hfd : 0 ≤ fd := hmonitoring.passes_nonneg t fd (by rw [hpc, IoPc.passes])
    refine ⟨?_, hmonitoring.owned_nonneg,
      passes_update hmonitoring (by simp [IoPc.passes])⟩
    rw [IoMonitor.onClose_of_enabled hmonitoring.enabled hfd]
    exact hmonitoring.enabled
  case h_7 answer fd hpc =>
    obtain rfl := Option.some.inj hstep
    exact ⟨hmonitoring.enabled, hmonitoring.owned_nonneg,
      passes_update hmonitoring (by simp [IoPc.passes])⟩
  case h_8 => simp at hstep

/-- The registry after one thread has moved on. -/
theorem IoState.registry_move (s : IoState Tid) (t : Tid) (pc : IoPc)
    (monitor : IoMonitor) (openBy : Int → Option IoCall) (owned : Int → Bool) :
    IoState.registry ⟨monitor, openBy, owned, Function.update s.pc t pc⟩ =
      ⟨fun fd => (openBy fd).map IoCall.info, fun fd => monitor.openFds.lookup fd, owned,
        Function.update s.registry.phase t pc.phase⟩ := by
  have hphase : (fun t' => (Function.update s.pc t pc t').phase) =
      Function.update s.registry.phase t pc.phase :=
    Function.comp_update IoPc.phase s.pc t pc
  rw [registry, hphase]
  rfl

/-- What the monitor would keep of the open descriptors, after one has changed. -/
theorem openBy_update (openBy : Int → Option IoCall) (fd : Int) (call : Option IoCall) :
    (fun fd' => (Function.update openBy fd call fd').map IoCall.info) =
      Function.update (fun fd' => (openBy fd').map IoCall.info) fd
        (call.map IoCall.info) :=
  Function.comp_update (Option.map IoCall.info) openBy fd call

omit [DecidableEq Tid] in
theorem IoState.leftover_none (s : IoState Tid) (t : Tid) :
    (s.registry.phase t).leftover = none := by
  change (s.pc t).phase.leftover = none
  cases s.pc t <;> rfl

omit [DecidableEq Tid] in
/-- No descriptor is given back before its record is erased. -/
theorem IoState.safe (s : IoState Tid) (label : Registry.Label Tid Int FdInfo) :
    s.registry.Safe label := by
  intro id info _ _ t
  simp [s.leftover_none t]

/-- The step refines the registry's. -/
theorem IoState.step_simulates {label : IoStep Tid} (hmonitoring : s.Monitoring)
    (hstep : s.step label = some s') :
    ReachesAlong Registry.State.step Registry.State.Safe s.registry s'.registry := by
  rcases label with ⟨t, move⟩
  have hphase : s.registry.phase t = (s.pc t).phase := rfl
  simp only [step] at hstep
  split at hstep
  case h_1 call hpc =>
    obtain rfl := Option.some.inj hstep
    rw [registry_move, IoPc.phase, ← show s.registry.phase t = .idle from by
      rw [hphase, hpc, IoPc.phase], Function.update_eq_self]
    exact .refl _
  case h_2 fd hpc =>
    obtain ⟨howned, hafter⟩ := Option.ite_none_right_eq_some.mp hstep
    obtain rfl := Option.some.inj hafter
    rw [hpc, IoPc.phase] at hphase
    apply ReachesAlong.single (s.safe ⟨t, .retire fd⟩)
    rw [Registry.State.step_retire hphase howned, registry_move]
    rfl
  case h_3 call hpc =>
    obtain rfl := Option.some.inj hstep
    rw [registry_move, IoPc.phase, ← show s.registry.phase t = .idle from by
      rw [hphase, hpc, IoPc.phase], Function.update_eq_self]
    exact .refl _
  case h_4 fd call hpc =>
    obtain ⟨hfd, hafter⟩ := Option.ite_none_right_eq_some.mp hstep
    obtain rfl := Option.some.inj hafter
    rw [hpc, IoPc.phase] at hphase
    have hclosed : s.registry.live fd = none := by
      simp [registry, hfd.2]
    apply ReachesAlong.single (s.safe ⟨t, .acquire fd call.info⟩)
    rw [Registry.State.step_acquire call.info hphase hclosed, registry_move,
      openBy_update]
    rfl
  case h_5 fd call hpc =>
    obtain rfl := Option.some.inj hstep
    have hfd : 0 ≤ fd := hmonitoring.passes_nonneg t fd (by rw [hpc, IoPc.passes])
    rw [hpc, IoPc.phase] at hphase
    apply ReachesAlong.single (s.safe ⟨t, .register⟩)
    rw [Registry.State.step_register hphase, registry_move,
      IoCall.record_of_enabled hmonitoring.enabled hfd,
      Registry.lookup_insert_eq_update]
    rfl
  case h_6 fd hpc =>
    obtain rfl := Option.some.inj hstep
    have hfd : 0 ≤ fd := hmonitoring.passes_nonneg t fd (by rw [hpc, IoPc.passes])
    rw [hpc, IoPc.phase] at hphase
    apply ReachesAlong.single (s.safe ⟨t, .unregister⟩)
    rw [Registry.State.step_unregister hphase, registry_move,
      IoMonitor.onClose_of_enabled hmonitoring.enabled hfd,
      Registry.lookup_erase_eq_update]
    rfl
  case h_7 answer fd hpc =>
    obtain rfl := Option.some.inj hstep
    rw [hpc, IoPc.phase] at hphase
    apply ReachesAlong.single (s.safe ⟨t, .release⟩)
    rw [Registry.State.step_release hphase, registry_move, openBy_update]
    rfl
  case h_8 => simp at hstep

/-- The descriptor is in an opening call that has yet to record it, or in a `close`
that has already erased it. -/
def IoState.InFlight (s : IoState Tid) (fd : Int) : Prop :=
  ∃ t, (∃ call, s.pc t = .recording fd call) ∨ s.pc t = .closing fd

/-- No hook call is in progress. -/
def IoState.Quiescent (s : IoState Tid) : Prop :=
  ∀ t, s.pc t = .idle

omit [DecidableEq Tid] in
theorem IoState.inWindow_iff (s : IoState Tid) (fd : Int) :
    s.registry.InWindow fd ↔ s.InFlight fd := by
  apply exists_congr
  intro t
  change ((∃ info, (s.pc t).phase.pending = some (fd, info)) ∨
    (s.pc t).phase = .unregistered fd) ↔ _
  cases s.pc t <;> simp [IoPc.phase, Registry.Phase.pending, and_comm]

theorem IoState.inv_of_run {labels : List (IoStep Tid)} {final : IoState Tid}
    (hrun : run IoState.step (IoState.initial Tid) labels = some final) :
    Registry.Inv final.registry := by
  have hreaches := run_simulates IoState.Monitoring
    (fun _ _ _ hmonitoring (_ : True) hstep => step_monitoring hmonitoring hstep)
    (fun _ _ _ hmonitoring _ hstep => step_simulates hmonitoring hstep)
    initial_monitoring along_true hrun
  exact Registry.inv_initial.reaches hreaches

/-- The path that the call was given; a socket goes by a fixed one. -/
def IoCall.path : IoCall → CString
  | .open path => path.getD emptyPath
  | .open64 path => path.getD emptyPath
  | .openat _ path => path.getD emptyPath
  | .openat64 _ path => path.getD emptyPath
  | .socket _ _ _ => socketPath

def IoCall.isSocket : IoCall → Bool
  | .socket _ _ _ => true
  | _ => false

/-- The record is of the call, its path cut to what the buffer holds. -/
def FdInfo.Of (info : FdInfo) (call : IoCall) : Prop :=
  info.isSocket = call.isSocket ∧
    info.path.bytes = call.path.bytes.take (pathCapacity - 1)

theorem IoCall.info_of (call : IoCall) : call.info.Of call := by
  cases call with
  | socket => exact ⟨rfl, rfl⟩
  | «open» path | open64 path | openat dirfd path | openat64 dirfd path =>
      cases path <;> exact ⟨rfl, rfl⟩

/-- The map holds exactly the open descriptors outside the calls in progress, each
with the record of the call that last returned it. -/
structure IoState.Exact (s : IoState Tid) : Prop where
  contains : ∀ fd, s.recorded fd ≠ none ↔ s.openBy fd ≠ none ∧ ¬ s.InFlight fd
  record : ∀ fd info, s.recorded fd = some info →
    ∃ call, s.openBy fd = some call ∧ info.Of call

/-- The report lists every open descriptor once and nothing else; with none open
there is no report. -/
structure IoState.ReportExact (s : IoState Tid) : Prop where
  report : s.monitor.reportLeakedFds =
    if s.monitor.leakedFds = [] then none else some (fdLeakJson s.monitor.leakedFds)
  nodup : (s.monitor.leakedFds.map Prod.fst).Nodup
  sound : ∀ fd info, (fd, info) ∈ s.monitor.leakedFds →
    ∃ call, s.openBy fd = some call ∧ info.Of call
  complete : ∀ fd, s.openBy fd ≠ none → ∃ info, (fd, info) ∈ s.monitor.leakedFds

omit [DecidableEq Tid] in
theorem IoState.exact_of_inv (hinv : Registry.Inv s.registry) : s.Exact where
  contains := by
    intro fd
    rw [← inWindow_iff]
    have hlive : s.registry.live fd ≠ none ↔ s.openBy fd ≠ none := by
      simp [registry]
    constructor
    · intro hrecorded
      obtain ⟨hopen, hwindow⟩ := hinv.live_of_table hrecorded
        fun t => by simp [s.leftover_none t]
      exact ⟨hlive.mp (hopen ▸ hrecorded), hwindow⟩
    · rintro ⟨hopen, hwindow⟩ hunrecorded
      have hsame := hinv.table_of_live (hlive.mpr hopen) hwindow
      exact hlive.mpr hopen (hsame.symm.trans hunrecorded)
  record := by
    intro fd info hrecorded
    have htable : s.registry.table fd ≠ none :=
      Option.ne_none_iff_exists'.mpr ⟨info, hrecorded⟩
    have hopen := (hinv.live_of_table htable fun t => by simp [s.leftover_none t]).1
    obtain ⟨call, hcall, rfl⟩ := Option.map_eq_some_iff.mp (hopen.trans hrecorded)
    exact ⟨call, hcall, call.info_of⟩

omit [DecidableEq Tid] in
theorem IoState.reportExact_of_exact (henabled : s.monitor.enabled = true)
    (hexact : s.Exact) (hquiescent : s.Quiescent) : s.ReportExact where
  report := by
    simp [IoMonitor.reportLeakedFds, henabled]
  nodup := s.monitor.leakedFds_nodup
  sound := by
    intro fd info hmem
    exact hexact.record fd info (IoMonitor.mem_leakedFds.mp hmem)
  complete := by
    intro fd hopen
    have hidle : ¬ s.InFlight fd := by
      rintro ⟨t, ⟨call, hpc⟩ | hpc⟩ <;> simp [hquiescent t] at hpc
    obtain ⟨info, hinfo⟩ :=
      Option.ne_none_iff_exists'.mp ((hexact.contains fd).mpr ⟨hopen, hidle⟩)
    exact ⟨info, IoMonitor.mem_leakedFds.mpr hinfo⟩

/-- `refuse` is an insertion for which the pool has no memory: `bad_alloc` leaves the
hook. -/
inductive IoEvent (Tid : Type) where
  | step (label : IoStep Tid)
  | refuse (thread : Tid)

/-- The hooks over a pool that cannot always grow; `lost` are the descriptors whose
insertion was refused. -/
structure PooledIo (Tid : Type) where
  io : IoState Tid
  lost : Int → Bool

def PooledIo.initial (Tid : Type) : PooledIo Tid where
  io := IoState.initial Tid
  lost := fun _ => false

/-- The descriptor of a refused insertion stays open, and nobody has it. -/
def PooledIo.step (s : PooledIo Tid) : IoEvent Tid → Option (PooledIo Tid)
  | .step label => (s.io.step label).map fun io => { s with io := io }
  | .refuse thread =>
      match s.io.pc thread with
      | .recording fd _ =>
          if s.io.recorded fd = none then
            some { io := { s.io with pc := Function.update s.io.pc thread .idle }
                   lost := Function.update s.lost fd true }
          else none
      | _ => none

/-- The descriptors that somebody can still close. -/
def PooledIo.kept (s : PooledIo Tid) : IoState Tid :=
  { s.io with openBy := fun fd => if s.lost fd then none else s.io.openBy fd }

/-- What is kept is in order, and what is lost stays open. -/
structure PooledIo.Inv (s : PooledIo Tid) : Prop where
  registry : Registry.Inv s.kept.registry
  monitoring : s.kept.Monitoring
  lost_open : ∀ fd, s.lost fd = true → s.io.openBy fd ≠ none

omit [DecidableEq Tid] in
theorem PooledIo.Inv.initial : (PooledIo.initial Tid).Inv where
  registry := by
    have hkept : (PooledIo.initial Tid).kept.registry = Registry.State.initial := rfl
    rw [hkept]
    exact Registry.inv_initial
  monitoring := IoState.initial_monitoring
  lost_open := by simp [PooledIo.initial]

omit [DecidableEq Tid] in
/-- A descriptor that a thread has in hand is not lost. -/
theorem PooledIo.Inv.not_lost {s : PooledIo Tid} (hinv : s.Inv) {t : Tid} {fd : Int}
    (hholding : (s.io.pc t).phase.holding = some fd) : s.lost fd = false := by
  have hlive := hinv.registry.held_live fd t hholding
  by_contra hlost
  simp [IoState.registry, kept, hlost] at hlive

omit [DecidableEq Tid] in
/-- A descriptor that is not lost changes among the kept ones as it does among all. -/
theorem PooledIo.kept_update (s : PooledIo Tid) {fd : Int} (hlost : s.lost fd = false)
    (call : Option IoCall) (pc : Tid → IoPc) :
    PooledIo.kept
        { s with io := { s.io with openBy := Function.update s.io.openBy fd call, pc := pc } } =
      { s.kept with openBy := Function.update s.kept.openBy fd call, pc := pc } := by
  have hopenBy : (fun fd' => if s.lost fd' then none
      else Function.update s.io.openBy fd call fd') =
      Function.update s.kept.openBy fd call := by
    funext fd'
    by_cases hfd : fd' = fd
    · simp [hfd, hlost]
    · simp [Function.update_of_ne hfd, kept]
  rw [kept, hopenBy]
  rfl

/-- The kept descriptors go through the same step. -/
theorem PooledIo.Inv.kept_step {s : PooledIo Tid} (hinv : s.Inv) {label : IoStep Tid}
    {io : IoState Tid} (hstep : s.io.step label = some io) :
    s.kept.step label = some { s with io := io }.kept ∧
      ∀ fd, s.lost fd = true → io.openBy fd ≠ none := by
  rcases label with ⟨t, move⟩
  have hstays : ∀ fd call, s.lost fd = false → ∀ fd', s.lost fd' = true →
      Function.update s.io.openBy fd call fd' ≠ none := by
    intro fd call hlost fd' hlost'
    have hfd : fd' ≠ fd := by
      rintro rfl
      rw [hlost] at hlost'
      contradiction
    rw [Function.update_of_ne hfd]
    exact hinv.lost_open fd' hlost'
  simp only [IoState.step] at hstep
  split at hstep
  case h_1 call hpc =>
    obtain rfl := Option.some.inj hstep
    exact ⟨by simp [IoState.step, kept, hpc], hinv.lost_open⟩
  case h_2 fd hpc =>
    obtain ⟨howned, hafter⟩ := Option.ite_none_right_eq_some.mp hstep
    obtain rfl := Option.some.inj hafter
    exact ⟨by simp [IoState.step, kept, hpc, howned], hinv.lost_open⟩
  case h_3 call hpc =>
    obtain rfl := Option.some.inj hstep
    exact ⟨by simp [IoState.step, kept, hpc], hinv.lost_open⟩
  case h_4 fd call hpc =>
    obtain ⟨hfd, hafter⟩ := Option.ite_none_right_eq_some.mp hstep
    obtain rfl := Option.some.inj hafter
    have hlost : s.lost fd = false := by
      by_contra hlost
      exact hinv.lost_open fd (Bool.eq_true_of_not_eq_false hlost) hfd.2
    refine ⟨?_, hstays fd _ hlost⟩
    rw [s.kept_update hlost]
    simp [IoState.step, kept, hpc, hfd]
  case h_5 fd call hpc =>
    obtain rfl := Option.some.inj hstep
    exact ⟨by simp [IoState.step, kept, hpc], hinv.lost_open⟩
  case h_6 fd hpc =>
    obtain rfl := Option.some.inj hstep
    exact ⟨by simp [IoState.step, kept, hpc], hinv.lost_open⟩
  case h_7 answer fd hpc =>
    obtain rfl := Option.some.inj hstep
    have hlost : s.lost fd = false := hinv.not_lost (by rw [hpc]; rfl)
    refine ⟨?_, hstays fd _ hlost⟩
    rw [s.kept_update hlost]
    simp [IoState.step, kept, hpc]
  case h_8 => simp at hstep

/-- Without the refused descriptor the registry is in order, too. -/
theorem PooledIo.Inv.refuse {s : PooledIo Tid} (hinv : s.Inv) {t : Tid} {fd : Int}
    {call : IoCall} (hpc : s.io.pc t = .recording fd call) :
    PooledIo.Inv
      { io := { s.io with pc := Function.update s.io.pc t .idle }
        lost := Function.update s.lost fd true } where
  registry := by
    have hphase : s.kept.registry.phase t = .acquired fd call.info :=
      congrArg IoPc.phase hpc
    have hlive : (fun fd' => (if Function.update s.lost fd true fd' then none
        else s.io.openBy fd').map IoCall.info) =
        Function.update s.kept.registry.live fd none := by
      funext fd'
      by_cases hfd : fd' = fd
      · simp [hfd]
      · simp [Function.update_of_ne hfd, IoState.registry, kept]
    rw [kept, IoState.registry_move, hlive]
    exact hinv.registry.abandon hphase
  monitoring := ⟨hinv.monitoring.enabled, hinv.monitoring.owned_nonneg,
    IoState.passes_update hinv.monitoring (by simp [IoPc.passes])⟩
  lost_open := by
    intro fd' hlost
    change s.io.openBy fd' ≠ none
    by_cases hfd : fd' = fd
    · have hphase : s.kept.registry.phase t = .acquired fd call.info :=
        congrArg IoPc.phase hpc
      have hheld := hinv.registry.held_live fd t (by rw [hphase]; rfl)
      rw [hfd]
      intro hclosed
      simp [IoState.registry, kept, hclosed] at hheld
    · change Function.update s.lost fd true fd' = true at hlost
      rw [Function.update_of_ne hfd] at hlost
      exact hinv.lost_open fd' hlost

theorem PooledIo.Inv.step {s next : PooledIo Tid} {event : IoEvent Tid} (hinv : s.Inv)
    (hstep : s.step event = some next) : next.Inv := by
  cases event with
  | step label =>
      obtain ⟨io, hio, rfl⟩ := Option.map_eq_some_iff.mp hstep
      obtain ⟨hkept, hlost⟩ := hinv.kept_step hio
      exact ⟨hinv.registry.reaches (IoState.step_simulates hinv.monitoring hkept),
        IoState.step_monitoring hinv.monitoring hkept, hlost⟩
  | refuse thread =>
      rw [PooledIo.step] at hstep
      split at hstep
      · next fd call hpc =>
          obtain ⟨-, hafter⟩ := Option.ite_none_right_eq_some.mp hstep
          obtain rfl := Option.some.inj hafter
          exact hinv.refuse hpc
      · contradiction

/-- The map holds exactly the open descriptors outside the calls in progress whose
insertion was not refused, each with the record of the call that last returned it. -/
structure PooledIo.Exact (s : PooledIo Tid) : Prop where
  contains : ∀ fd, s.io.recorded fd ≠ none ↔
    s.io.openBy fd ≠ none ∧ ¬ s.io.InFlight fd ∧ s.lost fd = false
  record : ∀ fd info, s.io.recorded fd = some info →
    ∃ call, s.io.openBy fd = some call ∧ info.Of call

/-- The report lists every open descriptor that is not lost once and nothing else; with
none of these there is no report. -/
structure PooledIo.ReportExact (s : PooledIo Tid) : Prop where
  report : s.io.monitor.reportLeakedFds =
    if s.io.monitor.leakedFds = [] then none else some (fdLeakJson s.io.monitor.leakedFds)
  nodup : (s.io.monitor.leakedFds.map Prod.fst).Nodup
  sound : ∀ fd info, (fd, info) ∈ s.io.monitor.leakedFds →
    ∃ call, s.io.openBy fd = some call ∧ info.Of call
  complete : ∀ fd, s.io.openBy fd ≠ none → s.lost fd = false →
    ∃ info, (fd, info) ∈ s.io.monitor.leakedFds

omit [DecidableEq Tid] in
theorem PooledIo.openBy_of_kept {s : PooledIo Tid} {fd : Int} {call : IoCall}
    (hopen : s.kept.openBy fd = some call) :
    s.io.openBy fd = some call ∧ s.lost fd = false := by
  cases hlost : s.lost fd with
  | false => simpa [kept, hlost] using hopen
  | true => simp [kept, hlost] at hopen

omit [DecidableEq Tid] in
theorem PooledIo.Inv.exact {s : PooledIo Tid} (hinv : s.Inv) : s.Exact where
  contains := by
    intro fd
    have hcontains := (IoState.exact_of_inv hinv.registry).contains fd
    rw [show s.kept.recorded fd = s.io.recorded fd from rfl,
      show s.kept.InFlight fd = s.io.InFlight fd from rfl] at hcontains
    rw [hcontains]
    cases hlost : s.lost fd <;> simp [kept, hlost]
  record := by
    intro fd info hrecorded
    obtain ⟨call, hopen, hof⟩ := (IoState.exact_of_inv hinv.registry).record fd info hrecorded
    exact ⟨call, (openBy_of_kept hopen).1, hof⟩

namespace IoWitness

def start : IoState Bool := IoState.initial Bool

def first (move : IoMove) : IoStep Bool :=
  ⟨false, move⟩

def second (move : IoMove) : IoStep Bool :=
  ⟨true, move⟩

def readme : CString where
  bytes := literal "README"
  nulFree := by decide

end IoWitness

end Domovoy
