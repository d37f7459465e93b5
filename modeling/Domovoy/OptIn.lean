/-
Which reports a session makes: the framework over any sequence of sessions, with what
the application does inside and between them, one complete event after another.
-/
import Domovoy.CrashRuns
import Domovoy.LeakReport
import Domovoy.Shutdown

namespace Domovoy

open WordAlign Transition

/-- A call on the reporter, with the configuration of the session it was made in. -/
structure ReporterCall where
  method : ReporterMethod
  data : Json
  config : DomovoyConfig

/-- The option that asks for the reports of a method. -/
def ReporterMethod.option (config : DomovoyConfig) : ReporterMethod → Bool
  | .reportLeaks => config.enableLeakDetection
  | .reportHighCpu => config.enableCpuProfiler
  | .reportIoLeak => config.enableIoMonitoring
  | .reportCrash => config.enableCrashHandler

structure Framework where
  process : Process
  gAllocations : Option AllocMap
  heap : LibcHeap
  alive : Bool
  calls : List ReporterCall

/-- Before the first session, with any actions of the application on the signals. -/
def Framework.initial (actions : CrashSignal → SigAction) (altStack : Option AltStack)
    (disk : Disk) : Framework where
  process :=
    { core := Core.initial
      crash := CrashHandler.initial
      signals :=
        { disposition := fun sig => .application (actions sig), altStack := altStack }
      cpu := CpuMonitor.initial
      io := IoMonitor.initial
      disk := disk }
  gAllocations := none
  heap := LibcHeap.initial
  alive := true
  calls := []

/-- `if (reporter)` the report goes to it. -/
def Framework.report (method : ReporterMethod) (data : Json) (f : Framework) :
    Framework :=
  match f.process.core.reporter with
  | some _ =>
      { f with calls := f.calls ++
          [{ method := method, data := data, config := f.process.core.config }] }
  | none => f

/-- The tracker is a view of the framework's state. -/
def Framework.tracker (f : Framework) : Tracker where
  config := f.process.core.config
  gAllocations := f.gAllocations
  heap := f.heap

/-- What `RunLeakDetection` finds; nothing marks a record as reachable. -/
def Framework.leakedAllocations (f : Framework) : List AllocationRecord :=
  (getLinuxTrackedAllocations f.gAllocations).filter fun record => !record.marked

/-- The report that is built of what was found, with the type names that `ResolveType`
gives. -/
def Framework.leakReport (typeName : Word → Word → Bytes) (f : Framework) : Option Json :=
  runLeakDetection f.process.core.config typeName
    (getLinuxTrackedAllocations f.gAllocations)

/-- The calls that a teardown makes on the reporter. -/
def Framework.reportLeftovers (typeName : Word → Word → Bytes) (f : Framework) :
    Framework :=
  let f' := (f.leakReport typeName).elim f fun data => f.report .reportLeaks data
  f.process.io.reportLeakedFds.elim f' fun data => f'.report .reportIoLeak data

/-- The reports of one scan. -/
def Framework.reportScan (trace : Word → List StackFrame) (reported : List Word)
    (f : Framework) : Framework :=
  reported.foldl (fun f id => f.report .reportHighCpu (highCpuJson id (trace id))) f

/-- What a crash handler of the application or the default makes of the signal. -/
def SigAction.survives (action : SigAction) : Bool :=
  match action.handler with
  | .sigDfl => false
  | .sigIgn => false
  | .function _ => true

/-- What `HandleCrashSignal` leaves of the process: the default kills it, a function
of the application may return. -/
def Disposition.survives : Disposition → Bool
  | .application action => action.takesSiginfo || action.handler != .sigDfl
  | .handleCrashSignal => true

inductive FrameworkEvent where
  | init (config : DomovoyConfig) (memory sigstksz : Word)
  | shutdown (typeName : Word → Word → Bytes) (leaksMs ioLeakMs : Nat)
  | hook (event : HookEvent)
  | openFd (call : IoCall) (fd : Int)
  | closeFd (fd : Int)
  | sigaction (sig : CrashSignal) (action : SigAction)
  | scan (sysconf : Int) (samples : List Sample) (trace : Word → List StackFrame)
  | crash (sig : CrashSignal) (trace : List StackFrame)

/-- One complete event of a live process; a teardown that throws is not one. -/
def Framework.step (f : Framework) (event : FrameworkEvent) : Option Framework :=
  if f.alive = false then none
  else
    match event with
    | .init config memory sigstksz =>
        some { f with
          process := f.process.init config memory sigstksz
          gAllocations := some (f.gAllocations.getD ∅) }
    | .shutdown typeName leaksMs ioLeakMs =>
        if f.process.core.initialized then
          match f.process.shutdown { leakReport := f.leakReport typeName
                                     leaksMs := leaksMs
                                     ioLeakMs := ioLeakMs } with
          | (.ok (), process) =>
              some { f.reportLeftovers typeName with process := process }
          | (.error _, _) => none
        else some f
    | .hook event =>
        (f.tracker.ensureInit.step event).map fun tracker =>
          { f with gAllocations := tracker.gAllocations, heap := tracker.heap }
    | .openFd call fd =>
        some { f with process := { f.process with io := call.record fd f.process.io } }
    | .closeFd fd =>
        some { f with process := { f.process with io := f.process.io.onClose fd } }
    | .sigaction sig action =>
        some { f with
          process := { f.process with signals := f.process.signals.sigaction sig action } }
    | .scan sysconf samples trace =>
        if f.process.cpu.running then
          let (reported, threadStates) :=
            checkThreadsForHighCpu sysconf samples f.process.cpu.threadStates
          some { f.reportScan trace reported with
            process := { f.process with
              cpu := { f.process.cpu with threadStates := threadStates } } }
        else none
    | .crash sig trace =>
        match f.process.signals.disposition sig with
        | .handleCrashSignal =>
            some { f.report .reportCrash (crashJson sig trace) with
              alive := (f.process.crash.oldActions sig).survives }
        | .application action => some { f with alive := action.survives }

/-- Every report was asked for by the session that made it. -/
def Framework.OptedIn (f : Framework) : Prop :=
  ∀ call ∈ f.calls, call.method.option call.config = true

/-- A session without leak detection ends with nothing in the allocation map. -/
def Framework.EndsEmpty (f : Framework) (event : FrameworkEvent) : Prop :=
  ∀ typeName leaksMs ioLeakMs, event = .shutdown typeName leaksMs ioLeakMs →
    f.process.core.initialized = true →
    f.process.core.config.enableLeakDetection = false → f.leakedAllocations = []

/-- What runs was started by the session that is on, and asked for by it. -/
structure Process.Gated (p : Process) : Prop where
  reporter : p.core.initialized = true → p.core.reporter ≠ none
  cpu : p.cpu.running = true →
    p.core.initialized = true ∧ p.core.config.enableCpuProfiler = true
  io : p.io.enabled = true →
    p.core.initialized = true ∧ p.core.config.enableIoMonitoring = true
  crash : p.crash.installed = true →
    p.core.initialized = true ∧ p.core.config.enableCrashHandler = true
  disposition : ∀ sig, p.signals.disposition sig = .handleCrashSignal →
    p.crash.installed = true
  saved : ∀ sig, p.crash.oldActions sig ≠ .handleCrashSignal

variable {p : Process} {f next : Framework}

theorem Process.init_of_initialized (hinitialized : p.core.initialized = true)
    (config : DomovoyConfig) (memory sigstksz : Word) :
    p.init config memory sigstksz = p := by
  simp [init, hinitialized]

/-- What only a session can switch on is off outside of one. -/
theorem off_of_down {on initialized : Bool} {q : Prop}
    (hon : on = true → initialized = true ∧ q) (hdown : initialized = false) :
    on = false := by
  cases on with
  | false => rfl
  | true =>
      rw [(hon rfl).1] at hdown
      contradiction

/-- `Init` outside a session, component by component. -/
theorem Process.Gated.init_eq (hgated : p.Gated) (hdown : p.core.initialized = false)
    (config : DomovoyConfig) (memory sigstksz : Word) :
    p.init config memory sigstksz =
      { core :=
          { config := config, reporter := some { outputDir := config.outputDir },
            initialized := true }
        crash :=
          if config.enableCrashHandler
            then { installed := true, oldActions := p.signals.disposition } else p.crash
        signals :=
          if config.enableCrashHandler
            then { disposition := fun _ => .handleCrashSignal,
                   altStack := some { sp := memory, size := sigstksz } }
            else p.signals
        cpu := if config.enableCpuProfiler then { p.cpu with running := true } else p.cpu
        io := if config.enableIoMonitoring then { p.io with enabled := true } else p.io
        disk := p.disk } := by
  have hinstalled : p.crash.installed = false := off_of_down hgated.crash hdown
  have hrunning : p.cpu.running = false := off_of_down hgated.cpu hdown
  have henabled : p.io.enabled = false := off_of_down hgated.io hdown
  cases hcrash : config.enableCrashHandler <;> cases hio : config.enableIoMonitoring <;>
    cases hcpu : config.enableCpuProfiler <;>
    simp [Process.init, hdown, hcrash, hio, hcpu, CrashHandler.install_eq hinstalled,
      IoMonitor.enable, CpuMonitor.start, hrunning, henabled]

/-- Every session starts exactly what its configuration asks for. -/
theorem Process.Gated.init (hgated : p.Gated) (config : DomovoyConfig)
    (memory sigstksz : Word) : (p.init config memory sigstksz).Gated := by
  cases hup : p.core.initialized with
  | true =>
      rw [init_of_initialized hup]
      exact hgated
  | false =>
      have hinstalled : p.crash.installed = false := off_of_down hgated.crash hup
      have hrunning : p.cpu.running = false := off_of_down hgated.cpu hup
      have henabled : p.io.enabled = false := off_of_down hgated.io hup
      rw [hgated.init_eq hup]
      refine ⟨fun _ => Option.some_ne_none _, ?_, ?_, ?_, ?_, ?_⟩
      · cases hcpu : config.enableCpuProfiler <;> simp [hrunning]
      · cases hio : config.enableIoMonitoring <;> simp [henabled]
      · cases hcrash : config.enableCrashHandler <;> simp [hinstalled]
      · intro sig
        cases hcrash : config.enableCrashHandler with
        | true => simp
        | false => simpa using hgated.disposition sig
      · intro sig hsaved
        cases hcrash : config.enableCrashHandler with
        | true =>
            simp only [hcrash, if_true] at hsaved
            rw [hgated.disposition sig hsaved] at hinstalled
            contradiction
        | false =>
            simp only [hcrash, Bool.false_eq_true, if_false] at hsaved
            exact hgated.saved sig hsaved

/-- A report changes the files only. -/
theorem Process.report_frame {q : Process} {result : Except Thrown Unit}
    {write : JsonFileReporter → Json → Disk → Except Thrown Unit × Disk}
    {report : Option Json} (hreport : p.report write report = (result, q)) :
    ∃ disk, q = { p with disk := disk } := by
  cases report with
  | none =>
      obtain ⟨-, rfl⟩ := Prod.mk.inj hreport
      exact ⟨p.disk, rfl⟩
  | some data =>
      cases hreporter : p.core.reporter with
      | none =>
          simp only [Process.report, hreporter] at hreport
          obtain ⟨-, rfl⟩ := Prod.mk.inj hreport
          exact ⟨p.disk, rfl⟩
      | some reporter =>
          simp only [Process.report, hreporter] at hreport
          obtain ⟨-, rfl⟩ := Prod.mk.inj hreport
          exact ⟨(write reporter data p.disk).2, rfl⟩

/-- What a completed teardown leaves. -/
theorem Process.shutdown_ok {q : Process} {env : ShutdownEnv}
    (hup : p.core.initialized = true) (hshutdown : p.shutdown env = (.ok (), q)) :
    ∃ disk, q = { p.quieted with
      disk := disk, io := p.io.disable, core := Core.initial } := by
  rcases hleaks : p.quieted.runLeakDetection env with ⟨_ | _, p'⟩
  · rw [shutdown_of_leaksThrow hup hleaks] at hshutdown
    cases hshutdown
  · obtain ⟨disk, rfl⟩ := report_frame hleaks
    rcases hio : Process.reportLeakedFds env { p.quieted with disk := disk } with
      ⟨_ | _, p''⟩
    · rw [shutdown_of_ioLeakThrow hup hleaks hio] at hshutdown
      cases hshutdown
    · obtain ⟨disk', rfl⟩ := report_frame hio
      rw [shutdown_of_ok hup hleaks hio] at hshutdown
      obtain ⟨-, rfl⟩ := Prod.mk.inj hshutdown
      exact ⟨disk', rfl⟩

theorem Process.Gated.shutdown {q : Process} {env : ShutdownEnv} (hgated : p.Gated)
    (hup : p.core.initialized = true) (hshutdown : p.shutdown env = (.ok (), q)) :
    q.Gated := by
  obtain ⟨disk, rfl⟩ := shutdown_ok hup hshutdown
  refine ⟨by simp [Core.initial], ?_, ?_, ?_, ?_, ?_⟩
  · cases hrunning : p.cpu.running <;> simp [quieted, CpuMonitor.stop, hrunning]
  · cases henabled : p.io.enabled <;> simp [IoMonitor.disable, henabled]
  · cases hinstalled : p.crash.installed with
    | true => simp [quieted, CrashHandler.uninstall_eq hinstalled]
    | false => simp [quieted, CrashHandler.uninstall_of_not_installed hinstalled, hinstalled]
  · intro sig hsig
    cases hinstalled : p.crash.installed with
    | true =>
        simp only [quieted, CrashHandler.uninstall_eq hinstalled] at hsig
        exact absurd hsig (hgated.saved sig)
    | false =>
        simp only [quieted, CrashHandler.uninstall_of_not_installed hinstalled] at hsig
        rw [hgated.disposition sig hsig] at hinstalled
        contradiction
  · intro sig
    cases hinstalled : p.crash.installed with
    | true =>
        simp only [quieted, CrashHandler.uninstall_eq hinstalled]
        exact hgated.saved sig
    | false =>
        simp only [quieted, CrashHandler.uninstall_of_not_installed hinstalled]
        exact hgated.saved sig

@[simp] theorem Framework.report_process (method : ReporterMethod) (data : Json) :
    (f.report method data).process = f.process := by
  rw [report]
  split <;> rfl

/-- A report is in order exactly when the session asked for it, or when there is no
reporter. -/
theorem Framework.report_optedIn_iff (method : ReporterMethod) (data : Json) :
    (f.report method data).OptedIn ↔ f.OptedIn ∧
      (f.process.core.reporter ≠ none → method.option f.process.core.config = true) := by
  cases hreporter : f.process.core.reporter with
  | none => simp [report, hreporter]
  | some reporter =>
      simp only [OptedIn, report, hreporter, List.forall_mem_append,
        List.forall_mem_singleton]
      exact and_congr_right fun _ => by simp

theorem IoCall.record_enabled (call : IoCall) (fd : Int) (monitor : IoMonitor) :
    (call.record fd monitor).enabled = monitor.enabled := by
  cases call <;> simp only [record, IoMonitor.onOpen, IoMonitor.onSocket] <;> split <;> rfl

theorem IoMonitor.onClose_enabled (fd : Int) (monitor : IoMonitor) :
    (monitor.onClose fd).enabled = monitor.enabled := by
  rw [onClose]
  split <;> rfl

theorem IoMonitor.enabled_of_reportLeakedFds {monitor : IoMonitor} {data : Json}
    (hreport : monitor.reportLeakedFds = some data) : monitor.enabled = true := by
  by_contra hoff
  simp [reportLeakedFds, hoff] at hreport

theorem Framework.reportScan_optedIn (trace : Word → List StackFrame)
    (reported : List Word) (hopted : f.OptedIn)
    (hoption : f.process.core.config.enableCpuProfiler = true) :
    (f.reportScan trace reported).OptedIn := by
  induction reported generalizing f with
  | nil => exact hopted
  | cons id reported ih =>
      apply ih
      · exact (report_optedIn_iff ..).mpr ⟨hopted, fun _ => hoption⟩
      · rw [report_process]
        exact hoption

/-- The report on descriptors is only made while monitoring is on. -/
theorem Framework.reportLeakedFds_optedIn_iff (hgated : f.process.Gated) :
    (f.process.io.reportLeakedFds.elim f fun data => f.report .reportIoLeak data).OptedIn ↔
      f.OptedIn := by
  cases hreport : f.process.io.reportLeakedFds with
  | none => exact Iff.rfl
  | some data =>
      have henabled := IoMonitor.enabled_of_reportLeakedFds hreport
      rw [Option.elim_some, report_optedIn_iff]
      exact and_iff_left fun _ => (hgated.io henabled).2

/-- A report is made when something was found. -/
theorem Framework.leakReport_eq (typeName : Word → Word → Bytes) (f : Framework) :
    f.leakReport typeName =
      if f.leakedAllocations = [] then none
      else some (Domovoy.leakReport f.process.core.config typeName
        (getLinuxTrackedAllocations f.gAllocations)) := by
  have htotal : (leakTotals (getLinuxTrackedAllocations f.gAllocations)).totalLeaks =
      f.leakedAllocations.length := by
    rw [leakTotals_eq]
    rfl
  rw [leakReport, runLeakDetection, htotal]
  cases hleaked : f.leakedAllocations with
  | nil => rfl
  | cons leak leaks => rfl

/-- The report on leaks is the one that no flag guards. -/
theorem Framework.reportLeftovers_optedIn_iff (typeName : Word → Word → Bytes)
    (hgated : f.process.Gated) (hup : f.process.core.initialized = true)
    (hopted : f.OptedIn) :
    (f.reportLeftovers typeName).OptedIn ↔
      (f.process.core.config.enableLeakDetection = false → f.leakedAllocations = []) := by
  have hreporter := hgated.reporter hup
  cases hleaked : f.leakedAllocations with
  | nil =>
      refine iff_of_true ?_ fun _ => rfl
      simp only [reportLeftovers, leakReport_eq, hleaked, if_true, Option.elim_none]
      exact (reportLeakedFds_optedIn_iff hgated).mpr hopted
  | cons record rest =>
      have hreported (data : Json) : (f.report .reportLeaks data).process.Gated := by
        rw [report_process]
        exact hgated
      have hio := fun data => reportLeakedFds_optedIn_iff (hreported data)
      simp only [report_process] at hio
      simp only [reportLeftovers, leakReport_eq, hleaked, reduceCtorEq, if_false,
        Option.elim_some]
      rw [hio, report_optedIn_iff]
      simp [hopted, hreporter, ReporterMethod.option]

/-- Every event keeps the components under their options. -/
theorem Framework.step_gated {event : FrameworkEvent} (hgated : f.process.Gated)
    (hstep : f.step event = some next) : next.process.Gated := by
  cases halive : f.alive with
  | false => simp [step, halive] at hstep
  | true =>
      simp only [step, halive, Bool.true_eq_false, if_false] at hstep
      cases event with
      | init config memory sigstksz =>
          obtain rfl := Option.some.inj hstep
          exact hgated.init config memory sigstksz
      | shutdown typeName leaksMs ioLeakMs =>
          cases hup : f.process.core.initialized with
          | false =>
              simp only [hup, Bool.false_eq_true, if_false, Option.some.injEq] at hstep
              subst hstep
              exact hgated
          | true =>
              simp only [hup, if_true] at hstep
              split at hstep
              · next process hshutdown =>
                  obtain rfl := Option.some.inj hstep
                  exact hgated.shutdown hup hshutdown
              · contradiction
      | hook event =>
          obtain ⟨tracker, -, rfl⟩ := Option.map_eq_some_iff.mp hstep
          exact hgated
      | openFd call fd =>
          obtain rfl := Option.some.inj hstep
          have hio := hgated.io
          rw [← call.record_enabled fd] at hio
          exact { hgated with io := hio }
      | closeFd fd =>
          obtain rfl := Option.some.inj hstep
          have hio := hgated.io
          rw [← f.process.io.onClose_enabled fd] at hio
          exact { hgated with io := hio }
      | sigaction sig action =>
          obtain rfl := Option.some.inj hstep
          refine { hgated with disposition := ?_ }
          intro sig' hsig'
          simp only [SignalState.sigaction] at hsig'
          by_cases hsame : sig' = sig
          · simp [hsame] at hsig'
          · rw [Function.update_of_ne hsame] at hsig'
            exact hgated.disposition sig' hsig'
      | scan sysconf samples trace =>
          cases hrunning : f.process.cpu.running with
          | false => simp [hrunning] at hstep
          | true =>
              simp only [hrunning, if_true, Option.some.injEq] at hstep
              subst hstep
              refine { hgated with cpu := fun _ => hgated.cpu hrunning }
      | crash sig trace =>
          cases hdisposition : f.process.signals.disposition sig with
          | handleCrashSignal =>
              simp only [hdisposition, Option.some.injEq] at hstep
              subst hstep
              simpa using hgated
          | application action =>
              simp only [hdisposition, Option.some.injEq] at hstep
              subst hstep
              exact hgated

/-- One event keeps the reports to what was asked for if and only if it is not the
teardown of a session without leak detection that finds records. -/
theorem Framework.step_optedIn_iff {event : FrameworkEvent} (hgated : f.process.Gated)
    (hopted : f.OptedIn) (hstep : f.step event = some next) :
    next.OptedIn ↔ f.EndsEmpty event := by
  cases halive : f.alive with
  | false => simp [step, halive] at hstep
  | true =>
      simp only [step, halive, Bool.true_eq_false, if_false] at hstep
      cases event with
      | init config memory sigstksz =>
          obtain rfl := Option.some.inj hstep
          exact iff_of_true hopted (by simp [EndsEmpty])
      | shutdown typeName leaksMs ioLeakMs =>
          cases hup : f.process.core.initialized with
          | false =>
              simp only [hup, Bool.false_eq_true, if_false, Option.some.injEq] at hstep
              subst hstep
              exact iff_of_true hopted (by simp [EndsEmpty, hup])
          | true =>
              simp only [hup, if_true] at hstep
              split at hstep
              · next process hshutdown =>
                  obtain rfl := Option.some.inj hstep
                  have hiff := reportLeftovers_optedIn_iff typeName hgated hup hopted
                  apply hiff.trans
                  simp [EndsEmpty, hup]
              · contradiction
      | hook event =>
          obtain ⟨tracker, -, rfl⟩ := Option.map_eq_some_iff.mp hstep
          exact iff_of_true hopted (by simp [EndsEmpty])
      | openFd call fd =>
          obtain rfl := Option.some.inj hstep
          exact iff_of_true hopted (by simp [EndsEmpty])
      | closeFd fd =>
          obtain rfl := Option.some.inj hstep
          exact iff_of_true hopted (by simp [EndsEmpty])
      | sigaction sig action =>
          obtain rfl := Option.some.inj hstep
          exact iff_of_true hopted (by simp [EndsEmpty])
      | scan sysconf samples trace =>
          refine iff_of_true ?_ (by simp [EndsEmpty])
          cases hrunning : f.process.cpu.running with
          | false => simp [hrunning] at hstep
          | true =>
              simp only [hrunning, if_true, Option.some.injEq] at hstep
              subst hstep
              exact reportScan_optedIn trace _ hopted (hgated.cpu hrunning).2
      | crash sig trace =>
          refine iff_of_true ?_ (by simp [EndsEmpty])
          cases hdisposition : f.process.signals.disposition sig with
          | handleCrashSignal =>
              simp only [hdisposition, Option.some.injEq] at hstep
              subst hstep
              apply (report_optedIn_iff .reportCrash (crashJson sig trace)).mpr
              refine ⟨hopted, fun _ => ?_⟩
              exact (hgated.crash (hgated.disposition sig hdisposition)).2
          | application action =>
              simp only [hdisposition, Option.some.injEq] at hstep
              subst hstep
              exact hopted

theorem Framework.initial_gated (actions : CrashSignal → SigAction)
    (altStack : Option AltStack) (disk : Disk) :
    (Framework.initial actions altStack disk).process.Gated where
  reporter := by simp [initial, Core.initial]
  cpu := by simp [initial, CpuMonitor.initial]
  io := by simp [initial, IoMonitor.initial]
  crash := by simp [initial, CrashHandler.initial]
  disposition := by simp [initial]
  saved := by simp [initial, CrashHandler.initial, Disposition.zero]

/-- Over every sequence of sessions with any configurations and anything that the
application does: the reports are those that each session asked for if and only if
every session without leak detection ends with an empty allocation map. -/
theorem reports_optedIn_iff (actions : CrashSignal → SigAction)
    (altStack : Option AltStack) (disk : Disk) (events : List FrameworkEvent)
    (final : Framework)
    (hrun : run Framework.step (Framework.initial actions altStack disk) events =
      some final) :
    Throughout Framework.step Framework.OptedIn
        (Framework.initial actions altStack disk) events ↔
      Along Framework.step Framework.EndsEmpty (Framework.initial actions altStack disk)
        events := by
  have hgated := Framework.initial_gated actions altStack disk
  have hopted : (Framework.initial actions altStack disk).OptedIn := by
    simp [Framework.OptedIn, Framework.initial]
  apply throughout_iff_along (fun f => f.process.Gated ∧ f.OptedIn) _ _ ⟨hgated, hopted⟩
    hopted along_true hrun
  · rintro f event next ⟨hgated, hopted⟩ _ hempty hstep
    exact ⟨Framework.step_gated hgated hstep,
      (Framework.step_optedIn_iff hgated hopted hstep).mpr hempty⟩
  · rintro f event next ⟨hgated, hopted⟩ _ hstep
    exact Framework.step_optedIn_iff hgated hopted hstep

namespace OptInWitness

def actions (_ : CrashSignal) : SigAction where
  handler := .function 0x402000
  flags := 0
  mask := 0

def start : Framework :=
  Framework.initial actions none { writable := true, files := ∅ }

/-- No block is one of a polymorphic object. -/
def noNames (_ _ : Word) : Bytes := []

def leaking : DomovoyConfig := { enableLeakDetection := true }

def watching : DomovoyConfig := { enableCrashHandler := true, enableIoMonitoring := true }

/-- A session that looks for leaks, and one that reports a crash and a descriptor. -/
def reporting : List FrameworkEvent :=
  [.init leaking 0 0, .hook ⟨.malloc 24, ⟨.block 0x1000, true⟩⟩,
    .hook ⟨.free 0x1000, ⟨.refuse, true⟩⟩, .shutdown noNames 10 10,
    .init watching 0x7000 8192, .crash .sigfpe [], .openFd (.open none) 5,
    .shutdown noNames 20 20]

theorem reporting_runs : (run Framework.step start reporting).isSome := by
  decide +kernel

theorem reporting_optedIn_iff :
    Throughout Framework.step Framework.OptedIn start reporting ↔
      Along Framework.step Framework.EndsEmpty start reporting :=
  reports_optedIn_iff actions none { writable := true, files := ∅ } reporting _
    (Option.some_get reporting_runs).symm

/-- A session that leaks a block, and one that asks for nothing. -/
def leftover : List FrameworkEvent :=
  [.init leaking 0 0, .hook ⟨.malloc 24, ⟨.block 0x1000, true⟩⟩,
    .shutdown noNames 10 10, .init {} 0 0, .shutdown noNames 20 20]

theorem leftover_runs : (run Framework.step start leftover).isSome := by
  decide +kernel

/-- The block is reported again by the session that asked for nothing. -/
theorem leftover_not_optedIn :
    ¬ Throughout Framework.step Framework.OptedIn start leftover := by
  intro hall
  have hfinal := hall _ (List.prefix_refl _) _ (Option.some_get leftover_runs).symm
  have hevery : (((run Framework.step start leftover).get leftover_runs).calls.all
      fun call => call.method.option call.config) = true := List.all_eq_true.mpr hfinal
  exact absurd hevery (by decide +kernel)

end OptInWitness

end Domovoy
