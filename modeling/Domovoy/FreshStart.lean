/-
What is left of earlier sessions outside of one: nothing that a later session's reports
depend on, apart from the allocation map and what the operating system keeps.
-/
import Domovoy.OptIn

namespace Domovoy

open WordAlign Transition

/-- The table of a handler that is not installed is not read before it is written. -/
def CrashHandler.settled (handler : CrashHandler) : CrashHandler :=
  if handler.installed then handler else CrashHandler.initial

def Process.settled (p : Process) : Process :=
  { p with crash := p.crash.settled }

def Framework.settled (f : Framework) : Framework :=
  { f with process := f.process.settled }

/-- The same framework with earlier reports on record. -/
def Framework.after (earlier : List ReporterCall) (f : Framework) : Framework :=
  { f with calls := earlier ++ f.calls }

/-- A process that has never started a session, in the same surroundings and with the
same allocation map. -/
def Framework.fresh (f : Framework) : Framework where
  process :=
    { core := Core.initial
      crash := CrashHandler.initial
      signals := f.process.signals
      cpu := CpuMonitor.initial
      io := IoMonitor.initial
      disk := f.process.disk }
  gAllocations := f.gAllocations
  heap := f.heap
  alive := f.alive
  calls := []

variable {f next : Framework} {event : FrameworkEvent}

/-- A view that reports go through: a scan is reported under it as it is without it. -/
theorem Framework.reportScan_view {view : Framework → Framework}
    (hreport : ∀ method data f, (view f).report method data = view (f.report method data))
    (trace : Word → List StackFrame) (reported : List Word) (f : Framework) :
    (view f).reportScan trace reported = view (f.reportScan trace reported) := by
  induction reported generalizing f with
  | nil => rfl
  | cons id reported ih =>
      change ((view f).report _ _).reportScan trace reported = _
      rw [hreport]
      exact ih _

/-- Nor are the leftovers of a session reported differently, when the view shows them. -/
theorem Framework.reportLeftovers_view {view : Framework → Framework}
    (hreport : ∀ method data f, (view f).report method data = view (f.report method data))
    (hleakReport : ∀ typeName f, (view f).leakReport typeName = f.leakReport typeName)
    (hio : ∀ f, (view f).process.io = f.process.io) (typeName : Word → Word → Bytes)
    (f : Framework) :
    (view f).reportLeftovers typeName = view (f.reportLeftovers typeName) := by
  have hleaks : ((view f).leakReport typeName).elim (view f)
      (fun data => (view f).report .reportLeaks data) =
        view ((f.leakReport typeName).elim f fun data => f.report .reportLeaks data) := by
    rw [hleakReport]
    cases f.leakReport typeName with
    | none => rfl
    | some data => exact hreport .reportLeaks data f
  rw [reportLeftovers, reportLeftovers, hleaks, hio]
  cases f.process.io.reportLeakedFds with
  | none => rfl
  | some data => exact hreport .reportIoLeak data _

@[simp] theorem Framework.after_process (earlier : List ReporterCall) (f : Framework) :
    (f.after earlier).process = f.process := rfl

@[simp] theorem Framework.after_leakReport (earlier : List ReporterCall)
    (typeName : Word → Word → Bytes) (f : Framework) :
    (f.after earlier).leakReport typeName = f.leakReport typeName := rfl

theorem Framework.report_after (earlier : List ReporterCall) (method : ReporterMethod)
    (data : Json) (f : Framework) :
    (f.after earlier).report method data = (f.report method data).after earlier := by
  cases hreporter : f.process.core.reporter with
  | none => simp [report, after, hreporter]
  | some reporter => simp [report, after, hreporter]

theorem Framework.reportScan_after (earlier : List ReporterCall)
    (trace : Word → List StackFrame) (reported : List Word) (f : Framework) :
    (f.after earlier).reportScan trace reported = (f.reportScan trace reported).after earlier :=
  reportScan_view (report_after earlier) trace reported f

theorem Framework.reportLeftovers_after (earlier : List ReporterCall)
    (typeName : Word → Word → Bytes) (f : Framework) :
    (f.after earlier).reportLeftovers typeName = (f.reportLeftovers typeName).after earlier :=
  reportLeftovers_view (report_after earlier) (fun _ _ => rfl) (fun _ => rfl) typeName f

/-- No step reads the record of the reports. -/
theorem Framework.step_after (earlier : List ReporterCall) (f : Framework)
    (event : FrameworkEvent) :
    (f.after earlier).step event = (f.step event).map (Framework.after earlier) := by
  cases halive : f.alive with
  | false => simp [step, after, halive]
  | true =>
      have halive' : (f.after earlier).alive = true := halive
      simp only [step, halive, halive', Bool.true_eq_false, if_false]
      cases event with
      | init config memory sigstksz => rfl
      | shutdown typeName leaksMs ioLeakMs =>
          simp only [after_process, after_leakReport, reportLeftovers_after]
          cases hup : f.process.core.initialized with
          | false => rfl
          | true =>
              rcases hresult : f.process.shutdown
                  { leakReport := f.leakReport typeName, leaksMs := leaksMs,
                    ioLeakMs := ioLeakMs } with ⟨_ | _, process⟩
              · rfl
              · rfl
      | hook call =>
          change (f.tracker.ensureInit.step call).map _ = _
          rw [Option.map_map]
          rfl
      | openFd call fd | closeFd fd | sigaction sig action => rfl
      | scan sysconf samples trace =>
          simp only [after_process, reportScan_after]
          cases f.process.cpu.running with
          | false => rfl
          | true => rfl
      | crash sig trace =>
          simp only [after_process, report_after]
          cases f.process.signals.disposition sig with
          | handleCrashSignal => rfl
          | application action => rfl

section Settled

variable {p : Process}

theorem Process.settled_of_installed (hinstalled : p.crash.installed = true) :
    p.settled = p := by
  rw [settled, CrashHandler.settled, if_pos hinstalled]

theorem Process.settled_of_not_installed (hinstalled : p.crash.installed = false) :
    p.settled = { p with crash := CrashHandler.initial } := by
  simp [settled, CrashHandler.settled, hinstalled]

theorem CrashHandler.settled_settled (handler : CrashHandler) :
    handler.settled.settled = handler.settled := by
  cases hinstalled : handler.installed with
  | true => simp [settled, hinstalled]
  | false => simp [settled, hinstalled, initial]

theorem Process.settled_settled (p : Process) : p.settled.settled = p.settled := by
  rw [settled, settled, CrashHandler.settled_settled]

theorem Process.Gated.settled (hgated : p.Gated) : p.settled.Gated := by
  cases hinstalled : p.crash.installed with
  | true =>
      rw [settled_of_installed hinstalled]
      exact hgated
  | false =>
      rw [settled_of_not_installed hinstalled]
      refine { hgated with crash := ?_, disposition := ?_, saved := ?_ }
      · intro hon
        exact absurd hon Bool.false_ne_true
      · intro sig hsig
        rw [hgated.disposition sig hsig] at hinstalled
        contradiction
      · intro sig
        simp [CrashHandler.initial, Disposition.zero]

/-- `Init` writes the table before the handler is installed. -/
theorem Process.init_settled (config : DomovoyConfig) (memory sigstksz : Word)
    (p : Process) :
    (p.settled.init config memory sigstksz).settled =
      (p.init config memory sigstksz).settled := by
  cases hinstalled : p.crash.installed with
  | true => rw [settled_of_installed hinstalled]
  | false =>
      have hinitial : CrashHandler.initial.installed = false := rfl
      rw [settled_of_not_installed hinstalled]
      cases hup : p.core.initialized <;> cases hcrash : config.enableCrashHandler <;>
        cases hio : config.enableIoMonitoring <;> cases hcpu : config.enableCpuProfiler <;>
        simp [init, hup, hcrash, hio, hcpu, CrashHandler.install_eq hinstalled,
          CrashHandler.install_eq hinitial, settled, CrashHandler.settled, hinstalled, hinitial]

/-- Only the files are written by a report. -/
theorem Process.report_crash (p : Process) (crash : CrashHandler)
    (write : JsonFileReporter → Json → Disk → Except Thrown Unit × Disk)
    (report : Option Json) :
    Process.report { p with crash := crash } write report =
      ((p.report write report).1, { (p.report write report).2 with crash := crash }) := by
  cases report with
  | none => rfl
  | some data =>
      simp only [Process.report]
      cases p.core.reporter <;> rfl

theorem Process.report_handler (p : Process)
    (write : JsonFileReporter → Json → Disk → Except Thrown Unit × Disk)
    (report : Option Json) : (p.report write report).2.crash = p.crash := by
  rcases hreport : p.report write report with ⟨result, q⟩
  obtain ⟨disk, rfl⟩ := report_frame hreport
  rfl

/-- A teardown does not read the table of a handler that is not installed. -/
theorem Process.shutdown_settled (hinstalled : p.crash.installed = false)
    (env : ShutdownEnv) :
    p.settled.shutdown env = ((p.shutdown env).1, (p.shutdown env).2.settled) := by
  have hquieted : p.settled.quieted = { p.quieted with crash := CrashHandler.initial } := by
    have hinitial : CrashHandler.initial.installed = false := rfl
    rw [settled_of_not_installed hinstalled]
    simp [quieted, CrashHandler.uninstall_of_not_installed hinstalled,
      CrashHandler.uninstall_of_not_installed hinitial]
  have hoff : p.quieted.crash.installed = false := by
    simp [quieted, CrashHandler.uninstall_of_not_installed hinstalled, hinstalled]
  cases hup : p.core.initialized with
  | false =>
      have hup' : p.settled.core.initialized = false := hup
      rw [shutdown, if_pos hup', shutdown, if_pos hup]
  | true =>
      have hup' : p.settled.core.initialized = true := hup
      have hleaks' : p.settled.quieted.runLeakDetection env =
          ((p.quieted.runLeakDetection env).1,
            { (p.quieted.runLeakDetection env).2 with crash := CrashHandler.initial }) := by
        rw [hquieted]
        exact report_crash ..
      have hkept := report_handler p.quieted
        (fun reporter => reporter.reportLeaks env.leaksMs) env.leakReport
      change (p.quieted.runLeakDetection env).2.crash = _ at hkept
      rcases hleaks : p.quieted.runLeakDetection env with ⟨_ | _, q⟩
      · rw [hleaks] at hleaks' hkept
        rw [shutdown_of_leaksThrow hup' hleaks', shutdown_of_leaksThrow hup hleaks,
          settled_of_not_installed (hkept ▸ hoff)]
      · rw [hleaks] at hleaks' hkept
        have hio' : Process.reportLeakedFds env { q with crash := CrashHandler.initial } =
            ((q.reportLeakedFds env).1,
              { (q.reportLeakedFds env).2 with crash := CrashHandler.initial }) :=
          report_crash ..
        have hkept' := report_handler q
          (fun reporter => reporter.reportIoLeak env.ioLeakMs) q.io.reportLeakedFds
        change (q.reportLeakedFds env).2.crash = _ at hkept'
        rcases hio : q.reportLeakedFds env with ⟨_ | _, q'⟩
        · rw [hio] at hio' hkept'
          rw [shutdown_of_ioLeakThrow hup' hleaks' hio', shutdown_of_ioLeakThrow hup hleaks hio,
            settled_of_not_installed (hkept' ▸ hkept ▸ hoff)]
        · rw [hio] at hio' hkept'
          rw [shutdown_of_ok hup' hleaks' hio', shutdown_of_ok hup hleaks hio,
            settled_of_not_installed (by exact hkept' ▸ hkept ▸ hoff)]

end Settled

@[simp] theorem Framework.settled_process (f : Framework) :
    f.settled.process = f.process.settled := rfl

@[simp] theorem Framework.settled_leakReport (typeName : Word → Word → Bytes) (f : Framework) :
    f.settled.leakReport typeName = f.leakReport typeName := rfl

@[simp] theorem Process.settled_core (p : Process) : p.settled.core = p.core := rfl

@[simp] theorem Process.settled_signals (p : Process) : p.settled.signals = p.signals := rfl

@[simp] theorem Process.settled_cpu (p : Process) : p.settled.cpu = p.cpu := rfl

@[simp] theorem Framework.report_settled (method : ReporterMethod) (data : Json)
    (f : Framework) :
    f.settled.report method data = (f.report method data).settled := by
  cases hreporter : f.process.core.reporter with
  | none => simp [report, settled, Process.settled, hreporter]
  | some reporter => simp [report, settled, Process.settled, hreporter]

theorem Framework.reportScan_settled (trace : Word → List StackFrame) (reported : List Word)
    (f : Framework) :
    f.settled.reportScan trace reported = (f.reportScan trace reported).settled :=
  reportScan_view report_settled trace reported f

theorem Framework.reportLeftovers_settled (typeName : Word → Word → Bytes) (f : Framework) :
    f.settled.reportLeftovers typeName = (f.reportLeftovers typeName).settled :=
  reportLeftovers_view report_settled (fun _ _ => rfl) (fun _ => rfl) typeName f

theorem Framework.settled_withProcess {f g : Framework} {p q : Process}
    (hsame : f.settled = g.settled) (hprocess : p.settled = q.settled) :
    settled { f with process := p } = settled { g with process := q } := by
  rw [Framework.mk.injEq] at hsame
  simp only [settled, hprocess]
  rw [Framework.mk.injEq]
  exact ⟨rfl, hsame.2⟩

theorem Framework.settled_settled (f : Framework) : f.settled.settled = f.settled := by
  rw [settled, settled, Process.settled_settled]

/-- What a step makes of a framework does not depend on the table of a handler that is
not installed. -/
theorem Framework.step_settled (hgated : f.process.Gated) (event : FrameworkEvent) :
    (f.settled.step event).map settled = (f.step event).map settled := by
  cases hinstalled : f.process.crash.installed with
  | true => rw [settled, Process.settled_of_installed hinstalled]
  | false =>
      cases halive : f.alive with
      | false => simp [step, settled, halive]
      | true =>
          have halive' : f.settled.alive = true := halive
          simp only [step, halive, halive', Bool.true_eq_false, if_false]
          cases event with
          | init config memory sigstksz =>
              have hinit := Process.init_settled config memory sigstksz f.process
              simp only [Option.map_some, settled, hinit]
          | shutdown typeName leaksMs ioLeakMs =>
              have hshutdown := Process.shutdown_settled hinstalled
                { leakReport := f.leakReport typeName, leaksMs := leaksMs,
                  ioLeakMs := ioLeakMs }
              cases hup : f.process.core.initialized with
              | false =>
                  simp only [settled_process, Process.settled_core, hup, Bool.false_eq_true,
                    if_false, Option.map_some, settled_settled]
              | true =>
                  simp only [settled_process, Process.settled_core, hup, if_true,
                    settled_leakReport, hshutdown, reportLeftovers_settled]
                  rcases f.process.shutdown
                    { leakReport := f.leakReport typeName, leaksMs := leaksMs,
                      ioLeakMs := ioLeakMs } with ⟨_ | _, process⟩
                  · rfl
                  · exact congrArg some (settled_withProcess (settled_settled _)
                      (Process.settled_settled _))
          | hook call =>
              change ((f.tracker.ensureInit.step call).map _).map _ = _
              rw [Option.map_map, Option.map_map]
              congr 1
              funext tracker
              exact congrArg (fun p => Framework.mk p _ _ _ _) f.process.settled_settled
          | openFd call fd | closeFd fd | sigaction sig action =>
              simp only [Option.map_some, settled, Process.settled,
                CrashHandler.settled_settled]
          | scan sysconf samples trace =>
              simp only [settled_process, Process.settled_cpu, reportScan_settled]
              cases f.process.cpu.running with
              | false => rfl
              | true =>
                  simp only [if_true, Option.map_some, settled, Process.settled,
                    CrashHandler.settled_settled]
          | crash sig trace =>
              simp only [settled_process, Process.settled_signals, report_settled]
              cases hdisposition : f.process.signals.disposition sig with
              | handleCrashSignal =>
                  rw [hgated.disposition sig hdisposition] at hinstalled
                  contradiction
              | application action =>
                  exact congrArg (fun f : Framework => some { f with alive := action.survives })
                    f.settled_settled

/-- A component that is off holds nothing. -/
structure Process.Clean (p : Process) : Prop where
  core : p.core.initialized = false → p.core = Core.initial
  cpu : p.cpu.running = false → p.cpu.threadStates = ∅
  io : p.io.enabled = false → p.io.openFds = ∅

theorem IoMonitor.record_clean (call : IoCall) (fd : Int) {monitor : IoMonitor}
    (hclean : monitor.enabled = false → monitor.openFds = ∅) :
    (call.record fd monitor).enabled = false → (call.record fd monitor).openFds = ∅ := by
  rw [call.record_enabled]
  intro hoff
  cases call <;> simp [IoCall.record, onOpen, onSocket, hoff, hclean hoff]

theorem IoMonitor.onClose_clean (fd : Int) {monitor : IoMonitor}
    (hclean : monitor.enabled = false → monitor.openFds = ∅) :
    (monitor.onClose fd).enabled = false → (monitor.onClose fd).openFds = ∅ := by
  rw [onClose_enabled]
  intro hoff
  simp [onClose, hoff, hclean hoff]

theorem Process.Clean.init {p : Process} (hclean : p.Clean) (hgated : p.Gated)
    (config : DomovoyConfig) (memory sigstksz : Word) : (p.init config memory sigstksz).Clean := by
  cases hup : p.core.initialized with
  | true =>
      rw [Process.init_of_initialized hup]
      exact hclean
  | false =>
      rw [hgated.init_eq hup]
      refine ⟨fun hoff => absurd hoff.symm Bool.false_ne_true, ?_, ?_⟩
      · cases config.enableCpuProfiler with
        | true => exact fun hoff => absurd hoff.symm Bool.false_ne_true
        | false => exact hclean.cpu
      · cases config.enableIoMonitoring with
        | true => exact fun hoff => absurd hoff.symm Bool.false_ne_true
        | false => exact hclean.io

theorem Process.Clean.shutdown {p q : Process} (hclean : p.Clean) {env : ShutdownEnv}
    (hup : p.core.initialized = true) (hshutdown : p.shutdown env = (.ok (), q)) :
    q.Clean := by
  obtain ⟨disk, rfl⟩ := shutdown_ok hup hshutdown
  refine ⟨fun _ => rfl, ?_, ?_⟩
  · change p.cpu.stop.running = false → p.cpu.stop.threadStates = ∅
    rw [CpuMonitor.stop]
    split
    · exact fun _ => rfl
    · exact hclean.cpu
  · change p.io.disable.enabled = false → p.io.disable.openFds = ∅
    rw [IoMonitor.disable]
    split
    · exact fun _ => rfl
    · exact hclean.io

theorem Framework.step_clean (hclean : f.process.Clean) (hgated : f.process.Gated)
    (hstep : f.step event = some next) : next.process.Clean := by
  have halive : f.alive = true := by
    by_contra hdead
    simp [step, hdead] at hstep
  simp only [step, halive, Bool.true_eq_false, if_false] at hstep
  cases event with
  | init config memory sigstksz =>
      obtain rfl := Option.some.inj hstep
      exact hclean.init hgated config memory sigstksz
  | shutdown typeName leaksMs ioLeakMs =>
      cases hup : f.process.core.initialized with
      | false =>
          simp only [hup, Bool.false_eq_true, if_false, Option.some.injEq] at hstep
          subst hstep
          exact hclean
      | true =>
          simp only [hup, if_true] at hstep
          split at hstep
          · next process hshutdown =>
              obtain rfl := Option.some.inj hstep
              exact hclean.shutdown hup hshutdown
          · contradiction
  | hook call =>
      obtain ⟨tracker, -, rfl⟩ := Option.map_eq_some_iff.mp hstep
      exact hclean
  | openFd call fd =>
      obtain rfl := Option.some.inj hstep
      exact ⟨hclean.core, hclean.cpu, IoMonitor.record_clean call fd hclean.io⟩
  | closeFd fd =>
      obtain rfl := Option.some.inj hstep
      exact ⟨hclean.core, hclean.cpu, IoMonitor.onClose_clean fd hclean.io⟩
  | sigaction sig action =>
      obtain rfl := Option.some.inj hstep
      exact ⟨hclean.core, hclean.cpu, hclean.io⟩
  | scan sysconf samples trace =>
      obtain ⟨hrunning, hafter⟩ := Option.ite_none_right_eq_some.mp hstep
      obtain rfl := Option.some.inj hafter
      refine ⟨hclean.core, fun hoff => ?_, hclean.io⟩
      rw [hrunning] at hoff
      contradiction
  | crash sig trace =>
      dsimp only at hstep
      split at hstep
      · obtain rfl := Option.some.inj hstep
        rw [report_process]
        exact hclean
      · obtain rfl := Option.some.inj hstep
        exact hclean

/-- Outside of a session nothing is left of the earlier ones but their reports and the
allocation map. -/
theorem Framework.settled_eq_fresh (hclean : f.process.Clean) (hgated : f.process.Gated)
    (hdown : f.process.core.initialized = false) : f.settled = f.fresh.after f.calls := by
  rcases f with ⟨⟨core, crash, signals, cpu, io, disk⟩, gAllocations, heap, alive, calls⟩
  have hinstalled : crash.installed = false := off_of_down hgated.crash hdown
  have hrunning : cpu.running = false := off_of_down hgated.cpu hdown
  have henabled : io.enabled = false := off_of_down hgated.io hdown
  have hcore : core = Core.initial := hclean.core hdown
  have hcpu : cpu = CpuMonitor.initial := by
    have hstates := hclean.cpu hrunning
    rcases cpu with ⟨running, threadStates⟩
    obtain rfl : running = false := hrunning
    obtain rfl : threadStates = ∅ := hstates
    rfl
  have hio : io = IoMonitor.initial := by
    have hfds := hclean.io henabled
    rcases io with ⟨enabled, openFds⟩
    obtain rfl : enabled = false := henabled
    obtain rfl : openFds = ∅ := hfds
    rfl
  subst hcore hcpu hio
  rw [settled, Process.settled_of_not_installed hinstalled, fresh, after, List.append_nil]

theorem Framework.reached_clean {actions : CrashSignal → SigAction}
    {altStack : Option AltStack} {disk : Disk} {events : List FrameworkEvent}
    (hrun : run Framework.step (Framework.initial actions altStack disk) events = some f) :
    f.process.Clean ∧ f.process.Gated := by
  have hinitial : (Framework.initial actions altStack disk).process.Clean :=
    ⟨fun _ => rfl, fun _ => rfl, fun _ => rfl⟩
  have hstep : ∀ (g : Framework) event next, g.process.Clean ∧ g.process.Gated →
      g.step event = some next → next.process.Clean ∧ next.process.Gated := by
    rintro g event next ⟨hclean, hgated⟩ hnext
    exact ⟨step_clean hclean hgated hnext, step_gated hgated hnext⟩
  exact run_invariant hstep ⟨hinitial, Framework.initial_gated actions altStack disk⟩ hrun

/-- Whatever sessions came before: outside of a session the framework goes on, one event
after another, exactly as one that has never started a session would, with the same
reports after the earlier ones. -/
theorem sessions_independent (actions : CrashSignal → SigAction)
    (altStack : Option AltStack) (disk : Disk) (earlier : List FrameworkEvent)
    (f : Framework)
    (hrun : run Framework.step (Framework.initial actions altStack disk) earlier = some f)
    (hdown : f.process.core.initialized = false) (later : List FrameworkEvent) :
    (run Framework.step f later).map Framework.settled =
      (run Framework.step f.fresh later).map fun final =>
        final.settled.after f.calls := by
  obtain ⟨hclean, hgated⟩ := Framework.reached_clean hrun
  have hsettled := Framework.settled_eq_fresh hclean hgated hdown
  have hstep : ∀ (g g' : Framework) event, g.process.Gated → g'.process.Gated →
      g.settled = g'.settled →
        (g.step event).map Framework.settled = (g'.step event).map Framework.settled := by
    intro g g' event hg hg' hsame
    rw [← Framework.step_settled hg, ← Framework.step_settled hg', hsame]
  have hfresh : (f.fresh.after f.calls).process.Gated := by
    rw [← hsettled]
    exact hgated.settled
  calc (run Framework.step f later).map Framework.settled
      = (run Framework.step (f.fresh.after f.calls) later).map Framework.settled := by
        refine run_observe (fun g : Framework => g.process.Gated)
          (fun _ _ _ hg hnext => Framework.step_gated hg hnext) hstep hgated hfresh ?_ later
        rw [← hsettled, Framework.settled_settled]
    _ = ((run Framework.step f.fresh later).map (Framework.after f.calls)).map
          Framework.settled := by
        rw [run_map (Framework.step_after f.calls)]
    _ = _ := by
        rw [Option.map_map]
        rfl

namespace FreshStartWitness

open OptInWitness

/-- The sessions before, which leave nothing but two reports and an address that has been
freed. -/
def reported : Framework :=
  (run Framework.step start reporting).get reporting_runs

theorem reported_down : reported.process.core.initialized = false := by
  decide +kernel

/-- A session with every component. -/
def everything : List FrameworkEvent :=
  [.init { enableLeakDetection := true, enableCpuProfiler := true, enableIoMonitoring := true,
           enableCrashHandler := true } 0x7000 8192,
    .hook ⟨.malloc 8, ⟨.block 0x3000, true⟩⟩, .openFd (.open none) 7, .crash .sigbus [],
    .shutdown noNames 30 30]

theorem reported_independent :
    (run Framework.step reported everything).map Framework.settled =
      (run Framework.step reported.fresh everything).map fun final =>
        final.settled.after reported.calls :=
  sessions_independent actions none { writable := true, files := ∅ } reporting reported
    (Option.some_get reporting_runs).symm reported_down everything

end FreshStartWitness

end Domovoy
