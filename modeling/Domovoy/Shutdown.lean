/-
When the teardown completes and delivers the report on leaked descriptors, after
any run of the IO hooks.
-/
import Domovoy.Core
import Domovoy.IoSteps

namespace Domovoy

open Transition

/-- A session that can write its reports. -/
structure Process.InSession (p : Process) (reporter : JsonFileReporter) : Prop where
  initialized : p.core.initialized = true
  reporter : p.core.reporter = some reporter
  writable : p.disk.writable = true

/-- Every string of a report that is made is valid UTF-8. -/
def Reportable (report : Option Json) : Prop :=
  ∀ data, report = some data → data.Utf8

theorem Process.report_some {p : Process} {reporter : JsonFileReporter}
    (hsession : p.InSession reporter) (data : Json)
    (write : JsonFileReporter → Json → Disk → Except Thrown Unit × Disk) :
    p.report write (some data) =
      ((write reporter data p.disk).1,
        { p with disk := (write reporter data p.disk).2 }) := by
  simp [report, hsession.reporter]

/-- Writing a report throws exactly when it is not reportable, and leaves the
session as it was, apart from the files. -/
theorem Process.report_writeToFile {p : Process} {reporter : JsonFileReporter}
    (hsession : p.InSession reporter) (name : String) (ms : Nat) (report : Option Json) :
    ∃ result disk,
      p.report (fun reporter => reporter.writeToFile name ms) report =
        (result, { p with disk := disk }) ∧
      disk.writable = true ∧ (result = .ok () ↔ Reportable report) ∧
      (result = .ok () → ∀ data, report = some data →
        disk.files.lookup (reportFile reporter.outputDir name ms) = some (some data)) := by
  cases report with
  | none =>
      refine ⟨.ok (), p.disk, rfl, hsession.writable, iff_of_true rfl nofun, ?_⟩
      intro _ data hdata
      contradiction
  | some data =>
      rw [report_some hsession]
      by_cases hutf8 : data.Utf8
      · rw [JsonFileReporter.writeToFile_of_utf8 hsession.writable hutf8]
        refine ⟨_, _, rfl, hsession.writable, iff_of_true rfl ?_, ?_⟩
        · rintro data' ⟨rfl⟩
          exact hutf8
        · rintro - data' ⟨rfl⟩
          simp
      · rw [JsonFileReporter.writeToFile_of_not_utf8 hsession.writable hutf8]
        refine ⟨_, _, rfl, hsession.writable, iff_of_false nofun ?_, nofun⟩
        intro hreportable
        exact hutf8 (hreportable data rfl)

/-- The process once the crash handler and the CPU monitor have been stopped. -/
def Process.quieted (p : Process) : Process :=
  { p with
    crash := (p.crash.uninstall p.signals).1
    signals := (p.crash.uninstall p.signals).2
    cpu := p.cpu.stop }

/-- What leaves leak detection leaves the teardown. -/
theorem Process.shutdown_of_leaksThrow {p q : Process} {env : ShutdownEnv}
    {thrown : Thrown} (hinitialized : p.core.initialized = true)
    (hleaks : p.quieted.runLeakDetection env = (.error thrown, q)) :
    p.shutdown env = (.error thrown, q) := by
  rcases huninstall : p.crash.uninstall p.signals with ⟨crash, signals⟩
  simp only [quieted, huninstall] at hleaks
  simp [shutdown, hinitialized, huninstall, hleaks]

theorem Process.shutdown_of_ioLeakThrow {p q q' : Process} {env : ShutdownEnv}
    {thrown : Thrown} (hinitialized : p.core.initialized = true)
    (hleaks : p.quieted.runLeakDetection env = (.ok (), q))
    (hioLeak : q.reportLeakedFds env = (.error thrown, q')) :
    p.shutdown env = (.error thrown, q') := by
  rcases huninstall : p.crash.uninstall p.signals with ⟨crash, signals⟩
  simp only [quieted, huninstall] at hleaks
  simp [shutdown, hinitialized, huninstall, hleaks, hioLeak]

/-- With both reports written the components are torn down. -/
theorem Process.shutdown_of_ok {p q q' : Process} {env : ShutdownEnv}
    (hinitialized : p.core.initialized = true)
    (hleaks : p.quieted.runLeakDetection env = (.ok (), q))
    (hioLeak : q.reportLeakedFds env = (.ok (), q')) :
    p.shutdown env = (.ok (), { q' with io := q'.io.disable, core := Core.initial }) := by
  rcases huninstall : p.crash.uninstall p.signals with ⟨crash, signals⟩
  simp only [quieted, huninstall] at hleaks
  simp [shutdown, hinitialized, huninstall, hleaks, hioLeak]

/-- The teardown completes if and only if both reports can be serialised; it then
leaves nothing of the session but the files, the report on descriptors among
them. -/
theorem Process.shutdown_spec {p : Process} {reporter : JsonFileReporter}
    (hsession : p.InSession reporter) (env : ShutdownEnv) :
    ((p.shutdown env).1 = .ok () ↔
      Reportable env.leakReport ∧ Reportable p.io.reportLeakedFds) ∧
    ((p.shutdown env).1 = .ok () →
      (p.shutdown env).2.core = Core.initial ∧ (p.shutdown env).2.io = p.io.disable ∧
        ∀ data, p.io.reportLeakedFds = some data →
          (p.shutdown env).2.disk.files.lookup
            (reportFile reporter.outputDir "domovoy_io_leak" env.ioLeakMs) =
              some (some data)) := by
  have hquieted : p.quieted.InSession reporter :=
    ⟨hsession.initialized, hsession.reporter, hsession.writable⟩
  obtain ⟨leaks, disk, hleaks, hwritable, hleaksOk, -⟩ :=
    report_writeToFile hquieted "domovoy_leaks" env.leaksMs env.leakReport
  have hleaksStep : p.quieted.runLeakDetection env =
      (leaks, { p.quieted with disk := disk }) := hleaks
  have hreported : Process.InSession { p.quieted with disk := disk } reporter :=
    ⟨hsession.initialized, hsession.reporter, hwritable⟩
  obtain ⟨ioLeak, disk', hioLeak, -, hioLeakOk, hfile⟩ :=
    report_writeToFile hreported "domovoy_io_leak" env.ioLeakMs p.io.reportLeakedFds
  have hioLeakStep : Process.reportLeakedFds env { p.quieted with disk := disk } =
      (ioLeak, { p.quieted with disk := disk' }) := hioLeak
  cases leaks with
  | error thrown =>
      rw [shutdown_of_leaksThrow hsession.initialized hleaksStep]
      refine ⟨iff_of_false (by simp) ?_, by simp⟩
      rintro ⟨hreportable, -⟩
      have hok := hleaksOk.mpr hreportable
      contradiction
  | ok =>
      cases ioLeak with
      | error thrown =>
          rw [shutdown_of_ioLeakThrow hsession.initialized hleaksStep hioLeakStep]
          refine ⟨iff_of_false (by simp) ?_, by simp⟩
          rintro ⟨-, hreportable⟩
          have hok := hioLeakOk.mpr hreportable
          contradiction
      | ok =>
          rw [shutdown_of_ok hsession.initialized hleaksStep hioLeakStep]
          refine ⟨iff_of_true rfl ⟨hleaksOk.mp rfl, hioLeakOk.mp rfl⟩, ?_⟩
          intro _
          exact ⟨rfl, rfl, hfile rfl⟩

variable {Tid : Type} [DecidableEq Tid]

/-- `Shutdown` returns, the file of the report on descriptors has one entry for each
that is still open, and nothing of the session is left. -/
structure Process.Delivers (env : ShutdownEnv) (reporter : JsonFileReporter)
    (s : IoState Tid) (p : Process) : Prop where
  returns : (p.shutdown env).1 = .ok ()
  core : (p.shutdown env).2.core = Core.initial
  disabled : (p.shutdown env).2.io.enabled = false
  empty : (p.shutdown env).2.io.openFds = ∅
  delivered : (∃ fd, s.openBy fd ≠ none) → ∃ leaked,
    (p.shutdown env).2.disk.files.lookup
      (reportFile reporter.outputDir "domovoy_io_leak" env.ioLeakMs) =
        some (some (fdLeakJson leaked)) ∧
    (leaked.map Prod.fst).Nodup ∧ ∀ fd, fd ∈ leaked.map Prod.fst ↔ s.openBy fd ≠ none

/-- The path of every call whose descriptor is still open is valid UTF-8 in its
first 1023 bytes. -/
def IoState.PathsUtf8 (s : IoState Tid) : Prop :=
  ∀ fd call, s.openBy fd = some call →
    ValidUtf8 (call.path.bytes.take (pathCapacity - 1))

omit [DecidableEq Tid] in
theorem IoState.reportable_iff {s : IoState Tid} (hreport : s.ReportExact) :
    Reportable s.monitor.reportLeakedFds ↔ s.PathsUtf8 := by
  have hentries : Reportable s.monitor.reportLeakedFds ↔
      ∀ entry ∈ s.monitor.leakedFds, ValidUtf8 entry.2.path.bytes := by
    rw [hreport.report]
    by_cases hempty : s.monitor.leakedFds = []
    · simp [hempty, Reportable]
    · rw [if_neg hempty, ← fdLeakJson_utf8_iff]
      simp [Reportable]
  rw [hentries]
  constructor
  · intro hall fd call hopen
    obtain ⟨info, hinfo⟩ := hreport.complete fd (by simp [hopen])
    obtain ⟨call', hopen', hof⟩ := hreport.sound fd info hinfo
    obtain rfl := Option.some.inj (hopen.symm.trans hopen')
    rw [← hof.2]
    exact hall (fd, info) hinfo
  · rintro hpaths ⟨fd, info⟩ hentry
    obtain ⟨call, hopen, hof⟩ := hreport.sound fd info hentry
    change ValidUtf8 info.path.bytes
    rw [hof.2]
    exact hpaths fd call hopen

/-- Whatever descriptors a session leaves open: the shutdown completes and delivers
the report on them if and only if the report on memory leaks, if there is one, and
the first 1023 bytes of every leaked descriptor's path are valid UTF-8. -/
theorem shutdown_delivers_iff (labels : List (IoStep Tid)) (s : IoState Tid)
    (hrun : run IoState.step (IoState.initial Tid) labels = some s)
    (hquiescent : s.Quiescent) (reporter : JsonFileReporter) (p : Process)
    (hsession : p.InSession reporter) (hio : p.io = s.monitor) (env : ShutdownEnv) :
    p.Delivers env reporter s ↔ Reportable env.leakReport ∧ s.PathsUtf8 := by
  have hmonitoring : s.Monitoring :=
    run_invariant (fun _ _ _ => IoState.step_monitoring) IoState.initial_monitoring hrun
  have hreport : s.ReportExact :=
    IoState.reportExact_of_exact hmonitoring.enabled
      (IoState.exact_of_inv (IoState.inv_of_run hrun)) hquiescent
  obtain ⟨hreturns, hafter⟩ := p.shutdown_spec hsession env
  rw [hio, IoState.reportable_iff hreport] at hreturns
  rw [← hreturns]
  constructor
  · exact Process.Delivers.returns
  · intro hok
    obtain ⟨hcore, hdisabled, hfile⟩ := hafter hok
    have hoff : p.io.disable = IoMonitor.initial := by
      rw [hio, IoMonitor.disable, if_pos hmonitoring.enabled]
      rfl
    refine ⟨hok, hcore, by rw [hdisabled, hoff]; rfl, by rw [hdisabled, hoff]; rfl, ?_⟩
    rintro ⟨fd, hopen⟩
    have hleaked : s.monitor.leakedFds ≠ [] := by
      obtain ⟨info, hinfo⟩ := hreport.complete fd hopen
      exact List.ne_nil_of_mem hinfo
    refine ⟨s.monitor.leakedFds, ?_, hreport.nodup, ?_⟩
    · apply hfile
      rw [hio, hreport.report, if_neg hleaked]
    · intro fd'
      constructor
      · intro hmem
        obtain ⟨⟨fd'', info⟩, hentry, rfl⟩ := List.mem_map.mp hmem
        obtain ⟨call, hcall, -⟩ := hreport.sound fd'' info hentry
        simp [hcall]
      · intro hopen'
        obtain ⟨info, hinfo⟩ := hreport.complete fd' hopen'
        exact List.mem_map_of_mem hinfo

namespace ShutdownWitness

open IoWitness

def reporter : JsonFileReporter where
  outputDir := "."

/-- A session with IO monitoring on. -/
def session (io : IoMonitor) : Process where
  core := {
    config := { enableIoMonitoring := true }
    reporter := some reporter
    initialized := true }
  crash := CrashHandler.initial
  signals := { disposition := fun _ => .zero, altStack := none }
  cpu := CpuMonitor.initial
  io := io
  disk := { writable := true, files := ∅ }

def quiet : ShutdownEnv where
  leakReport := none
  leaksMs := 1000
  ioLeakMs := 1001

theorem session_inSession (io : IoMonitor) : (session io).InSession reporter :=
  ⟨rfl, rfl, rfl⟩

/-- One open descriptor, at the given path. -/
def openAt (path : CString) : IoState Bool where
  monitor := IoMonitor.initial.enable.onOpen 3 (some path)
  openBy := Function.update (fun _ => none) 3 (some (.open (some path)))
  owned := Function.update (fun _ => false) 3 true
  pc := Function.update (Function.update (Function.update (fun _ => .idle) false
    (.calling (.open (some path)))) false (.recording 3 (.open (some path)))) false
      .idle

theorem openAt_runs (path : CString) :
    run IoState.step start [first (.call (.open (some path))), first (.kernel (some 3)),
      first .monitor] = some (openAt path) :=
  rfl

theorem openAt_quiescent (path : CString) : (openAt path).Quiescent := by
  intro t
  cases t <;> simp [openAt]

theorem readme_delivers_iff :
    (session (openAt readme).monitor).Delivers quiet reporter (openAt readme) ↔
      Reportable quiet.leakReport ∧ (openAt readme).PathsUtf8 :=
  shutdown_delivers_iff _ (openAt readme) (openAt_runs readme) (openAt_quiescent readme)
    reporter (session (openAt readme).monitor) (session_inSession _) rfl quiet

/-- A file name in Latin-1: `café`. -/
def latin1 : CString where
  bytes := [0x63, 0x61, 0x66, 0xe9]
  nulFree := by decide

/-- `Shutdown` throws in the middle of the teardown: IO monitoring stays on and the
core stays initialised. -/
theorem latin1_not_delivered :
    ¬ (session (openAt latin1).monitor).Delivers quiet reporter (openAt latin1) := by
  intro hdelivers
  have hrecorded : ¬ Json.Utf8 (fdLeakJson (openAt latin1).monitor.leakedFds) := by
    rw [fdLeakJson_utf8_iff]
    decide
  have hspec := (session (openAt latin1).monitor).shutdown_spec (session_inSession _) quiet
  exact hrecorded ((hspec.1.mp hdelivers.returns).2 _ rfl)

end ShutdownWitness

end Domovoy
