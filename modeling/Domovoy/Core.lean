/-
The core of the framework: the reporter that writes JSON files, the components that
`Init` starts, and the teardown that `Shutdown` makes of each in turn.
-/
import Domovoy.CpuMonitor
import Domovoy.CrashHandler
import Domovoy.IoMonitor

namespace Domovoy

open WordAlign

structure JsonFileReporter where
  outputDir : String
deriving DecidableEq, Repr

/-- The files that reports are written to; one that was opened and never written
holds `none`. -/
structure Disk where
  writable : Bool
  files : AList fun _ : String => Option Json

def reportFile (outputDir name : String) (ms : Nat) : String :=
  outputDir ++ "/" ++ name ++ "_" ++ toString ms ++ ".json"

/-- Opening the file truncates it; `dump` may still throw afterwards. -/
def JsonFileReporter.writeToFile (reporter : JsonFileReporter) (name : String) (ms : Nat)
    (data : Json) (disk : Disk) : Except Thrown Unit × Disk :=
  let filename := reportFile reporter.outputDir name ms
  if disk.writable then
    match data.dump with
    | .ok text => (.ok (), { disk with files := disk.files.insert filename (some text) })
    | .error thrown =>
        (.error thrown, { disk with files := disk.files.insert filename none })
  else (.ok (), disk)

def JsonFileReporter.reportLeaks (reporter : JsonFileReporter) :=
  reporter.writeToFile "domovoy_leaks"

def JsonFileReporter.reportIoLeak (reporter : JsonFileReporter) :=
  reporter.writeToFile "domovoy_io_leak"

def JsonFileReporter.reportHighCpu (reporter : JsonFileReporter) :=
  reporter.writeToFile "domovoy_cpu"

def JsonFileReporter.reportCrash (reporter : JsonFileReporter) :=
  reporter.writeToFile "domovoy_crash"

/-- The methods of the interface `Reporter`. -/
inductive ReporterMethod where
  | reportLeaks
  | reportHighCpu
  | reportIoLeak
  | reportCrash
deriving DecidableEq, Repr

def JsonFileReporter.call (reporter : JsonFileReporter) :
    ReporterMethod → Nat → Json → Disk → Except Thrown Unit × Disk
  | .reportLeaks => reporter.reportLeaks
  | .reportHighCpu => reporter.reportHighCpu
  | .reportIoLeak => reporter.reportIoLeak
  | .reportCrash => reporter.reportCrash

structure Core where
  config : DomovoyConfig
  reporter : Option JsonFileReporter
  initialized : Bool
deriving DecidableEq, Repr

def Core.initial : Core where
  config := {}
  reporter := none
  initialized := false

structure Process where
  core : Core
  crash : CrashHandler
  signals : SignalState
  cpu : CpuMonitor
  io : IoMonitor
  disk : Disk

/-- `memory` and `sigstksz` are the signal stack, if the crash handler asks for one. -/
def Process.init (config : DomovoyConfig) (memory sigstksz : Word) (p : Process) :
    Process :=
  if p.core.initialized then p
  else
    let reporter : JsonFileReporter := { outputDir := config.outputDir }
    let p := { p with core := { p.core with config := config, reporter := some reporter } }
    let p :=
      if config.enableCrashHandler then
        let (crash, signals) := p.crash.install memory sigstksz p.signals
        { p with crash := crash, signals := signals }
      else p
    let p := if config.enableIoMonitoring then { p with io := p.io.enable } else p
    let p := if config.enableCpuProfiler then { p with cpu := p.cpu.start } else p
    { p with core := { p.core with initialized := true } }

/-- What a shutdown meets: the report that leak detection builds when it finds a
leak, and the clock at the two points where a report is written. -/
structure ShutdownEnv where
  leakReport : Option Json
  leaksMs : Nat
  ioLeakMs : Nat

def Process.report (p : Process)
    (write : JsonFileReporter → Json → Disk → Except Thrown Unit × Disk)
    (report : Option Json) : Except Thrown Unit × Process :=
  match report, p.core.reporter with
  | some report, some reporter =>
      let (result, disk) := write reporter report p.disk
      (result, { p with disk := disk })
  | _, _ => (.ok (), p)

def Process.runLeakDetection (env : ShutdownEnv) (p : Process) :
    Except Thrown Unit × Process :=
  p.report (fun reporter => reporter.reportLeaks env.leaksMs) env.leakReport

def Process.reportLeakedFds (env : ShutdownEnv) (p : Process) :
    Except Thrown Unit × Process :=
  p.report (fun reporter => reporter.reportIoLeak env.ioLeakMs) p.io.reportLeakedFds

/-- An exception leaves the remaining steps of the teardown undone. -/
def Process.shutdown (env : ShutdownEnv) (p : Process) : Except Thrown Unit × Process :=
  if p.core.initialized = false then (.ok (), p)
  else
    let (crash, signals) := p.crash.uninstall p.signals
    let p := { p with crash := crash, signals := signals, cpu := p.cpu.stop }
    match p.runLeakDetection env with
    | (.error thrown, p) => (.error thrown, p)
    | (.ok (), p) =>
        match p.reportLeakedFds env with
        | (.error thrown, p) => (.error thrown, p)
        | (.ok (), p) =>
            (.ok (), { p with io := p.io.disable, core := Core.initial })

theorem JsonFileReporter.writeToFile_of_utf8 {reporter : JsonFileReporter} {disk : Disk}
    (hwritable : disk.writable = true) {data : Json} (hutf8 : data.Utf8) (name : String)
    (ms : Nat) :
    reporter.writeToFile name ms data disk =
      (.ok (), { disk with
        files := disk.files.insert (reportFile reporter.outputDir name ms)
          (some data) }) := by
  simp [writeToFile, hwritable, Json.dump, hutf8]

theorem JsonFileReporter.writeToFile_of_not_utf8 {reporter : JsonFileReporter}
    {disk : Disk} (hwritable : disk.writable = true) {data : Json} (hutf8 : ¬ data.Utf8)
    (name : String) (ms : Nat) :
    reporter.writeToFile name ms data disk =
      (.error .typeError, { disk with
        files := disk.files.insert (reportFile reporter.outputDir name ms) none }) := by
  simp [writeToFile, hwritable, Json.dump, hutf8]

end Domovoy
