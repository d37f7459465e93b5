/-
Crashes on Windows over whole runs: sessions come and go, the application sets filters of
its own, and an exception that nothing else handles goes to the filter of the process.
-/
import Domovoy.Backtrace
import Domovoy.Core
import Domovoy.CrashFilter

namespace Domovoy

open WordAlign Transition

/-- The exceptions that `UnhandledExceptionFilter` reports. -/
def reportedExceptions : List (BitVec 32) :=
  [0xC0000005, -- EXCEPTION_ACCESS_VIOLATION
    0xC000001D, -- EXCEPTION_ILLEGAL_INSTRUCTION
    0xC0000094, -- EXCEPTION_INT_DIVIDE_BY_ZERO
    0xC00000FD] -- EXCEPTION_STACK_OVERFLOW

/-- What a filter returns. -/
inductive FilterAnswer where
  | executeHandler
  | continueSearch
  | continueExecution
deriving DecidableEq

def exceptionJson (code : BitVec 32) (trace : List StackFrame) : Json :=
  .object [("backtrace", backtraceJson trace), ("signal", .number code.toNat),
    ("type", .string (literal "crash"))]

/-- The crash handler and the core, the reports made, and the filter that was called for
each exception. -/
structure WindowsProcess where
  filters : FilterWorld
  core : Core
  alive : Bool
  reports : List Json
  called : List FilterPtr

def WindowsProcess.initial (filter : Option Word) : WindowsProcess where
  filters := .initial filter
  core := Core.initial
  alive := true
  reports := []
  called := []

inductive WindowsEvent where
  | init (config : DomovoyConfig)
  /-- A shutdown that returns. -/
  | shutdown
  /-- The application calls `SetUnhandledExceptionFilter`. -/
  | setFilter (filter : Option Word)
  | exception (code : BitVec 32) (trace : List StackFrame)
deriving DecidableEq

def WindowsProcess.reportCrash (data : Json) (p : WindowsProcess) : WindowsProcess :=
  match p.core.reporter with
  | some _ => { p with reports := p.reports ++ [data] }
  | none => p

/-- `answers` is what the filters of the application return; `none` where the filter calls
itself without end. -/
def WindowsProcess.unhandledExceptionFilter (answers : Word → BitVec 32 → FilterAnswer)
    (code : BitVec 32) (trace : List StackFrame) (p : WindowsProcess) :
    Option (FilterAnswer × WindowsProcess) :=
  let p := if code ∈ reportedExceptions then p.reportCrash (exceptionJson code trace) else p
  match p.filters.handler.previousFilter with
  | some (.application address) => some (answers address code, p)
  | some .unhandledExceptionFilter => none
  | none => some (.continueSearch, p)

/-- What the filter of the process makes of an exception. -/
def WindowsProcess.dispatch (answers : Word → BitVec 32 → FilterAnswer) (code : BitVec 32)
    (trace : List StackFrame) (p : WindowsProcess) :
    Option (FilterAnswer × WindowsProcess) :=
  match p.filters.topLevel with
  | none => some (.continueSearch, p)
  | some (.application address) => some (answers address code, p)
  | some .unhandledExceptionFilter => p.unhandledExceptionFilter answers code trace

def WindowsProcess.step (answers : Word → BitVec 32 → FilterAnswer) (p : WindowsProcess)
    (event : WindowsEvent) : Option WindowsProcess :=
  if p.alive = false then none
  else
    match event with
    | .init config =>
        if p.core.initialized then some p
        else some { p with
          filters := if config.enableCrashHandler then p.filters.install else p.filters
          core :=
            { config := config
              reporter := some { outputDir := config.outputDir }
              initialized := true } }
    | .shutdown =>
        if p.core.initialized then
          some { p with filters := p.filters.uninstall, core := Core.initial }
        else some p
    | .setFilter filter =>
        some { p with filters.topLevel := .ofApplication filter }
    | .exception code trace =>
        (p.dispatch answers code trace).map fun (answer, p') =>
          { p' with
            alive := answer == .continueExecution
            called := p'.called ++ [p.filters.topLevel] }

/-- The event ends a session that has installed the crash handler. -/
def WindowsProcess.EndsCrashSession (p : WindowsProcess) (event : WindowsEvent) : Prop :=
  event = .shutdown ∧ p.core.initialized = true ∧ p.filters.handler.installed = true

/-- The handler's own filter is not set, and has made no report. -/
structure WindowsProcess.Unreported (p : WindowsProcess) : Prop where
  filters : p.filters.NeverSet
  called : some .unhandledExceptionFilter ∉ p.called
  reports : p.reports = []

variable {answers : Word → BitVec 32 → FilterAnswer} {p next : WindowsProcess}
  {event : WindowsEvent}

theorem WindowsProcess.Unreported.dispatch (hinv : p.Unreported) {code : BitVec 32}
    {trace : List StackFrame} {answer : FilterAnswer} {p' : WindowsProcess}
    (hdispatch : p.dispatch answers code trace = some (answer, p')) : p' = p := by
  rw [WindowsProcess.dispatch] at hdispatch
  split at hdispatch
  · exact (Prod.mk.inj (Option.some.inj hdispatch)).2.symm
  · exact (Prod.mk.inj (Option.some.inj hdispatch)).2.symm
  next htop => exact absurd htop hinv.filters.topLevel

/-- A session that installs the handler or not starts with the filter that was there. -/
theorem FilterWorld.NeverSet.init {world : FilterWorld} (hinv : world.NeverSet)
    (enabled : Bool) :
    (if enabled then world.install else world).NeverSet ∧
      (if enabled then world.install else world).topLevel = world.topLevel := by
  cases enabled with
  | true =>
      refine ⟨hinv.install, ?_⟩
      rw [if_pos rfl, install_eq]
  | false => exact ⟨hinv, rfl⟩

theorem WindowsProcess.Unreported.step (hinv : p.Unreported)
    (hstep : p.step answers event = some next) :
    next.Unreported ∧ ((∀ filter, event ≠ .setFilter filter) →
      (p.EndsCrashSession event → next.filters.topLevel = none) ∧
        (¬ p.EndsCrashSession event → next.filters.topLevel = p.filters.topLevel)) := by
  have halive : ¬ p.alive = false := by
    intro hdead
    simp [WindowsProcess.step, hdead] at hstep
  simp only [WindowsProcess.step, if_neg halive] at hstep
  cases event with
  | init config =>
      dsimp only at hstep
      split at hstep
      · obtain rfl := Option.some.inj hstep
        exact ⟨hinv, fun _ => ⟨fun hends => absurd hends.1 nofun, fun _ => rfl⟩⟩
      · obtain rfl := Option.some.inj hstep
        obtain ⟨hfilters, htop⟩ := hinv.filters.init config.enableCrashHandler
        exact ⟨⟨hfilters, hinv.called, hinv.reports⟩,
          fun _ => ⟨fun hends => absurd hends.1 nofun, fun _ => htop⟩⟩
  | shutdown =>
      have htop := hinv.filters.uninstall_topLevel
      dsimp only at hstep
      split at hstep
      next hup =>
        obtain rfl := Option.some.inj hstep
        refine ⟨⟨hinv.filters.uninstall, hinv.called, hinv.reports⟩, fun _ => ⟨?_, ?_⟩⟩
        · rintro ⟨-, -, hinstalled⟩
          exact htop.trans (if_pos hinstalled)
        · intro hends
          refine htop.trans (if_neg fun hinstalled => ?_)
          exact hends ⟨rfl, hup, hinstalled⟩
      next hdown =>
        obtain rfl := Option.some.inj hstep
        exact ⟨hinv, fun _ => ⟨fun hends => absurd hends.2.1 hdown, fun _ => rfl⟩⟩
  | setFilter filter =>
      obtain rfl := Option.some.inj hstep
      have hfilters : FilterWorld.NeverSet { p.filters with topLevel := .ofApplication filter } :=
        ⟨hinv.filters.previous, FilterPtr.ofApplication_ne filter⟩
      exact ⟨⟨hfilters, hinv.called, hinv.reports⟩,
        fun hnone => absurd rfl (hnone filter)⟩
  | exception code trace =>
      obtain ⟨⟨answer, p'⟩, hdispatch, rfl⟩ := Option.map_eq_some_iff.mp hstep
      obtain rfl := hinv.dispatch hdispatch
      refine ⟨⟨hinv.filters, ?_, hinv.reports⟩,
        fun _ => ⟨fun hends => absurd hends.1 nofun, fun _ => rfl⟩⟩
      rw [List.mem_append, List.mem_singleton, not_or]
      exact ⟨hinv.called, hinv.filters.topLevel.symm⟩

namespace WindowsCrashWitness

end WindowsCrashWitness

end Domovoy
