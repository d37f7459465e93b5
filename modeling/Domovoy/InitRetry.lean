/-
What an exception in the middle of `Init` leaves behind, and what a later `Init` and
`Shutdown` make of that.
-/
import Domovoy.Startup

namespace Domovoy

open WordAlign Transition

/-- Outside a session, with nothing of one left. -/
structure Startup.Quiet (s : Startup) : Prop where
  down : s.process.core.initialized = false
  hooks : s.hooksInitializing = s.hooksInitialized
  installed : s.process.crash.installed = false
  disposition : ∀ sig, s.process.signals.disposition sig ≠ .handleCrashSignal
  running : s.process.cpu.running = false
  thread : s.monitorThread = false

/-- An `Init` that throws, with the call that throws. -/
structure FailedInit where
  env : StartupEnv
  config : DomovoyConfig
  call : InitCall

/-- The process once the exception has left `Init`. -/
def Startup.failedInit (sizes : TypeSizes) (s : Startup) (failed : FailedInit) :
    Option Startup :=
  let (result, after) := s.init sizes failed.env failed.config
  if result = .error (.threw failed.call) then some after else none

/-- What a session needs of the process. -/
structure Startup.Active (config : DomovoyConfig) (s : Startup) : Prop where
  core : s.process.core =
    { config := config, reporter := some { outputDir := config.outputDir },
      initialized := true }
  hooks : s.hooksInitialized = true
  crash : config.enableCrashHandler = true → s.process.crash.installed = true
  handlers : s.process.crash.installed = true →
    (∀ sig, s.process.signals.disposition sig = .handleCrashSignal) ∧
      s.process.signals.altStack ≠ none
  io : config.enableIoMonitoring = true → s.process.io.enabled = true
  cpu : config.enableCpuProfiler = true → s.process.cpu.running = true
  thread : s.process.cpu.running = true → s.monitorThread = true

/-- Nothing of the session that ran in `before` is left in `after`; the dispositions are
those of the process before the first `Init`. -/
structure Startup.Undone (before origin after : Startup) : Prop where
  core : after.process.core = Core.initial
  installed : after.process.crash.installed = false
  disposition : after.process.signals.disposition = origin.process.signals.disposition
  altStack : after.process.signals.altStack =
    if before.process.crash.installed then none else origin.process.signals.altStack
  io : after.process.io.enabled = false
  running : after.process.cpu.running = false
  thread : after.monitorThread = false

/-- `Init` returns with everything that was asked for in place, and the `Shutdown` after
it undoes all of that. -/
structure Startup.Retries (sizes : TypeSizes) (env : StartupEnv) (config : DomovoyConfig)
    (s origin : Startup) : Prop where
  returns : (s.init sizes env config).1 = .ok ()
  active : (s.init sizes env config).2.Active config
  undone : ∀ shutdownEnv after,
    (s.init sizes env config).2.shutdown shutdownEnv = (.ok (), after) →
      (s.init sizes env config).2.Undone origin after

/-- Each guard flag says what is the case, next to the process `origin` that Domovoy has
not touched yet. -/
structure Startup.InOrder (s origin : Startup) : Prop where
  hooks : s.hooksInitializing = s.hooksInitialized
  handlers : s.process.crash.installed = true →
    (∀ sig, s.process.signals.disposition sig = .handleCrashSignal) ∧
      s.process.signals.altStack ≠ none ∧
        s.process.crash.oldActions = origin.process.signals.disposition
  untouched : s.process.crash.installed = false →
    s.process.signals = origin.process.signals
  thread : s.monitorThread = s.process.cpu.running

/-- A process in which the next `Init` can do its work. -/
structure Startup.Sound (s origin : Startup) : Prop extends s.InOrder origin where
  down : s.process.core.initialized = false

/-- A guard flag is set for something that is not there. -/
def Startup.Broken (s : Startup) : Prop :=
  (s.hooksInitializing = true ∧ s.hooksInitialized = false) ∨
    (s.process.crash.installed = true ∧
      ∃ sig, s.process.signals.disposition sig ≠ .handleCrashSignal) ∨
    (s.process.cpu.running = true ∧ s.monitorThread = false)

/-- How a part of `Init` ends when it begins in a sound process. -/
inductive StageEnds (origin : Startup) : Except InitStop Unit × Startup → Prop
  | returned {s : Startup} (hsound : s.Sound origin) : StageEnds origin (.ok (), s)
  | rolledBack {s : Startup} {call : InitCall} (hcall : call.guarded = false)
      (hsound : s.Sound origin) : StageEnds origin (.error (.threw call), s)
  | halfDone {s : Startup} {call : InitCall} (hcall : call.guarded = true)
      (hbroken : s.Broken) : StageEnds origin (.error (.threw call), s)

theorem Startup.Quiet.sound {s : Startup} (hquiet : s.Quiet) : s.Sound s where
  hooks := hquiet.hooks
  handlers := fun hinstalled => absurd (hquiet.installed.symm.trans hinstalled) nofun
  untouched := fun _ => rfl
  thread := hquiet.thread.trans hquiet.running.symm
  down := hquiet.down

/-- The flags do not depend on the pool. -/
theorem Startup.Sound.setPool {s origin : Startup} (hsound : s.Sound origin) (pool : Pool) :
    Startup.Sound { s with pool := pool } origin :=
  ⟨⟨hsound.hooks, hsound.handlers, hsound.untouched, hsound.thread⟩, hsound.down⟩

section

variable {s origin : Startup} {sizes : TypeSizes} {env : StartupEnv}
  {config : DomovoyConfig}

theorem Startup.Sound.hooksInit (hsound : s.Sound origin) :
    StageEnds origin (s.hooksInit sizes env) := by
  by_cases hdone : s.hooksInitialized = true
  · rw [Startup.hooksInit, if_pos hdone]
    exact .returned hsound
  · have hidle : ¬ s.hooksInitializing = true := by
      rw [hsound.hooks]
      exact hdone
    rw [Startup.hooksInit, if_neg hdone, if_neg hidle]
    obtain ⟨pool, ⟨value, hresult⟩ | hresult⟩ := Startup.allocate_poolOnly env .allocationMap
      sizes.sizeofAllocMap sizes.alignofAllocMap { s with hooksInitializing := true }
    · simp only [hresult]
      exact .returned
        ⟨⟨rfl, hsound.handlers, hsound.untouched, hsound.thread⟩, hsound.down⟩
    · simp only [hresult]
      exact .halfDone rfl (Or.inl ⟨rfl, Bool.eq_false_of_not_eq_true hdone⟩)

theorem PoolOnly.ends {call : InitCall} {result : Except InitStop Unit × Startup}
    (honly : PoolOnly call s result) (hsound : s.Sound origin)
    (hcall : call.guarded = false) : StageEnds origin result := by
  obtain ⟨pool, ⟨_, rfl⟩ | rfl⟩ := honly
  · exact .returned (hsound.setPool pool)
  · exact .rolledBack hcall (hsound.setPool pool)

theorem PoolOnly.broken {call : InitCall} {result : Except InitStop Unit × Startup}
    (honly : PoolOnly call s result) (hbroken : s.Broken) : result.2.Broken := by
  obtain ⟨pool, ⟨_, rfl⟩ | rfl⟩ := honly <;> exact hbroken

theorem Startup.Sound.constructReporter (hsound : s.Sound origin) :
    StageEnds origin (s.constructReporter env config) := by
  rcases s.constructReporter_cases env config with
    ⟨call, pool, hcall, hresult⟩ | ⟨pool, pieces, hresult⟩
  · rw [hresult]
    exact .rolledBack hcall (hsound.setPool pool)
  · rw [hresult]
    exact .returned
      ⟨⟨hsound.hooks, hsound.handlers, hsound.untouched, hsound.thread⟩, hsound.down⟩

theorem Startup.Sound.install (hquiet : origin.Quiet) (hsound : s.Sound origin) :
    StageEnds origin (s.install sizes env) := by
  by_cases hinstalled : s.process.crash.installed = true
  · rw [Startup.install, if_pos hinstalled]
    exact .returned hsound
  · have hsignals := hsound.untouched (Bool.eq_false_of_not_eq_true hinstalled)
    rw [Startup.install, if_neg hinstalled]
    obtain ⟨pool, ⟨⟨memory, piece⟩, hresult⟩ | hresult⟩ := Startup.allocate_poolOnly env
      .signalStack sizes.sigstksz maxAlign { s with process.crash.installed := true }
    · have hnodup : crashSignals.Nodup := by decide
      simp only [hresult, foldl_replaceAction hnodup, mem_crashSignals, if_true]
      refine .returned ⟨⟨hsound.hooks, ?_, ?_, hsound.thread⟩, hsound.down⟩
      · intro _
        exact ⟨fun _ => rfl, Option.some_ne_none _, congrArg SignalState.disposition hsignals⟩
      · intro hoff
        contradiction
    · simp only [hresult]
      refine .halfDone rfl (Or.inr (Or.inl ⟨rfl, .sigsegv, ?_⟩))
      change s.process.signals.disposition .sigsegv ≠ _
      rw [hsignals]
      exact hquiet.disposition .sigsegv

theorem Startup.Sound.start (hsound : s.Sound origin) :
    StageEnds origin (s.start env) := by
  by_cases hrunning : s.process.cpu.running = true
  · rw [Startup.start, if_pos hrunning]
    exact .returned hsound
  · have hthread : s.monitorThread = false := by
      rw [hsound.thread]
      exact Bool.eq_false_of_not_eq_true hrunning
    rw [Startup.start, if_neg hrunning]
    by_cases hspawns : env.spawns = true
    · simp only [hspawns, if_true]
      exact .returned ⟨⟨hsound.hooks, hsound.handlers, hsound.untouched, rfl⟩, hsound.down⟩
    · simp only [hspawns, Bool.false_eq_true, if_false]
      exact .halfDone rfl (Or.inr (Or.inr ⟨rfl, hthread⟩))

theorem Startup.Sound.onlyIf (hsound : s.Sound origin) {enabled : Bool}
    {stage : Startup → Except InitStop Unit × Startup} (hstage : StageEnds origin (stage s)) :
    StageEnds origin (onlyIf enabled stage s) := by
  rw [Domovoy.onlyIf]
  split
  · exact hstage
  · exact .returned hsound

theorem Startup.Sound.initStages (hquiet : origin.Quiet) :
    ∀ stage ∈ initStages sizes env config, ∀ s : Startup, s.Sound origin →
      StageEnds origin (stage s) := by
  simp only [Domovoy.initStages, List.forall_mem_cons, List.not_mem_nil, false_implies,
    implies_true, and_true]
  refine ⟨fun s hs => hs.hooksInit,
    fun s hs => (s.initializePool_poolOnly env config).ends hs rfl,
    fun s hs => (s.outDir_poolOnly env config).ends hs rfl,
    fun s hs => hs.constructReporter, fun s hs => hs.onlyIf (hs.install hquiet),
    fun s hs => hs.onlyIf (.returned ?_), fun s hs => hs.onlyIf hs.start⟩
  exact ⟨⟨hs.hooks, hs.handlers, hs.untouched, hs.thread⟩, hs.down⟩

theorem runStages_ends {stages : List (Startup → Except InitStop Unit × Startup)}
    (hstages : ∀ stage ∈ stages, ∀ s : Startup, s.Sound origin → StageEnds origin (stage s))
    (hsound : s.Sound origin) : StageEnds origin (runStages stages s) := by
  induction stages generalizing s with
  | nil => exact .returned hsound
  | cons stage stages ih =>
      obtain ⟨hfirst, hrest⟩ := List.forall_mem_cons.mp hstages
      have hends := hfirst s hsound
      rw [runStages]
      revert hends
      rcases stage s with ⟨_ | _, after⟩
      · exact id
      · rintro (hafter | _ | _)
        exact ih hrest hafter

/-- A broken process stays broken: the flag keeps the part from being run again. -/
theorem Startup.Broken.hooksInit (hbroken : s.Broken) :
    (s.hooksInit sizes env).2.Broken := by
  by_cases hdone : s.hooksInitialized = true
  · rwa [Startup.hooksInit, if_pos hdone]
  · by_cases hbusy : s.hooksInitializing = true
    · rwa [Startup.hooksInit, if_neg hdone, if_pos hbusy]
    · rw [Startup.hooksInit, if_neg hdone, if_neg hbusy]
      have hothers := hbroken.resolve_left fun hhooks => hbusy hhooks.1
      obtain ⟨pool, ⟨value, hresult⟩ | hresult⟩ := Startup.allocate_poolOnly env
        .allocationMap sizes.sizeofAllocMap sizes.alignofAllocMap
        { s with hooksInitializing := true }
      · simp only [hresult]
        exact Or.inr hothers
      · simp only [hresult]
        exact Or.inr hothers

theorem Startup.Broken.constructReporter (hbroken : s.Broken) :
    (s.constructReporter env config).2.Broken := by
  rcases s.constructReporter_cases env config with
    ⟨call, pool, -, hresult⟩ | ⟨pool, pieces, hresult⟩
  · rw [hresult]
    exact hbroken
  · rw [hresult]
    exact hbroken

theorem Startup.Broken.install (hbroken : s.Broken) :
    (s.install sizes env).2.Broken := by
  by_cases hinstalled : s.process.crash.installed = true
  · rwa [Startup.install, if_pos hinstalled]
  · rw [Startup.install, if_neg hinstalled]
    have hothers : (s.hooksInitializing = true ∧ s.hooksInitialized = false) ∨
        (s.process.cpu.running = true ∧ s.monitorThread = false) := by
      rcases hbroken with hhooks | hhandlers | hthread
      · exact Or.inl hhooks
      · exact absurd hhandlers.1 hinstalled
      · exact Or.inr hthread
    obtain ⟨pool, ⟨⟨memory, piece⟩, hresult⟩ | hresult⟩ := Startup.allocate_poolOnly env
      .signalStack sizes.sigstksz maxAlign { s with process.crash.installed := true }
    · simp only [hresult]
      rcases hothers with hhooks | hthread
      · exact Or.inl hhooks
      · exact Or.inr (Or.inr hthread)
    · simp only [hresult]
      rcases hothers with hhooks | hthread
      · exact Or.inl hhooks
      · exact Or.inr (Or.inr hthread)

theorem Startup.Broken.start (hbroken : s.Broken) : (s.start env).2.Broken := by
  by_cases hrunning : s.process.cpu.running = true
  · rwa [Startup.start, if_pos hrunning]
  · rw [Startup.start, if_neg hrunning]
    have hothers := (or_assoc.mpr hbroken).resolve_right fun hthread => hrunning hthread.1
    by_cases hspawns : env.spawns = true
    · simp only [hspawns, if_true]
      exact or_assoc.mp (Or.inl hothers)
    · simp only [hspawns, Bool.false_eq_true, if_false]
      exact or_assoc.mp (Or.inl hothers)

theorem Startup.Broken.initStages :
    ∀ stage ∈ initStages sizes env config, ∀ s : Startup, s.Broken →
      (stage s).2.Broken := by
  simp only [Domovoy.initStages, List.forall_mem_cons, List.not_mem_nil, false_implies,
    implies_true, and_true]
  exact ⟨fun s hs => hs.hooksInit,
    fun s hs => (s.initializePool_poolOnly env config).broken hs,
    fun s hs => (s.outDir_poolOnly env config).broken hs,
    fun s hs => hs.constructReporter,
    fun s hs => onlyIf_keeps (P := Startup.Broken) hs hs.install,
    fun s hs => onlyIf_keeps (P := Startup.Broken) hs hs,
    fun s hs => onlyIf_keeps (P := Startup.Broken) hs hs.start⟩

theorem Startup.Broken.init (hbroken : s.Broken) : (s.init sizes env config).2.Broken := by
  by_cases hup : s.process.core.initialized = true
  · rwa [Startup.init, if_pos hup]
  · have hstages : (runStages (Domovoy.initStages sizes env config)
        { s with process.core.config := config }).2.Broken :=
      runStages_keeps Startup.Broken.initStages hbroken
    rw [Startup.init, if_neg hup]
    revert hstages
    rcases runStages (Domovoy.initStages sizes env config)
      { s with process.core.config := config } with ⟨_ | _, after⟩
    · exact id
    · exact id

theorem Startup.Broken.not_active (hbroken : s.Broken) : ¬ s.Active config := by
  intro hactive
  rcases hbroken with ⟨-, hhooks⟩ | ⟨hinstalled, sig, hsig⟩ | ⟨hrunning, hthread⟩
  · exact absurd (hactive.hooks.symm.trans hhooks) nofun
  · exact hsig ((hactive.handlers hinstalled).1 sig)
  · exact absurd ((hactive.thread hrunning).symm.trans hthread) nofun

theorem Startup.Broken.not_retries (hbroken : s.Broken) :
    ¬ s.Retries sizes env config origin :=
  fun hretries => hbroken.init.not_active hretries.active

/-- How `Init` ends in a sound process. -/
theorem Startup.Sound.init (hquiet : origin.Quiet) (hsound : s.Sound origin)
    (sizes : TypeSizes) (env : StartupEnv) (config : DomovoyConfig) :
    (∃ after, s.init sizes env config = (.ok (), after) ∧ after.InOrder origin) ∨
      ∃ call after, s.init sizes env config = (.error (.threw call), after) ∧
        (call.guarded = false ∧ after.Sound origin ∨
          call.guarded = true ∧ after.Broken) := by
  have hconfigured : Startup.Sound { s with process.core.config := config } origin :=
    ⟨⟨hsound.hooks, hsound.handlers, hsound.untouched, hsound.thread⟩, hsound.down⟩
  have hends : StageEnds origin (runStages (Domovoy.initStages sizes env config)
      { s with process.core.config := config }) :=
    runStages_ends (Startup.Sound.initStages hquiet) hconfigured
  rw [Startup.init, if_neg (by simp [hsound.down])]
  revert hends
  rcases runStages (Domovoy.initStages sizes env config)
    { s with process.core.config := config } with ⟨stop | ⟨⟨⟩⟩, last⟩
  · rintro (_ | ⟨hcall, hlast⟩ | ⟨hcall, hlast⟩)
    · exact Or.inr ⟨_, last, rfl, Or.inl ⟨hcall, hlast⟩⟩
    · exact Or.inr ⟨_, last, rfl, Or.inr ⟨hcall, hlast⟩⟩
  · rintro (hlast | _ | _)
    exact Or.inl ⟨_, rfl, hlast.hooks, hlast.handlers, hlast.untouched, hlast.thread⟩

theorem CrashHandler.install_installed (handler : CrashHandler) (memory sigstksz : Word)
    (os : SignalState) : (handler.install memory sigstksz os).1.installed = true := by
  cases hinstalled : handler.installed with
  | true => rw [install_of_installed hinstalled, hinstalled]
  | false => rw [install_eq hinstalled]

theorem IoMonitor.enable_enabled (monitor : IoMonitor) : monitor.enable.enabled = true := by
  cases henabled : monitor.enabled <;> simp [enable, henabled]

theorem CpuMonitor.start_running (monitor : CpuMonitor) :
    monitor.start.running = true := by
  cases hrunning : monitor.running <;> simp [start, hrunning]

/-- What `Init` was asked for is on, whatever was on before. -/
theorem Process.init_asked (p : Process) (hdown : p.core.initialized = false)
    (config : DomovoyConfig) (memory sigstksz : Word) :
    (p.init config memory sigstksz).core =
        { config := config, reporter := some { outputDir := config.outputDir },
          initialized := true } ∧
      (config.enableCrashHandler = true →
        (p.init config memory sigstksz).crash.installed = true) ∧
      (config.enableIoMonitoring = true →
        (p.init config memory sigstksz).io.enabled = true) ∧
      (config.enableCpuProfiler = true →
        (p.init config memory sigstksz).cpu.running = true) := by
  simp only [Process.init, hdown, Bool.false_eq_true, if_false]
  cases config.enableCrashHandler <;> cases config.enableIoMonitoring <;>
    cases config.enableCpuProfiler <;>
    simp [CrashHandler.install_installed, IoMonitor.enable_enabled,
      CpuMonitor.start_running]

theorem Startup.active_of_init (hsound : s.Sound origin) {after : Startup}
    (hok : s.init sizes env config = (.ok (), after)) (horder : after.InOrder origin) :
    after.Active config := by
  obtain ⟨⟨memory, hprocess⟩, hdone⟩ := init_ok hsound.down hok
  obtain ⟨hcore, hcrash, hio, hcpu⟩ :=
    s.process.init_asked hsound.down config memory sizes.sigstksz
  rw [← hprocess] at hcore hcrash hio hcpu
  exact ⟨hcore, hdone, hcrash,
    fun hinstalled => ⟨(horder.handlers hinstalled).1, (horder.handlers hinstalled).2.1⟩,
    hio, hcpu, fun hrunning => horder.thread.trans hrunning⟩

/-- The `Shutdown` of a session whose flags are in order leaves nothing of it. -/
theorem Startup.undone_of_shutdown (horder : s.InOrder origin)
    (hup : s.process.core.initialized = true) {shutdownEnv : ShutdownEnv} {after : Startup}
    (hshutdown : s.shutdown shutdownEnv = (.ok (), after)) : s.Undone origin after := by
  rcases hprocess : s.process.shutdown shutdownEnv with ⟨_ | ⟨⟨⟩⟩, process⟩
  · rw [Startup.shutdown, hprocess] at hshutdown
    cases hshutdown
  · rw [Startup.shutdown, hprocess] at hshutdown
    obtain rfl := (Prod.mk.inj hshutdown).2
    obtain ⟨disk, rfl⟩ := Process.shutdown_ok hup hprocess
    have hio : s.process.io.disable.enabled = false := by
      cases henabled : s.process.io.enabled <;> simp [IoMonitor.disable, henabled]
    have hrunning : s.process.cpu.stop.running = false := by
      cases hrunning : s.process.cpu.running <;> simp [CpuMonitor.stop, hrunning]
    have hthread : (s.monitorThread &&
        !(s.process.core.initialized && s.process.cpu.running)) = false := by
      rw [horder.thread, hup]
      cases s.process.cpu.running <;> rfl
    cases hinstalled : s.process.crash.installed with
    | true =>
        obtain ⟨-, -, hsaved⟩ := horder.handlers hinstalled
        refine ⟨rfl, ?_, ?_, ?_, hio, hrunning, hthread⟩
        · simp [Process.quieted, CrashHandler.uninstall_eq hinstalled]
        · simp [Process.quieted, CrashHandler.uninstall_eq hinstalled, hsaved]
        · simp [Process.quieted, CrashHandler.uninstall_eq hinstalled, hinstalled]
    | false =>
        have hsignals := horder.untouched hinstalled
        refine ⟨rfl, ?_, ?_, ?_, hio, hrunning, hthread⟩
        · simp [Process.quieted, CrashHandler.uninstall_of_not_installed hinstalled,
            hinstalled]
        · simp [Process.quieted, CrashHandler.uninstall_of_not_installed hinstalled,
            hsignals]
        · simp [Process.quieted, CrashHandler.uninstall_of_not_installed hinstalled,
            hsignals, hinstalled]

theorem Startup.Sound.retries (hquiet : origin.Quiet) (hsound : s.Sound origin)
    (hclean : ∀ call, (s.init sizes env config).1 ≠ .error (.threw call)) :
    s.Retries sizes env config origin := by
  rcases hsound.init hquiet sizes env config with
    ⟨after, hok, horder⟩ | ⟨call, after, hthrew, -⟩
  · have hactive := active_of_init hsound hok horder
    refine ⟨by rw [hok], by rw [hok]; exact hactive, ?_⟩
    intro shutdownEnv final hshutdown
    rw [hok] at hshutdown ⊢
    exact undone_of_shutdown horder (by rw [hactive.core]) hshutdown
  · exact absurd (by rw [hthrew]) (hclean call)

/-- An `Init` that throws leaves a sound process sound or breaks it, according to the
call; a broken one stays broken. -/
theorem Startup.failedInit_spec (hquiet : origin.Quiet) {failed : FailedInit}
    {after : Startup} (hfailed : s.failedInit sizes failed = some after) :
    (s.Sound origin → failed.call.guarded = false ∧ after.Sound origin ∨
      failed.call.guarded = true ∧ after.Broken) ∧ (s.Broken → after.Broken) := by
  simp only [failedInit, Option.ite_none_right_eq_some, Option.some.injEq] at hfailed
  obtain ⟨hthrew, rfl⟩ := hfailed
  refine ⟨fun hsound => ?_, fun hbroken => hbroken.init⟩
  rcases hsound.init hquiet sizes failed.env failed.config with
    ⟨after, hok, -⟩ | ⟨call, after, hends, hcall⟩
  · rw [hok] at hthrew
    cases hthrew
  · rw [hends] at hthrew ⊢
    cases hthrew
    exact hcall

/-- After any number of `Init`s that throw: the flags are in order if and only if none of
them threw behind its guard, and otherwise one of them is not. -/
theorem Startup.failedInits_spec (hquiet : origin.Quiet) {failures : List FailedInit}
    {final : Startup} (hsound : s.Sound origin)
    (hrun : run (Startup.failedInit sizes) s failures = some final) :
    (∀ failed ∈ failures, failed.call.guarded = false) ∧ final.Sound origin ∨
      (∃ failed ∈ failures, failed.call.guarded = true) ∧ final.Broken := by
  induction failures generalizing s with
  | nil =>
      obtain rfl := Option.some.inj hrun
      exact Or.inl ⟨by simp, hsound⟩
  | cons failed failures ih =>
      obtain ⟨next, hfailed, hrest⟩ := run_cons_eq_some.mp hrun
      rcases (failedInit_spec hquiet hfailed).1 hsound with ⟨hcall, hnext⟩ | ⟨hcall, hnext⟩
      · rcases ih hnext hrest with ⟨hall, hfinal⟩ | ⟨⟨other, hother, hguarded⟩, hfinal⟩
        · exact Or.inl ⟨List.forall_mem_cons.mpr ⟨hcall, hall⟩, hfinal⟩
        · exact Or.inr ⟨⟨other, List.mem_cons_of_mem failed hother, hguarded⟩, hfinal⟩
      · refine Or.inr ⟨⟨failed, List.mem_cons_self, hcall⟩, ?_⟩
        exact run_invariant
          (fun _ _ _ hbroken hstep => (failedInit_spec hquiet hstep).2 hbroken) hnext hrest

end

/-- After any number of `Init`s that throw, with any configurations: an `Init` that meets
no failure leaves everything it was asked for active, and the `Shutdown` after it undoes
all of that, if and only if none of them threw behind a flag that keeps the part from
being run again. -/
theorem init_retries_iff (sizes : TypeSizes) (origin s : Startup) (hquiet : origin.Quiet)
    (failures : List FailedInit)
    (hrun : run (Startup.failedInit sizes) origin failures = some s) (env : StartupEnv)
    (config : DomovoyConfig)
    (hclean : ∀ call, (s.init sizes env config).1 ≠ .error (.threw call)) :
    s.Retries sizes env config origin ↔
      ∀ failed ∈ failures, failed.call.guarded = false := by
  rcases Startup.failedInits_spec hquiet hquiet.sound hrun with
    ⟨hall, hsound⟩ | ⟨⟨failed, hfailed, hguarded⟩, hbroken⟩
  · exact iff_of_true (hsound.retries hquiet hclean) hall
  · refine iff_of_false hbroken.not_retries fun hall => ?_
    rw [hall failed hfailed] at hguarded
    contradiction

namespace RetryWitness

def sizes : TypeSizes where
  sizeofAllocMap := 1152
  alignofAllocMap := 8
  sigstksz := 8192

/-- The hooks have run before `main`, and the pool has been torn down since. -/
def origin : Startup where
  process :=
    { core := Core.initial
      crash := CrashHandler.initial
      signals := { disposition := fun _ => .zero, altStack := none }
      cpu := CpuMonitor.initial
      io := IoMonitor.initial
      disk := { writable := true, files := ∅ } }
  pool := Pool.initial
  hooksInitialized := true
  hooksInitializing := true
  gAllocations := none
  monitorThread := false
  teardowns := 1
  memory := fun _ => []

theorem origin_quiet : origin.Quiet :=
  ⟨rfl, rfl, rfl, fun _ => nofun, rfl, rfl⟩

def config : DomovoyConfig where
  enableCrashHandler := true
  enableCpuProfiler := true

def granting : StartupEnv where
  os := PoolWitness.strideMmap
  spawns := true

/-- The operating system has no memory, then it has. -/
def memoryRefused : FailedInit where
  env := { os := fun _ _ _ => none, spawns := true }
  config := config
  call := .initializePool

def afterMemoryRefused : Startup :=
  { origin with
    process.core.config := config
    pool.mmapCalls := 1 }

theorem afterMemoryRefused_clean :
    ∀ call, (afterMemoryRefused.init sizes granting config).1 ≠ .error (.threw call) := by
  intro call
  have hok : (afterMemoryRefused.init sizes granting config).1 = .ok () := by decide
  rw [hok]
  nofun

theorem memoryRefused_retries_iff :
    afterMemoryRefused.Retries sizes granting config origin ↔
      ∀ failed ∈ [memoryRefused], failed.call.guarded = false :=
  init_retries_iff sizes origin afterMemoryRefused origin_quiet [memoryRefused] rfl granting
    config afterMemoryRefused_clean

/-- No thread can be created, then one could be. -/
def threadRefused : FailedInit where
  env := { os := PoolWitness.strideMmap, spawns := false }
  config := config
  call := .monitorThread

/-- `running_` is left set by the `Init` that failed, so the next one starts no monitor
thread. -/
theorem threadRefused_not_retried :
    ∃ s, run (Startup.failedInit sizes) origin [threadRefused] = some s ∧
      (s.init sizes granting config).1 = .ok () ∧
        ¬ s.Retries sizes granting config origin := by
  refine ⟨_, rfl, rfl, fun hretries => ?_⟩
  have hthread := hretries.active.thread rfl
  exact absurd hthread (by decide)

end RetryWitness

end Domovoy
