/-
`HandleCrashSignal` on any number of threads next to `Shutdown` on another: who may hold
the reporter when its destructor starts.  A second crash inside the handler is left out.
-/
import Domovoy.CrashRuns

namespace Domovoy

open Transition

/-- Where a thread is in `HandleCrashSignal`. -/
inductive ReporterPc where
  /-- The trace and the report are built. -/
  | building
  /-- The call of `GetReporter` is next. -/
  | reading
  /-- `GetReporter` has returned; whether it was not null. -/
  | testing (reporter : Bool)
  /-- The call of `ReportCrash` is next. -/
  | calling
  /-- In `ReportCrash`: the call of `WriteToFile` is next. -/
  | writing
  /-- "Call old handler". -/
  | chaining
  | raising
  /-- `raise` has returned and the signal is pending. -/
  | raised
  /-- In a handler function of the application. -/
  | application
  /-- In the call of the number that `SIG_IGN` is, which does not come back. -/
  | sigIgnAddress
deriving DecidableEq, Repr

/-- Where the other thread is in `Shutdown`. -/
inductive ShutdownPc where
  | outside
  | testing
  /-- In `Uninstall`: the test of `installed_`. -/
  | testingInstalled
  /-- In `Uninstall`: the signals whose actions are still to be restored. -/
  | restoring (rest : List CrashSignal)
  | stopping
  | reportingLeaks
  | reportingFds
  | disabling
  | testingReporter
  /-- The call of `~Reporter` is next. -/
  | destroying
  /-- In the destructor. -/
  | destructing
  /-- `reporter_ = nullptr` is next. -/
  | clearing
  /-- `config_` and then `initialized_` are reset. -/
  | resetting
deriving DecidableEq, Repr

structure ReportFrame where
  sig : CrashSignal
  pc : ReporterPc
deriving DecidableEq, Repr

structure LifetimeState (Tid : Type) where
  initialized : Bool
  installed : Bool
  oldActions : CrashSignal → SigAction
  disposition : CrashSignal → Disposition
  /-- `reporter_` is not null. -/
  reporter : Bool
  destructorStarted : Bool
  shutdown : ShutdownPc
  frame : Tid → Option ReportFrame
  killed : Bool

/-- A session that is up, with or without the crash handler over `old`. -/
def LifetimeState.start (Tid : Type) (enabled : Bool) (old : CrashSignal → SigAction) :
    LifetimeState Tid where
  initialized := true
  installed := enabled
  oldActions := old
  disposition := fun sig => if enabled then .handleCrashSignal else .application (old sig)
  reporter := true
  destructorStarted := false
  shutdown := .outside
  frame := fun _ => none
  killed := false

inductive LifetimeStep (Tid : Type) where
  /-- The thread crashes, or is sent the signal. -/
  | deliver (thread : Tid) (sig : CrashSignal)
  /-- The next step of `HandleCrashSignal`. -/
  | handler (thread : Tid)
  /-- The next step of `Shutdown`. -/
  | shutdown
  /-- An exception leaves one of the two reports of `Shutdown`. -/
  | reportThrows
  /-- The application installs an action. -/
  | sigaction (sig : CrashSignal) (action : SigAction)
deriving DecidableEq

/-- A handler that is here will call, or has called, a method on the pointer it read. -/
def ReporterPc.Holds (pc : ReporterPc) : Prop :=
  pc = .testing true ∨ pc = .calling ∨ pc = .writing

/-- The branch of "Call old handler" that the old action takes; `none` returns. -/
def SigAction.chainPc (old : SigAction) : Option ReporterPc :=
  if old.takesSiginfo then
    match old.handler with
    | .sigDfl => none
    | .sigIgn => some .sigIgnAddress
    | .function _ => some .application
  else
    match old.handler with
    | .sigDfl => some .raising
    | .sigIgn => none
    | .function _ => some .application

variable {Tid : Type}

/-- One step of `Shutdown`. -/
def LifetimeState.shutdownStep (s : LifetimeState Tid) : LifetimeState Tid :=
  match s.shutdown with
  | .outside => { s with shutdown := .testing }
  | .testing => { s with shutdown := if s.initialized then .testingInstalled else .outside }
  | .testingInstalled =>
      if s.installed then { s with installed := false, shutdown := .restoring crashSignals }
      else { s with shutdown := .stopping }
  | .restoring (sig :: rest) =>
      { s with
        disposition := Function.update s.disposition sig (.application (s.oldActions sig))
        shutdown := .restoring rest }
  | .restoring [] => { s with shutdown := .stopping }
  | .stopping => { s with shutdown := .reportingLeaks }
  | .reportingLeaks => { s with shutdown := .reportingFds }
  | .reportingFds => { s with shutdown := .disabling }
  | .disabling => { s with shutdown := .testingReporter }
  | .testingReporter =>
      { s with shutdown := if s.reporter then .destroying else .resetting }
  | .destroying => { s with destructorStarted := true, shutdown := .destructing }
  | .destructing => { s with shutdown := .clearing }
  | .clearing => { s with reporter := false, shutdown := .resetting }
  | .resetting => { s with initialized := false, shutdown := .outside }

theorem LifetimeState.shutdownStep_cases (s : LifetimeState Tid) :
    s.shutdownStep.frame = s.frame ∧ s.shutdownStep.killed = s.killed ∧
      (s.shutdown ≠ .destroying → s.shutdownStep.destructorStarted = s.destructorStarted) := by
  rw [shutdownStep]
  cases hpc : s.shutdown with
  | restoring rest => cases rest <;> exact ⟨rfl, rfl, fun _ => rfl⟩
  | testingInstalled => simp only; split <;> exact ⟨rfl, rfl, fun _ => rfl⟩
  | destroying => exact ⟨rfl, rfl, fun hne => absurd rfl hne⟩
  | _ => exact ⟨rfl, rfl, fun _ => rfl⟩

/-- Where the handler calls `ReportCrash` or, from inside of it, `WriteToFile`, the
destructor of the reporter has not started. -/
def LifetimeState.CallsLive (s : LifetimeState Tid) : LifetimeStep Tid → Prop
  | .handler t =>
      ∀ frame ∈ s.frame t, frame.pc = .calling ∨ frame.pc = .writing →
        s.destructorStarted = false
  | _ => True

/-- The destructor starts only when no handler holds the pointer, and no handler reads
`reporter_` between the start of the destructor and `reporter_ = nullptr`. -/
def LifetimeState.Guarded (s : LifetimeState Tid) : LifetimeStep Tid → Prop
  | .shutdown => s.shutdown = .destroying → ∀ t, ∀ frame ∈ s.frame t, ¬ frame.pc.Holds
  | .handler t =>
      ∀ frame ∈ s.frame t, frame.pc = .reading → s.reporter = true →
        s.destructorStarted = false
  | _ => True

/-- Once the destructor has started, no handler holds the pointer. -/
def LifetimeState.Released (s : LifetimeState Tid) : Prop :=
  s.destructorStarted = true → ∀ t, ∀ frame ∈ s.frame t, ¬ frame.pc.Holds

theorem LifetimeState.Released.callsLive {s : LifetimeState Tid} (hreleased : s.Released)
    (label : LifetimeStep Tid) : s.CallsLive label := by
  cases label with
  | handler t =>
      intro frame hframe hcalls
      by_contra hstarted
      exact hreleased (Bool.not_eq_false _ ▸ hstarted) t frame hframe (Or.inr hcalls)
  | deliver | shutdown | reportThrows | sigaction => trivial

variable [DecidableEq Tid]

def LifetimeState.setFrame (s : LifetimeState Tid) (t : Tid) (frame : Option ReportFrame) :
    LifetimeState Tid :=
  { s with frame := Function.update s.frame t frame }

/-- The kernel delivers the signal to a thread that is in no handler. -/
def LifetimeState.deliver (s : LifetimeState Tid) (t : Tid) (sig : CrashSignal) :
    LifetimeState Tid :=
  match s.disposition sig with
  | .handleCrashSignal => s.setFrame t (some ⟨sig, .building⟩)
  | .application action =>
      match action.handler with
      | .sigDfl => { s.setFrame t none with killed := true }
      | .sigIgn => s.setFrame t none
      | .function _ => s.setFrame t none

/-- One step of `HandleCrashSignal`. -/
def LifetimeState.handlerStep (s : LifetimeState Tid) (t : Tid) (frame : ReportFrame) :
    Option (LifetimeState Tid) :=
  let goto := fun pc => s.setFrame t (some { frame with pc := pc })
  match frame.pc with
  | .building => some (goto .reading)
  | .reading => some (goto (.testing s.reporter))
  | .testing reporter => some (goto (if reporter then .calling else .chaining))
  | .calling => some (goto .writing)
  | .writing => some (goto .chaining)
  | .chaining =>
      match (s.oldActions frame.sig).chainPc with
      | none => some (s.setFrame t none)
      | some .raising =>
          some { goto .raising with
            disposition := Function.update s.disposition frame.sig .zero }
      | some pc => some (goto pc)
  | .raising => some (goto .raised)
  -- the handler returns, its signal is unblocked and delivered
  | .raised => some (s.deliver t frame.sig)
  | .application => some (s.setFrame t none)
  | .sigIgnAddress => none

def LifetimeState.step (s : LifetimeState Tid) (label : LifetimeStep Tid) :
    Option (LifetimeState Tid) :=
  if s.killed then none
  else
    match label with
    | .deliver t sig =>
        match s.frame t with
        | none => some (s.deliver t sig)
        | some _ => none
    | .handler t => (s.frame t).bind (s.handlerStep t)
    | .shutdown => some s.shutdownStep
    | .reportThrows =>
        if s.shutdown = .reportingLeaks ∨ s.shutdown = .reportingFds then
          some { s with shutdown := .outside }
        else none
    | .sigaction sig action =>
        some { s with
          disposition := Function.update s.disposition sig (.application action) }

theorem SigAction.chainPc_not_holds {old : SigAction} {pc : ReporterPc}
    (hpc : old.chainPc = some pc) : ¬ pc.Holds := by
  rw [chainPc] at hpc
  split at hpc <;> split at hpc <;> cases hpc <;> exact nofun

/-- A delivery puts the thread at the start of the handler, or in none. -/
theorem LifetimeState.deliver_cases (s : LifetimeState Tid) (t : Tid) (sig : CrashSignal) :
    (s.deliver t sig).destructorStarted = s.destructorStarted ∧
      ∃ frame', (s.deliver t sig).frame = Function.update s.frame t frame' ∧
        ∀ frame, frame' = some frame → ¬ frame.pc.Holds := by
  rw [deliver]
  split
  · refine ⟨rfl, _, rfl, ?_⟩
    rintro _ ⟨⟩
    exact nofun
  · split <;> exact ⟨rfl, none, rfl, nofun⟩

/-- Only a handler that holds the pointer, or reads it, holds it after the step. -/
theorem LifetimeState.handlerStep_cases {s next : LifetimeState Tid} {t : Tid}
    {frame : ReportFrame} (hstep : s.handlerStep t frame = some next) :
    next.destructorStarted = s.destructorStarted ∧
      ∃ frame', next.frame = Function.update s.frame t frame' ∧
        ∀ after, frame' = some after → after.pc.Holds →
          frame.pc.Holds ∨ frame.pc = .reading ∧ s.reporter = true := by
  rcases frame with ⟨sig, pc⟩
  cases pc with
  | building =>
      obtain rfl := Option.some.inj hstep
      refine ⟨rfl, _, rfl, ?_⟩
      rintro _ ⟨⟩
      exact nofun
  | reading =>
      obtain rfl := Option.some.inj hstep
      refine ⟨rfl, _, rfl, ?_⟩
      rintro _ ⟨⟩ hholds
      rcases hholds with hpc | hpc | hpc
      · exact Or.inr ⟨rfl, ReporterPc.testing.inj hpc⟩
      · cases hpc
      · cases hpc
  | testing reporter =>
      obtain rfl := Option.some.inj hstep
      refine ⟨rfl, _, rfl, ?_⟩
      rintro _ ⟨⟩ hholds
      cases reporter with
      | true => exact Or.inl (Or.inl rfl)
      | false =>
          rcases hholds with hpc | hpc | hpc <;> cases hpc
  | calling =>
      obtain rfl := Option.some.inj hstep
      exact ⟨rfl, _, rfl, fun _ _ _ => Or.inl (Or.inr (Or.inl rfl))⟩
  | writing =>
      obtain rfl := Option.some.inj hstep
      exact ⟨rfl, _, rfl, fun _ _ _ => Or.inl (Or.inr (Or.inr rfl))⟩
  | chaining =>
      simp only [handlerStep] at hstep
      split at hstep
      next =>
        obtain rfl := Option.some.inj hstep
        exact ⟨rfl, _, rfl, nofun⟩
      next =>
        obtain rfl := Option.some.inj hstep
        refine ⟨rfl, _, rfl, ?_⟩
        rintro _ ⟨⟩
        exact nofun
      next pc hraising hpc =>
        obtain rfl := Option.some.inj hstep
        refine ⟨rfl, _, rfl, ?_⟩
        rintro _ ⟨⟩ hholds
        exact absurd hholds (SigAction.chainPc_not_holds hpc)
  | raising =>
      obtain rfl := Option.some.inj hstep
      refine ⟨rfl, _, rfl, ?_⟩
      rintro _ ⟨⟩
      exact nofun
  | raised =>
      obtain rfl := Option.some.inj hstep
      obtain ⟨hstarted, frame', hframe, hnone⟩ := s.deliver_cases t sig
      exact ⟨hstarted, frame', hframe, fun after hafter hholds =>
        absurd hholds (hnone after hafter)⟩
  | application =>
      obtain rfl := Option.some.inj hstep
      exact ⟨rfl, _, rfl, nofun⟩
  | sigIgnAddress => cases hstep

/-- A step of one handler concerns the others not at all. -/
theorem LifetimeState.Released.of_frame {s next : LifetimeState Tid} (hreleased : s.Released)
    {t : Tid} {frame' : Option ReportFrame}
    (hstarted : next.destructorStarted = s.destructorStarted)
    (hframe : next.frame = Function.update s.frame t frame')
    (hnew : s.destructorStarted = true → ∀ after, frame' = some after → ¬ after.pc.Holds) :
    next.Released := by
  intro hdestroyed t' after hafter
  rw [hstarted] at hdestroyed
  rw [hframe] at hafter
  by_cases hsame : t' = t
  · rw [hsame, Function.update_self] at hafter
    exact hnew hdestroyed after hafter
  · rw [Function.update_of_ne hsame] at hafter
    exact hreleased hdestroyed t' after hafter

/-- A step under the guard leaves no handler with a pointer to a reporter that is being
destroyed. -/
theorem LifetimeState.step_released {s next : LifetimeState Tid} {label : LifetimeStep Tid}
    (hreleased : s.Released) (hguarded : s.Guarded label) (hstep : s.step label = some next) :
    next.Released := by
  simp only [step] at hstep
  split at hstep
  next => cases hstep
  next =>
    cases label with
    | deliver t sig =>
        simp only at hstep
        split at hstep
        next =>
          obtain rfl := Option.some.inj hstep
          obtain ⟨hstarted, frame', hframe, hnone⟩ := s.deliver_cases t sig
          exact hreleased.of_frame hstarted hframe fun _ => hnone
        next => cases hstep
    | handler t =>
        obtain ⟨frame, hframe, hstep⟩ := Option.bind_eq_some_iff.mp hstep
        obtain ⟨hstarted, frame', hframe', hholds⟩ := handlerStep_cases hstep
        apply hreleased.of_frame hstarted hframe'
        intro hdestroyed after hafter hpc
        rcases hholds after hafter hpc with hbefore | ⟨hreading, hreporter⟩
        · exact hreleased hdestroyed t frame hframe hbefore
        · rw [hguarded frame hframe hreading hreporter] at hdestroyed
          contradiction
    | shutdown =>
        obtain rfl := Option.some.inj hstep
        obtain ⟨hframe, -, hstarted⟩ := s.shutdownStep_cases
        intro hdestroyed t' after hafter
        rw [hframe] at hafter
        by_cases hpc : s.shutdown = .destroying
        · exact hguarded hpc t' after hafter
        · rw [hstarted hpc] at hdestroyed
          exact hreleased hdestroyed t' after hafter
    | reportThrows =>
        simp only at hstep
        split at hstep
        next =>
          obtain rfl := Option.some.inj hstep
          exact hreleased
        next => cases hstep
    | sigaction sig action =>
        obtain rfl := Option.some.inj hstep
        exact hreleased

/-- A handler that holds the pointer goes on to call a method on it. -/
theorem LifetimeState.exists_call_of_calls {s : LifetimeState Tid} {t : Tid}
    {frame : ReportFrame} (halive : s.killed = false) (hstarted : s.destructorStarted = true)
    (hframe : s.frame t = some frame) (hcalls : frame.pc = .calling ∨ frame.pc = .writing) :
    ∃ final, run LifetimeState.step s [.handler t] = some final ∧
      ¬ Along LifetimeState.step LifetimeState.CallsLive s [.handler t] := by
  have hnext : ∃ next, s.step (.handler t) = some next := by
    rcases hcalls with hpc | hpc <;> simp [step, halive, hframe, handlerStep, hpc]
  obtain ⟨next, hnext⟩ := hnext
  refine ⟨next, run_cons_eq_some.mpr ⟨next, hnext, rfl⟩, ?_⟩
  rintro ⟨hlive, -⟩
  rw [hlive frame hframe hcalls] at hstarted
  contradiction

theorem LifetimeState.exists_call_of_holds {s : LifetimeState Tid} {t : Tid}
    {frame : ReportFrame} (halive : s.killed = false) (hstarted : s.destructorStarted = true)
    (hframe : s.frame t = some frame) (hholds : frame.pc.Holds) :
    ∃ count final,
      run LifetimeState.step s (List.replicate count (.handler t)) = some final ∧
        ¬ Along LifetimeState.step LifetimeState.CallsLive s
          (List.replicate count (.handler t)) := by
  rcases hholds with hpc | hcalls
  · let next := s.setFrame t (some { frame with pc := .calling })
    have hnext : s.step (.handler t) = some next := by
      simp [step, halive, hframe, handlerStep, hpc, next]
    have hcalling : next.frame t = some { frame with pc := .calling } :=
      Function.update_self ..
    obtain ⟨final, hrun, hdead⟩ :=
      exists_call_of_calls (s := next) halive hstarted hcalling (Or.inl rfl)
    refine ⟨2, final, run_cons_eq_some.mpr ⟨next, hnext, hrun⟩, ?_⟩
    rintro ⟨-, hall⟩
    exact hdead (hall next hnext)
  · exact ⟨1, exists_call_of_calls halive hstarted hframe hcalls⟩

/-- A step against the guard leaves a handler with a pointer to a reporter that is being
destroyed. -/
theorem LifetimeState.step_of_not_guarded {s next : LifetimeState Tid}
    {label : LifetimeStep Tid} (hnot : ¬ s.Guarded label)
    (hstep : s.step label = some next) :
    next.killed = false ∧ next.destructorStarted = true ∧
      ∃ t frame, next.frame t = some frame ∧ frame.pc.Holds := by
  simp only [step] at hstep
  split at hstep
  next => cases hstep
  next halive =>
    rw [Bool.not_eq_true] at halive
    cases label with
    | shutdown =>
        simp only [Guarded, not_forall, not_not] at hnot
        obtain ⟨hpc, t, frame, hframe, hholds⟩ := hnot
        obtain rfl := Option.some.inj hstep
        obtain ⟨hsame, hkilled, -⟩ := s.shutdownStep_cases
        refine ⟨hkilled.trans halive, ?_, t, frame, ?_, hholds⟩
        · simp only [shutdownStep, hpc]
        · rw [hsame]
          exact hframe
    | handler t =>
        simp only [Guarded, not_forall] at hnot
        obtain ⟨frame, hframe, hpc, hreporter, hstarted⟩ := hnot
        rw [Option.mem_def] at hframe
        simp only [hframe, Option.bind_some, handlerStep, hpc] at hstep
        obtain rfl := Option.some.inj hstep
        refine ⟨halive, Bool.not_eq_false _ ▸ hstarted, t, _, Function.update_self .., ?_⟩
        exact Or.inl (congrArg ReporterPc.testing hreporter)
    | deliver | reportThrows | sigaction => exact absurd trivial hnot

/-- With any number of crashing threads: where the guard holds at every step, no handler
calls a method on a reporter whose destructor has started; and after a step against the
guard a handler makes such a call by its own next steps. -/
theorem reporter_calls_live_iff (enabled : Bool) (old : CrashSignal → SigAction)
    (labels : List (LifetimeStep Tid)) (final : LifetimeState Tid)
    (hrun : run LifetimeState.step (LifetimeState.start Tid enabled old) labels =
      some final) :
    (Along LifetimeState.step LifetimeState.Guarded (LifetimeState.start Tid enabled old)
        labels →
      Along LifetimeState.step LifetimeState.CallsLive (LifetimeState.start Tid enabled old)
        labels) ∧
      ∀ before label after s, labels = before ++ label :: after →
        run LifetimeState.step (LifetimeState.start Tid enabled old) before = some s →
          ¬ s.Guarded label →
            ∃ t count last,
              run LifetimeState.step (LifetimeState.start Tid enabled old)
                (before ++ label :: List.replicate count (.handler t)) = some last ∧
              ¬ Along LifetimeState.step LifetimeState.CallsLive
                (LifetimeState.start Tid enabled old)
                (before ++ label :: List.replicate count (.handler t)) := by
  constructor
  · intro hguarded
    have hinitial : (LifetimeState.start Tid enabled old).Released := nofun
    exact hguarded.imp
      (fun _ _ _ hreleased hguarded hstep =>
        LifetimeState.step_released hreleased hguarded hstep)
      (fun _ label hreleased _ => hreleased.callsLive label) hinitial
  · rintro before label after s rfl hbefore hbad
    obtain ⟨s', hbefore', hrest⟩ := run_append_eq_some.mp hrun
    obtain rfl := Option.some.inj (hbefore.symm.trans hbefore')
    obtain ⟨next, hstep, -⟩ := run_cons_eq_some.mp hrest
    obtain ⟨halive, hstarted, t, frame, hframe, hholds⟩ :=
      LifetimeState.step_of_not_guarded hbad hstep
    obtain ⟨count, last, hlast, hdead⟩ :=
      LifetimeState.exists_call_of_holds halive hstarted hframe hholds
    refine ⟨t, count, last, run_append_eq_some.mpr ⟨s, hbefore, ?_⟩, ?_⟩
    · exact run_cons_eq_some.mpr ⟨next, hstep, hlast⟩
    · intro hall
      exact hdead (((along_append.mp hall).2 s hbefore).2 next hstep)

namespace LifetimeWitness

instance (pc : ReporterPc) : Decidable pc.Holds :=
  inferInstanceAs (Decidable (_ ∨ _ ∨ _))

instance (s : LifetimeState Unit) (label : LifetimeStep Unit) :
    Decidable (s.Guarded label) :=
  match label with
  | .shutdown =>
      inferInstanceAs (Decidable (s.shutdown = .destroying →
        ∀ t, ∀ frame ∈ s.frame t, ¬ frame.pc.Holds))
  | .handler t =>
      inferInstanceAs (Decidable (∀ frame ∈ s.frame t, frame.pc = .reading →
        s.reporter = true → s.destructorStarted = false))
  | .deliver _ _ | .reportThrows | .sigaction _ _ => .isTrue trivial

instance (s : LifetimeState Unit) (label : LifetimeStep Unit) :
    Decidable (s.CallsLive label) :=
  match label with
  | .handler t =>
      inferInstanceAs (Decidable (∀ frame ∈ s.frame t,
        frame.pc = .calling ∨ frame.pc = .writing → s.destructorStarted = false))
  | .deliver _ _ | .shutdown | .reportThrows | .sigaction _ _ => .isTrue trivial

/-- Every signal at its default. -/
def defaults : CrashSignal → SigAction :=
  fun _ => { handler := .sigDfl, flags := 0, mask := 0 }

/-- The handler has called `ReportCrash` and `WriteToFile` when the destructor starts. -/
def crashBefore : List (LifetimeStep Unit) :=
  .deliver () .sigfpe :: List.replicate 5 (.handler ()) ++ List.replicate 18 .shutdown

theorem crashBefore_live :
    Along LifetimeState.step LifetimeState.CallsLive
      (LifetimeState.start Unit true defaults) crashBefore := by
  have hrun : (run LifetimeState.step (LifetimeState.start Unit true defaults)
      crashBefore).isSome = true := by decide +kernel
  obtain ⟨final, hrun⟩ := Option.isSome_iff_exists.mp hrun
  apply (reporter_calls_live_iff true defaults crashBefore final hrun).1
  decide +kernel

/-- It has read the pointer and not yet used it. -/
def crashAcross : List (LifetimeStep Unit) :=
  .deliver () .sigfpe :: List.replicate 3 (.handler ()) ++ List.replicate 18 .shutdown ++
    [.handler ()]

theorem crashAcross_not_live :
    (run LifetimeState.step (LifetimeState.start Unit true defaults) crashAcross).isSome ∧
      ¬ Along LifetimeState.step LifetimeState.CallsLive
        (LifetimeState.start Unit true defaults) crashAcross := by
  decide +kernel

end LifetimeWitness

end Domovoy
