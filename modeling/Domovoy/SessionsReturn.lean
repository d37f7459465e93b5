/-
`Init` and `Shutdown` return: the control thread is only ever held up in `join`, by a
monitor thread that has found `running_` false or will.
-/
import Domovoy.MonitorSessions

namespace Domovoy

open WordAlign Transition

/-- The steps that a call has left until it returns, at most. -/
def ControlPc.stepsLeft : ControlPc → Nat
  | .idle => 0
  | .constructing _ => 6
  | .starting => 5
  | .flagging => 4
  | .spawning => 3
  | .assigning _ => 2
  | .finishing => 1
  | .stopping => 7
  | .clearing => 6
  | .joining => 5
  | .swapping => 4
  | .destroying => 3
  | .nulling => 2
  | .resetting => 1

/-- The steps that a monitor thread has left once `running_` is false, at most; the
samples that its scan still takes apart. -/
def MonitorPc.stepsLeft : MonitorPc → Nat
  | .testing => 1
  | .scanning => 2
  | .sleeping => 3
  | .updating _ => 3
  | .reporting _ _ => 4
  | .capturing _ => 5
  | .comparing _ => 6

/-- Where `Shutdown` stands from `join` on, and after it. -/
def ControlPc.Joins : ControlPc → Prop
  | .joining | .swapping | .destroying | .nulling | .resetting | .idle => True
  | _ => False

/-- No call is begun. -/
def SessionStep.Goes : SessionStep → Prop
  | .init _ => False
  | .shutdown => False
  | _ => True

def SessionStep.isControl : SessionStep → Bool
  | .control => true
  | _ => false

def SessionStep.isMonitor (thread : Nat) : SessionStep → Bool
  | .monitor other _ => other = thread
  | _ => false

def SessionStep.isSample (thread : Nat) : SessionStep → Bool
  | .monitor other (.sample _) => other = thread
  | _ => false

def SessionWorld.monitorLeft (w : SessionWorld) (thread : Nat) : Nat :=
  match w.monitors thread with
  | some monitor => monitor.pc.stepsLeft
  | none => 0

/-- The thread that `join` waits for lives. -/
def SessionWorld.Waits (w : SessionWorld) (thread : Nat) : Prop :=
  w.control = .joining ∧ w.monitorThread = some thread ∧ w.monitors thread ≠ none

variable {w next : SessionWorld} {sysconf : Int} {thread : Nat} {monitor : MonitorThread}
  {label : SessionStep}

/-- Every step of the control thread leaves its call fewer steps, and from `join` on none
of them sets `running_` or starts a thread. -/
theorem SessionWorld.controlStep_spec (hstep : w.controlStep = some next) :
    next.control.stepsLeft < w.control.stepsLeft ∧
      (w.control.Joins →
        next.control.Joins ∧ next.running = w.running ∧ next.monitors = w.monitors) := by
  rw [SessionWorld.controlStep] at hstep
  generalize w.control = pc at hstep
  cases pc with
  | idle => contradiction
  | constructing config =>
      obtain rfl := Option.some.inj hstep
      refine ⟨?_, False.elim⟩
      cases config.enableCpuProfiler <;> simp [ControlPc.stepsLeft]
  | starting =>
      obtain rfl := Option.some.inj hstep
      refine ⟨?_, False.elim⟩
      cases w.running <;> simp [ControlPc.stepsLeft]
  | flagging =>
      obtain rfl := Option.some.inj hstep
      exact ⟨by simp [ControlPc.stepsLeft], False.elim⟩
  | spawning =>
      obtain rfl := Option.some.inj hstep
      exact ⟨by simp [ControlPc.stepsLeft, setMonitor], False.elim⟩
  | assigning thread =>
      obtain rfl := Option.some.inj hstep
      exact ⟨by simp [ControlPc.stepsLeft], False.elim⟩
  | finishing =>
      obtain rfl := Option.some.inj hstep
      exact ⟨by simp [ControlPc.stepsLeft], False.elim⟩
  | stopping =>
      obtain rfl := Option.some.inj hstep
      refine ⟨?_, False.elim⟩
      cases w.running <;> simp [ControlPc.stepsLeft]
  | clearing =>
      obtain rfl := Option.some.inj hstep
      exact ⟨by simp [ControlPc.stepsLeft], False.elim⟩
  | joining =>
      cases hhandle : w.monitorThread with
      | none =>
          simp only [hhandle] at hstep
          obtain rfl := Option.some.inj hstep
          exact ⟨by simp [ControlPc.stepsLeft], fun _ => ⟨trivial, rfl, rfl⟩⟩
      | some thread =>
          simp only [hhandle, Option.ite_none_right_eq_some] at hstep
          obtain ⟨-, hstep⟩ := hstep
          obtain rfl := Option.some.inj hstep
          exact ⟨by simp [ControlPc.stepsLeft], fun _ => ⟨trivial, rfl, rfl⟩⟩
  | swapping =>
      obtain rfl := Option.some.inj hstep
      exact ⟨by simp [ControlPc.stepsLeft], fun _ => ⟨trivial, rfl, rfl⟩⟩
  | destroying =>
      cases hreporter : w.reporter with
      | none =>
          simp only [hreporter] at hstep
          obtain rfl := Option.some.inj hstep
          exact ⟨by simp [ControlPc.stepsLeft], fun _ => ⟨trivial, rfl, rfl⟩⟩
      | some reporter =>
          simp only [hreporter] at hstep
          obtain rfl := Option.some.inj hstep
          exact ⟨by simp [ControlPc.stepsLeft], fun _ => ⟨trivial, rfl, rfl⟩⟩
  | nulling =>
      obtain rfl := Option.some.inj hstep
      exact ⟨by simp [ControlPc.stepsLeft], fun _ => ⟨trivial, rfl, rfl⟩⟩
  | resetting =>
      obtain rfl := Option.some.inj hstep
      exact ⟨by simp [ControlPc.stepsLeft], fun _ => ⟨trivial, rfl, rfl⟩⟩

/-- The control thread goes on, unless it waits in `join` or is in no call. -/
theorem SessionWorld.controlStep_cases (w : SessionWorld) :
    w.control = .idle ∨ (∃ thread, w.Waits thread) ∨ ∃ next, w.controlStep = some next := by
  rw [SessionWorld.controlStep]
  cases hcontrol : w.control with
  | idle => exact Or.inl rfl
  | joining =>
      refine Or.inr ?_
      cases hhandle : w.monitorThread with
      | none => exact Or.inr ⟨_, rfl⟩
      | some thread =>
          by_cases hlive : w.monitors thread = none
          · exact Or.inr ⟨_, if_pos hlive⟩
          · exact Or.inl ⟨thread, hcontrol, hhandle, hlive⟩
  | destroying =>
      cases w.reporter with
      | none => exact Or.inr (Or.inr ⟨_, rfl⟩)
      | some reporter => exact Or.inr (Or.inr ⟨_, rfl⟩)
  | _ => exact Or.inr (Or.inr ⟨_, rfl⟩)

/-- No step of a monitor thread waits for anything. -/
theorem SessionWorld.monitorStep_isSome (sysconf : Int) (w : SessionWorld) (thread : Nat)
    (monitor : MonitorThread) :
    ∃ next, w.monitorStep sysconf thread monitor .next = some next := by
  obtain ⟨session, pc⟩ := monitor
  cases pc with
  | comparing sample =>
      simp only [monitorStep]
      cases w.threadStates.lookup sample.threadId <;> exact ⟨_, rfl⟩
  | capturing sample =>
      simp only [monitorStep]
      cases w.reporter <;> exact ⟨_, rfl⟩
  | _ => exact ⟨_, rfl⟩

/-- With `running_` false every step brings the thread nearer to its end, but for the
samples of the scan that it is in. -/
theorem SessionWorld.monitorStep_monitorLeft (hrunning : w.running = false)
    (hlive : w.monitors thread = some monitor) {move : MonitorMove}
    (hstep : w.monitorStep sysconf thread monitor move = some next) :
    next.monitorLeft thread + 1 ≤ w.monitorLeft thread +
      5 * (if SessionStep.isSample thread (.monitor thread move) then 1 else 0) := by
  obtain ⟨session, pc⟩ := monitor
  have hbefore : w.monitorLeft thread = pc.stepsLeft := by
    rw [monitorLeft, hlive]
  have hgoto : ∀ pc', (w.setMonitor thread (some ⟨session, pc'⟩)).monitorLeft thread =
      pc'.stepsLeft := by
    intro pc'
    simp [monitorLeft, setMonitor]
  rw [hbefore]
  cases pc with
  | testing =>
      cases move with
      | sample sample => simp [monitorStep] at hstep
      | next =>
          simp only [monitorStep, hrunning, Bool.false_eq_true, if_false] at hstep
          obtain rfl := Option.some.inj hstep
          simp [monitorLeft, setMonitor, MonitorPc.stepsLeft]
  | sleeping =>
      cases move with
      | sample sample => simp [monitorStep] at hstep
      | next =>
          obtain rfl := Option.some.inj hstep
          rw [hgoto]
          simp [MonitorPc.stepsLeft]
  | scanning =>
      cases move with
      | sample sample =>
          obtain rfl := Option.some.inj hstep
          rw [hgoto]
          simp [MonitorPc.stepsLeft, SessionStep.isSample]
      | next =>
          obtain rfl := Option.some.inj hstep
          rw [hgoto]
          simp [MonitorPc.stepsLeft]
  | comparing sample =>
      cases move with
      | sample sample => simp [monitorStep] at hstep
      | next =>
          simp only [monitorStep] at hstep
          cases hlookup : w.threadStates.lookup sample.threadId with
          | none =>
              simp only [hlookup] at hstep
              obtain rfl := Option.some.inj hstep
              rw [hgoto]
              simp [MonitorPc.stepsLeft, SessionStep.isSample]
          | some last =>
              simp only [hlookup] at hstep
              obtain rfl := Option.some.inj hstep
              rw [hgoto]
              split <;> simp [MonitorPc.stepsLeft, SessionStep.isSample]
  | capturing sample =>
      cases move with
      | sample sample => simp [monitorStep] at hstep
      | next =>
          simp only [monitorStep] at hstep
          cases hreporter : w.reporter with
          | none =>
              simp only [hreporter] at hstep
              obtain rfl := Option.some.inj hstep
              rw [hgoto]
              simp [MonitorPc.stepsLeft, SessionStep.isSample]
          | some reporter =>
              simp only [hreporter] at hstep
              obtain rfl := Option.some.inj hstep
              rw [hgoto]
              simp [MonitorPc.stepsLeft, SessionStep.isSample]
  | reporting sample reporter =>
      cases move with
      | sample sample => simp [monitorStep] at hstep
      | next =>
          obtain rfl := Option.some.inj hstep
          rw [hgoto]
          simp [MonitorPc.stepsLeft]
  | updating sample =>
      cases move with
      | sample sample => simp [monitorStep] at hstep
      | next =>
          obtain rfl := Option.some.inj hstep
          change (w.setMonitor thread (some ⟨session, .scanning⟩)).monitorLeft thread + 1 ≤ _
          rw [hgoto]
          simp [MonitorPc.stepsLeft]

theorem SessionWorld.step_monitor_eq_some {move : MonitorMove}
    (hstep : w.step sysconf (.monitor thread move) = some next) :
    ∃ monitor, w.monitors thread = some monitor ∧
      w.monitorStep sysconf thread monitor move = some next := by
  simp only [step] at hstep
  cases hlive : w.monitors thread with
  | none => simp [hlive] at hstep
  | some monitor =>
      simp only [hlive] at hstep
      exact ⟨monitor, rfl, hstep⟩

/-- A call takes as many steps of the control thread as it has left, at most. -/
theorem SessionWorld.step_control_left (hgoes : label.Goes)
    (hstep : w.step sysconf label = some next) :
    next.control.stepsLeft + (if label.isControl then 1 else 0) ≤ w.control.stepsLeft := by
  cases label with
  | init config => exact hgoes.elim
  | shutdown => exact hgoes.elim
  | control => exact (controlStep_spec hstep).1
  | monitor thread move =>
      obtain ⟨monitor, hlive, hmove⟩ := step_monitor_eq_some hstep
      rw [(monitorStep_same hmove).control]
      simp [SessionStep.isControl]

/-- From `join` on, `running_` stays false and no monitor thread is started. -/
structure SessionWorld.Stopped (w : SessionWorld) : Prop where
  joins : w.control.Joins
  running : w.running = false

theorem SessionWorld.Stopped.step (hstopped : w.Stopped) (hgoes : label.Goes)
    (hstep : w.step sysconf label = some next) : next.Stopped := by
  cases label with
  | init config => exact hgoes.elim
  | shutdown => exact hgoes.elim
  | control =>
      obtain ⟨hjoins, hrunning, -⟩ := (controlStep_spec hstep).2 hstopped.joins
      exact ⟨hjoins, hrunning.trans hstopped.running⟩
  | monitor thread move =>
      obtain ⟨monitor, hlive, hmove⟩ := step_monitor_eq_some hstep
      have hsame := monitorStep_same hmove
      refine ⟨?_, hsame.running.trans hstopped.running⟩
      rw [hsame.control]
      exact hstopped.joins

theorem SessionWorld.Stopped.step_monitorLeft (hstopped : w.Stopped) (hgoes : label.Goes)
    (hstep : w.step sysconf label = some next) (thread : Nat) :
    next.monitorLeft thread + (if label.isMonitor thread then 1 else 0) ≤
      w.monitorLeft thread + 5 * (if label.isSample thread then 1 else 0) := by
  cases label with
  | init config => exact hgoes.elim
  | shutdown => exact hgoes.elim
  | control =>
      obtain ⟨-, -, hmonitors⟩ := (controlStep_spec hstep).2 hstopped.joins
      rw [monitorLeft, hmonitors]
      exact Nat.le_add_right _ _
  | monitor other move =>
      obtain ⟨monitor, hlive, hmove⟩ := step_monitor_eq_some hstep
      by_cases hother : other = thread
      · subst hother
        simpa [SessionStep.isMonitor] using
          monitorStep_monitorLeft hstopped.running hlive hmove
      · rw [monitorLeft, (monitorStep_same hmove).others thread (Ne.symm hother)]
        simp only [SessionStep.isMonitor, hother, decide_false, Bool.false_eq_true, if_false]
        exact Nat.le_add_right _ _

/-- After any run of the monitor, and where no call throws, a call that is open takes a
bounded number of steps of its own; in `join` it waits for a thread that takes a bounded
number too, apart from the samples of its last scan; and where neither of them can go on,
the call has returned. -/
theorem sessions_return (sysconf : Int) (before labels : List SessionStep)
    (w final : SessionWorld)
    (hbefore : run (SessionWorld.step sysconf) SessionWorld.initial before = some w)
    (hgoes : ∀ label ∈ labels, label.Goes)
    (hrun : run (SessionWorld.step sysconf) w labels = some final) :
    labels.countP SessionStep.isControl ≤ w.control.stepsLeft ∧
      (w.control = .joining → ∀ thread,
        labels.countP (SessionStep.isMonitor thread) ≤
          w.monitorLeft thread + 5 * labels.countP (SessionStep.isSample thread)) ∧
      ((∀ label : SessionStep, label.Goes → final.step sysconf label = none) →
        final.control = .idle) := by
  have hgoesAlong : Along (SessionWorld.step sysconf) (fun _ label => label.Goes) w labels :=
    (along_iff_forall hrun).mpr hgoes
  refine ⟨?_, ?_, ?_⟩
  · have hspends : ∀ (state : SessionWorld) (label : SessionStep) (next : SessionWorld),
        True → label.Goes → state.step sysconf label = some next →
          next.control.stepsLeft + (if label.isControl then 1 else 0) ≤
            state.control.stepsLeft + 0 * (if label.isControl then 1 else 0) := by
      intro state label next _ hgoes hstep
      rw [Nat.zero_mul]
      exact SessionWorld.step_control_left hgoes hstep
    have hcount := run_countP_le (fun _ => True) (fun _ _ _ _ _ _ => trivial) hspends
      trivial hgoesAlong hrun
    rw [Nat.zero_mul] at hcount
    exact (Nat.le_add_left _ _).trans hcount
  · intro hjoining thread
    have hinv : w.Inv := run_invariant (fun _ _ _ hinv hstep => hinv.step hstep)
      SessionWorld.Inv.initial hbefore
    have hphase := hinv.phase
    rw [hjoining] at hphase
    have hstopped : w.Stopped := ⟨by rw [hjoining]; trivial, hphase.2.1⟩
    have hspends : ∀ (state : SessionWorld) (label : SessionStep) (next : SessionWorld),
        state.Stopped → label.Goes → state.step sysconf label = some next →
          next.monitorLeft thread + (if label.isMonitor thread then 1 else 0) ≤
            state.monitorLeft thread + 5 * (if label.isSample thread then 1 else 0) :=
      fun _ _ _ hstopped hgoes hstep => hstopped.step_monitorLeft hgoes hstep thread
    have hcount := run_countP_le SessionWorld.Stopped
      (fun _ _ _ hstopped hgoes hstep => hstopped.step hgoes hstep) hspends
      hstopped hgoesAlong hrun
    exact (Nat.le_add_left _ _).trans hcount
  · intro hstuck
    rcases final.controlStep_cases with hidle | ⟨thread, -, -, hlive⟩ | ⟨next, hnext⟩
    · exact hidle
    · obtain ⟨monitor, hmonitor⟩ := Option.ne_none_iff_exists'.mp hlive
      obtain ⟨next, hnext⟩ := final.monitorStep_isSome sysconf thread monitor
      have hnone := hstuck (.monitor thread .next) trivial
      simp only [SessionWorld.step, hmonitor, hnext] at hnone
      contradiction
    · have hnone := hstuck .control trivial
      rw [SessionWorld.step, hnext] at hnone
      contradiction

namespace ReturnWitness

def scanned (utime now : Word) : Sample where
  threadId := 7
  utime := utime
  stime := 0
  now := now

/-- `Stop` waits for a monitor thread that sleeps. -/
def stopping : List SessionStep :=
  [.init { enableCpuProfiler := true }, .control, .control, .control, .control, .control,
    .control, .monitor 0 .next, .shutdown, .control, .control]

/-- The thread scans once more before it finds `running_` false. -/
def lastScan : List SessionStep :=
  [.monitor 0 .next, .monitor 0 (.sample (scanned 50 500000001)), .monitor 0 .next,
    .monitor 0 .next, .monitor 0 .next, .monitor 0 .next, .control, .control, .control,
    .control, .control]

theorem lastScan_return :
    ∃ w final, run (SessionWorld.step 100) SessionWorld.initial stopping = some w ∧
      run (SessionWorld.step 100) w lastScan = some final ∧
      lastScan.countP SessionStep.isControl ≤ w.control.stepsLeft ∧
      (w.control = .joining → ∀ thread,
        lastScan.countP (SessionStep.isMonitor thread) ≤
          w.monitorLeft thread + 5 * lastScan.countP (SessionStep.isSample thread)) ∧
      ((∀ label : SessionStep, label.Goes → final.step 100 label = none) →
        final.control = .idle) :=
  ⟨_, _, rfl, rfl, sessions_return 100 stopping lastScan _ _ rfl
    (by simp [lastScan, SessionStep.Goes]) rfl⟩

end ReturnWitness

end Domovoy
