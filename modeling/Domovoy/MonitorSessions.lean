/-
Sessions of the CPU monitor: `Init` and `Shutdown` on one control thread, step by
step, against the monitor threads that they start and join. No call throws.
-/
import Domovoy.CpuMonitor
import Domovoy.Transition

namespace Domovoy

open WordAlign Transition

/-- Where the control thread stands in `Init`, in `Shutdown` and in what they call;
the parts that neither the monitor nor the reporter sees are left out. -/
inductive ControlPc where
  | idle
  | constructing (config : DomovoyConfig)
  | starting
  | flagging
  | spawning
  | assigning (thread : Nat)
  | finishing
  | stopping
  | clearing
  | joining
  | swapping
  | destroying
  | nulling
  | resetting
deriving DecidableEq, Repr

/-- Where a monitor thread stands; in a scan it handles one sample after the other. -/
inductive MonitorPc where
  | testing
  | sleeping
  | scanning
  | comparing (sample : Sample)
  | capturing (sample : Sample)
  | reporting (sample : Sample) (reporter : Nat)
  | updating (sample : Sample)
deriving DecidableEq, Repr

/-- Inside `CheckThreadsForHighCpu`. -/
def MonitorPc.Scanning : MonitorPc → Prop
  | .testing => False
  | .sleeping => False
  | _ => True

/-- A monitor thread and the session that started it. -/
structure MonitorThread where
  session : Nat
  pc : MonitorPc
deriving DecidableEq, Repr

/-- The shared variables, the threads and, for the statements only, which session is
the last that began, which took each sample that is kept, and which reporters are
gone. A reporter is named by the session whose `Init` constructed it. -/
structure SessionWorld where
  initialized : Bool
  running : Bool
  monitorThread : Option Nat
  threadStates : ThreadMap
  reporter : Option Nat
  control : ControlPc
  monitors : Nat → Option MonitorThread
  spawned : Nat
  session : Nat
  takenIn : Word → Nat
  destroyed : List Nat

def SessionWorld.initial : SessionWorld where
  initialized := false
  running := false
  monitorThread := none
  threadStates := ∅
  reporter := none
  control := .idle
  monitors := fun _ => none
  spawned := 0
  session := 0
  takenIn := fun _ => 0
  destroyed := []

inductive MonitorMove where
  | next
  | sample (sample : Sample)
deriving DecidableEq, Repr

inductive SessionStep where
  | init (config : DomovoyConfig)
  | shutdown
  | control
  | monitor (thread : Nat) (move : MonitorMove)
deriving DecidableEq, Repr

def SessionWorld.setMonitor (thread : Nat) (monitor : Option MonitorThread)
    (w : SessionWorld) : SessionWorld :=
  { w with monitors := Function.update w.monitors thread monitor }

/-- The next step of the control thread; it waits in `join` while the thread lives. -/
def SessionWorld.controlStep (w : SessionWorld) : Option SessionWorld :=
  match w.control with
  | .idle => none
  | .constructing config =>
      some { w with
        session := w.session + 1
        reporter := some (w.session + 1)
        control := if config.enableCpuProfiler then .starting else .finishing }
  | .starting => some { w with control := if w.running then .finishing else .flagging }
  | .flagging => some { w with running := true, control := .spawning }
  | .spawning =>
      some ({ w with spawned := w.spawned + 1, control := .assigning w.spawned }.setMonitor
        w.spawned (some { session := w.session, pc := .testing }))
  | .assigning thread =>
      some { w with monitorThread := some thread, control := .finishing }
  | .finishing => some { w with initialized := true, control := .idle }
  | .stopping =>
      some { w with control := if w.running then .clearing else .destroying }
  | .clearing => some { w with running := false, control := .joining }
  | .joining =>
      match w.monitorThread with
      | none => some { w with control := .swapping }
      | some thread =>
          if w.monitors thread = none then
            some { w with monitorThread := none, control := .swapping }
          else none
  | .swapping => some { w with threadStates := ∅, control := .destroying }
  | .destroying =>
      match w.reporter with
      | some reporter =>
          some { w with destroyed := reporter :: w.destroyed, control := .nulling }
      | none => some { w with control := .resetting }
  | .nulling => some { w with reporter := none, control := .resetting }
  | .resetting => some { w with initialized := false, control := .idle }

/-- The next step of a monitor thread; it is gone once it has found `running_`
false. -/
def SessionWorld.monitorStep (sysconf : Int) (w : SessionWorld) (thread : Nat)
    (monitor : MonitorThread) (move : MonitorMove) : Option SessionWorld :=
  let goto (pc : MonitorPc) := w.setMonitor thread (some { monitor with pc := pc })
  match monitor.pc, move with
  | .testing, .next =>
      some (if w.running then goto .sleeping else w.setMonitor thread none)
  | .sleeping, .next => some (goto .scanning)
  | .scanning, .sample sample => some (goto (.comparing sample))
  | .scanning, .next => some (goto .testing)
  | .comparing sample, .next =>
      match w.threadStates.lookup sample.threadId with
      | some last =>
          some (goto (if last.Spins (sample.cpuTime sysconf) sample.now
            then .capturing sample else .updating sample))
      | none => some (goto (.updating sample))
  | .capturing sample, .next =>
      match w.reporter with
      | some reporter => some (goto (.reporting sample reporter))
      | none => some (goto (.updating sample))
  | .reporting sample _, .next => some (goto (.updating sample))
  | .updating sample, .next =>
      some { goto .scanning with
        threadStates := w.threadStates.insert sample.threadId
          { lastCpuTimeNs := sample.cpuTime sysconf, lastCheckTimeNs := sample.now }
        takenIn := Function.update w.takenIn sample.threadId monitor.session }
  | _, _ => none

def SessionWorld.step (sysconf : Int) (w : SessionWorld) :
    SessionStep → Option SessionWorld
  | .init config =>
      if w.control = .idle then
        some (if w.initialized then w else { w with control := .constructing config })
      else none
  | .shutdown =>
      if w.control = .idle then
        some (if w.initialized then { w with control := .stopping } else w)
      else none
  | .control => w.controlStep
  | .monitor thread move =>
      match w.monitors thread with
      | some monitor => w.monitorStep sysconf thread monitor move
      | none => none

/-- A sample is reported by these steps exactly when the scan as a whole reports it. -/
theorem SessionWorld.monitorStep_comparing (sysconf : Int) (w : SessionWorld)
    (thread session : Nat) (sample : Sample) :
    w.monitorStep sysconf thread { session := session, pc := .comparing sample } .next =
      some (w.setMonitor thread (some (MonitorThread.mk session
        (if sample.threadId ∈ (sampleThread sysconf sample w.threadStates).1
          then .capturing sample else .updating sample)))) := by
  cases hlookup : w.threadStates.lookup sample.threadId with
  | none => simp [monitorStep, sampleThread, hlookup]
  | some last =>
      by_cases hspins : last.Spins (sample.cpuTime sysconf) sample.now <;>
        simp [monitorStep, sampleThread, hlookup, hspins]

/-- The map is left as the scan as a whole leaves it. -/
theorem SessionWorld.monitorStep_updating {sysconf : Int} {w next : SessionWorld}
    {thread session : Nat} {sample : Sample}
    (hstep : w.monitorStep sysconf thread
      { session := session, pc := .updating sample } .next = some next) :
    next.threadStates = (sampleThread sysconf sample w.threadStates).2 := by
  obtain rfl := Option.some.inj hstep
  cases hlookup : w.threadStates.lookup sample.threadId with
  | none => simp [sampleThread, hlookup]
  | some last => simp [sampleThread, hlookup]

/-- The sessions do not bleed into one another. -/
structure SessionWorld.SessionsApart (w : SessionWorld) : Prop where
  one : ∀ thread thread', w.monitors thread ≠ none → w.monitors thread' ≠ none →
    thread = thread'
  swap : w.control = .swapping → ∀ thread monitor,
    w.monitors thread = some monitor → ¬ monitor.pc.Scanning
  compare : ∀ thread session sample last,
    w.monitors thread = some { session := session, pc := .comparing sample } →
    w.threadStates.lookup sample.threadId = some last →
      w.takenIn sample.threadId = session
  report : ∀ thread session sample reporter,
    w.monitors thread = some { session := session, pc := .reporting sample reporter } →
      reporter = session ∧ reporter ∉ w.destroyed
  quiet : w.control = .idle → w.initialized = false → ∀ thread, w.monitors thread = none

section Phases

variable (w : SessionWorld)

/-- The reporter of the session that began last is there. -/
def SessionWorld.Reporting : Prop :=
  w.reporter = some w.session ∧ w.session ∉ w.destroyed

/-- No monitor thread, and nothing left of one. -/
structure SessionWorld.Quiet : Prop where
  running : w.running = false
  monitorThread : w.monitorThread = none
  monitors : ∀ thread, w.monitors thread = none
  threadStates : w.threadStates = ∅

/-- No monitor thread but this one. -/
def SessionWorld.Only (thread : Nat) : Prop :=
  ∀ other, other ≠ thread → w.monitors other = none

/-- The monitor thread of the session is the one that `Stop` will join. -/
def SessionWorld.Monitored (running : Bool) : Prop :=
  w.running = running ∧ ∃ thread, w.monitorThread = some thread ∧ w.Only thread

/-- In a session, with its monitor or without one. -/
def SessionWorld.InSession : Prop :=
  w.Reporting ∧ (w.Quiet ∨ w.Monitored true)

/-- What holds where the control thread stands. -/
def SessionWorld.Phase : ControlPc → Prop
  | .idle => if w.initialized then w.InSession else w.reporter = none ∧ w.Quiet
  | .constructing _ => w.reporter = none ∧ w.Quiet
  | .starting => w.Reporting ∧ w.Quiet
  | .flagging => w.Reporting ∧ w.Quiet
  | .spawning =>
      w.Reporting ∧ w.monitorThread = none ∧ w.running = true ∧
        (∀ thread, w.monitors thread = none) ∧ w.threadStates = ∅
  | .assigning thread =>
      w.Reporting ∧ w.monitorThread = none ∧ w.running = true ∧ w.Only thread
  | .finishing => w.InSession
  | .stopping => w.InSession
  | .clearing => w.Reporting ∧ w.Monitored true
  | .joining => w.Reporting ∧ w.Monitored false
  | .swapping =>
      w.Reporting ∧ w.running = false ∧ w.monitorThread = none ∧
        ∀ thread, w.monitors thread = none
  | .destroying => w.Reporting ∧ w.Quiet
  | .nulling => w.Quiet
  | .resetting => w.reporter = none ∧ w.Quiet

/-- The invariant of every run. -/
structure SessionWorld.Inv : Prop where
  phase : w.Phase w.control
  monitors : ∀ thread monitor, w.monitors thread = some monitor →
    monitor.session = w.session
  taken : ∀ id last, w.threadStates.lookup id = some last → w.takenIn id = w.session
  reporting : ∀ thread session sample reporter,
    w.monitors thread = some { session := session, pc := .reporting sample reporter } →
      w.reporter = some reporter
  destroyed : ∀ reporter ∈ w.destroyed, reporter ≤ w.session

end Phases

variable {w next : SessionWorld} {sysconf : Int} {thread : Nat} {monitor : MonitorThread}

theorem SessionWorld.Quiet.not_live (hquiet : w.Quiet)
    (hlive : w.monitors thread = some monitor) : False := by
  rw [hquiet.monitors thread] at hlive
  contradiction

theorem SessionWorld.Only.of_live {other : Nat} (honly : w.Only other)
    (hlive : w.monitors thread = some monitor) : thread = other := by
  by_contra hne
  rw [honly thread hne] at hlive
  contradiction

theorem SessionWorld.Monitored.live {running : Bool} (hmonitored : w.Monitored running)
    (hlive : w.monitors thread = some monitor) :
    w.running = running ∧ w.monitorThread = some thread ∧ w.Only thread := by
  obtain ⟨hrunning, other, hother, honly⟩ := hmonitored
  obtain rfl := honly.of_live hlive
  exact ⟨hrunning, hother, honly⟩

theorem SessionWorld.InSession.live (hsession : w.InSession)
    (hlive : w.monitors thread = some monitor) : w.Reporting ∧ w.Monitored true := by
  obtain ⟨hreporting, hquiet | hmonitored⟩ := hsession
  · exact (hquiet.not_live hlive).elim
  · exact ⟨hreporting, hmonitored⟩

/-- Where a monitor thread lives. -/
inductive SessionWorld.LivePhase (w : SessionWorld) (thread : Nat) : ControlPc → Prop
  | idle (hinitialized : w.initialized = true) (hmonitored : w.Monitored true) :
      LivePhase w thread .idle
  | assigning (hhandle : w.monitorThread = none) (hrunning : w.running = true)
      (honly : w.Only thread) : LivePhase w thread (.assigning thread)
  | finishing (hmonitored : w.Monitored true) : LivePhase w thread .finishing
  | stopping (hmonitored : w.Monitored true) : LivePhase w thread .stopping
  | clearing (hmonitored : w.Monitored true) : LivePhase w thread .clearing
  | joining (hmonitored : w.Monitored false) : LivePhase w thread .joining

theorem SessionWorld.Phase.live {pc : ControlPc} (hphase : w.Phase pc)
    (hlive : w.monitors thread = some monitor) :
    w.Reporting ∧ w.LivePhase thread pc := by
  cases pc with
  | idle =>
      cases hinitialized : w.initialized with
      | false =>
          simp only [Phase, hinitialized, Bool.false_eq_true, if_false] at hphase
          exact (hphase.2.not_live hlive).elim
      | true =>
          simp only [Phase, hinitialized, if_true] at hphase
          exact (hphase.live hlive).imp_right (.idle hinitialized)
  | constructing config => exact (hphase.2.not_live hlive).elim
  | starting => exact (hphase.2.not_live hlive).elim
  | flagging => exact (hphase.2.not_live hlive).elim
  | spawning =>
      rw [hphase.2.2.2.1 thread] at hlive
      contradiction
  | assigning other =>
      obtain ⟨hreporting, hhandle, hrunning, honly⟩ := hphase
      obtain rfl := honly.of_live hlive
      exact ⟨hreporting, .assigning hhandle hrunning honly⟩
  | finishing => exact (InSession.live hphase hlive).imp_right .finishing
  | stopping => exact (InSession.live hphase hlive).imp_right .stopping
  | clearing => exact And.imp_right .clearing hphase
  | joining => exact And.imp_right .joining hphase
  | swapping =>
      rw [hphase.2.2.2 thread] at hlive
      contradiction
  | destroying => exact (hphase.2.not_live hlive).elim
  | nulling => exact (Quiet.not_live hphase hlive).elim
  | resetting => exact (hphase.2.not_live hlive).elim

theorem SessionWorld.LivePhase.only {pc : ControlPc} (hphase : w.LivePhase thread pc)
    (hlive : w.monitors thread = some monitor) : w.Only thread := by
  cases hphase with
  | idle _ hmonitored => exact (hmonitored.live hlive).2.2
  | assigning _ _ honly => exact honly
  | finishing hmonitored => exact (hmonitored.live hlive).2.2
  | stopping hmonitored => exact (hmonitored.live hlive).2.2
  | clearing hmonitored => exact (hmonitored.live hlive).2.2
  | joining hmonitored => exact (hmonitored.live hlive).2.2

/-- A step that leaves alone all that a phase speaks of, but the live thread. -/
structure SessionWorld.SameSession (thread : Nat) (w next : SessionWorld) : Prop where
  initialized : next.initialized = w.initialized
  running : next.running = w.running
  monitorThread : next.monitorThread = w.monitorThread
  reporter : next.reporter = w.reporter
  control : next.control = w.control
  session : next.session = w.session
  destroyed : next.destroyed = w.destroyed
  others : ∀ other, other ≠ thread → next.monitors other = w.monitors other

theorem SessionWorld.SameSession.phase (hsame : w.SameSession thread next)
    (hlive : w.monitors thread = some monitor) {pc : ControlPc} (hphase : w.Phase pc) :
    next.Phase pc := by
  obtain ⟨⟨hreporter, hdestroyed⟩, hlivePhase⟩ := hphase.live hlive
  have hreporting : next.Reporting := by
    rw [Reporting, hsame.reporter, hsame.session, hsame.destroyed]
    exact ⟨hreporter, hdestroyed⟩
  have honly : next.Only thread := by
    intro other hother
    rw [hsame.others other hother]
    exact hlivePhase.only hlive other hother
  have hmonitored : ∀ running, w.Monitored running → next.Monitored running := by
    intro running hmonitored
    obtain ⟨hrunning, hhandle, -⟩ := hmonitored.live hlive
    exact ⟨hsame.running.trans hrunning, thread, hsame.monitorThread.trans hhandle, honly⟩
  cases hlivePhase with
  | idle hinitialized hold =>
      simp only [Phase, hsame.initialized, hinitialized, if_true]
      exact ⟨hreporting, Or.inr (hmonitored true hold)⟩
  | assigning hhandle hrunning =>
      exact ⟨hreporting, hsame.monitorThread.trans hhandle, hsame.running.trans hrunning,
        honly⟩
  | finishing hold => exact ⟨hreporting, Or.inr (hmonitored true hold)⟩
  | stopping hold => exact ⟨hreporting, Or.inr (hmonitored true hold)⟩
  | clearing hold => exact ⟨hreporting, hmonitored true hold⟩
  | joining hold => exact ⟨hreporting, hmonitored false hold⟩

/-- A thread ends, or moves within its session and keeps a sample at most. -/
theorem SessionWorld.monitorStep_cases {move : MonitorMove}
    (hstep : w.monitorStep sysconf thread monitor move = some next) :
    next = w.setMonitor thread none ∨
      (∃ pc, next = w.setMonitor thread (some { monitor with pc := pc }) ∧
        ∀ sample reporter, pc = .reporting sample reporter →
          w.reporter = some reporter) ∨
      ∃ sample : Sample,
        next = { w.setMonitor thread (some { monitor with pc := .scanning }) with
          threadStates := w.threadStates.insert sample.threadId
            { lastCpuTimeNs := sample.cpuTime sysconf, lastCheckTimeNs := sample.now }
          takenIn := Function.update w.takenIn sample.threadId monitor.session } := by
  obtain ⟨session, pc⟩ := monitor
  cases pc with
  | testing =>
      cases move with
      | sample sample => simp [monitorStep] at hstep
      | next =>
          obtain rfl := Option.some.inj hstep
          cases w.running with
          | true => exact Or.inr (Or.inl ⟨.sleeping, rfl, by simp⟩)
          | false => exact Or.inl rfl
  | sleeping =>
      cases move with
      | sample sample => simp [monitorStep] at hstep
      | next => exact Or.inr (Or.inl ⟨.scanning, (Option.some.inj hstep).symm, by simp⟩)
  | scanning =>
      cases move with
      | sample sample =>
          exact Or.inr (Or.inl ⟨.comparing sample, (Option.some.inj hstep).symm, by simp⟩)
      | next => exact Or.inr (Or.inl ⟨.testing, (Option.some.inj hstep).symm, by simp⟩)
  | comparing sample =>
      cases move with
      | sample sample => simp [monitorStep] at hstep
      | next =>
          simp only [monitorStep] at hstep
          cases hlookup : w.threadStates.lookup sample.threadId with
          | none =>
              simp only [hlookup] at hstep
              exact Or.inr (Or.inl ⟨.updating sample, (Option.some.inj hstep).symm,
                by simp⟩)
          | some last =>
              simp only [hlookup] at hstep
              refine Or.inr (Or.inl ⟨_, (Option.some.inj hstep).symm, ?_⟩)
              split <;> simp
  | capturing sample =>
      cases move with
      | sample sample => simp [monitorStep] at hstep
      | next =>
          simp only [monitorStep] at hstep
          cases hreporter : w.reporter with
          | none =>
              simp only [hreporter] at hstep
              exact Or.inr (Or.inl ⟨.updating sample, (Option.some.inj hstep).symm,
                by simp⟩)
          | some reporter =>
              simp only [hreporter] at hstep
              exact Or.inr (Or.inl ⟨.reporting sample reporter,
                (Option.some.inj hstep).symm, by simp⟩)
  | reporting sample reporter =>
      cases move with
      | sample sample => simp [monitorStep] at hstep
      | next =>
          exact Or.inr (Or.inl ⟨.updating sample, (Option.some.inj hstep).symm, by simp⟩)
  | updating sample =>
      cases move with
      | sample sample => simp [monitorStep] at hstep
      | next => exact Or.inr (Or.inr ⟨sample, (Option.some.inj hstep).symm⟩)

theorem SessionWorld.monitorStep_same {move : MonitorMove}
    (hstep : w.monitorStep sysconf thread monitor move = some next) :
    w.SameSession thread next := by
  rcases monitorStep_cases hstep with rfl | ⟨pc, rfl, -⟩ | ⟨sample, rfl⟩ <;>
    exact ⟨rfl, rfl, rfl, rfl, rfl, rfl, rfl,
      fun other hother => Function.update_of_ne hother ..⟩

/-- A thread that lives after the step has not moved, or has moved within its session. -/
theorem SessionWorld.monitorStep_live {move : MonitorMove} {other : Nat} {m : MonitorThread}
    (hstep : w.monitorStep sysconf thread monitor move = some next)
    (hm : next.monitors other = some m) :
    w.monitors other = some m ∨ m.session = monitor.session ∧
      ∀ sample reporter, m.pc = .reporting sample reporter → w.reporter = some reporter := by
  by_cases hother : other = thread
  · refine Or.inr ?_
    subst hother
    rcases monitorStep_cases hstep with rfl | ⟨pc, rfl, hreporter⟩ | ⟨sample, rfl⟩
    · simp [setMonitor] at hm
    · simp only [setMonitor, Function.update_self, Option.some.injEq] at hm
      obtain rfl := hm
      exact ⟨rfl, hreporter⟩
    · simp only [setMonitor, Function.update_self, Option.some.injEq] at hm
      obtain rfl := hm
      exact ⟨rfl, nofun⟩
  · rw [(monitorStep_same hstep).others other hother] at hm
    exact Or.inl hm

/-- The steps of a monitor thread keep the invariant. -/
theorem SessionWorld.Inv.monitorStep (hinv : w.Inv)
    (hlive : w.monitors thread = some monitor) {move : MonitorMove}
    (hstep : w.monitorStep sysconf thread monitor move = some next) : next.Inv := by
  have hsame := monitorStep_same hstep
  have hsession : monitor.session = w.session := hinv.monitors thread monitor hlive
  have hphase : next.Phase next.control := by
    rw [hsame.control]
    exact hsame.phase hlive hinv.phase
  refine ⟨hphase, ?_, ?_, ?_, ?_⟩
  · intro other m hm
    rw [hsame.session]
    rcases monitorStep_live hstep hm with hold | ⟨hkept, -⟩
    · exact hinv.monitors other m hold
    · exact hkept.trans hsession
  · intro id last hlookup
    rw [hsame.session]
    rcases monitorStep_cases hstep with rfl | ⟨pc, rfl, -⟩ | ⟨sample, rfl⟩
    · exact hinv.taken id last hlookup
    · exact hinv.taken id last hlookup
    · change Function.update w.takenIn sample.threadId monitor.session id = w.session
      by_cases hid : id = sample.threadId
      · rw [hid, Function.update_self]
        exact hsession
      · rw [Function.update_of_ne hid]
        apply hinv.taken id last
        exact (AList.lookup_insert_ne hid).symm.trans hlookup
  · intro other session sample reporter hm
    rw [hsame.reporter]
    rcases monitorStep_live hstep hm with hold | ⟨-, hreporter⟩
    · exact hinv.reporting other session sample reporter hold
    · exact hreporter sample reporter rfl
  · rw [hsame.destroyed, hsame.session]
    exact hinv.destroyed

/-- A step of the control thread that touches neither the threads, the samples nor
the reporter. -/
theorem SessionWorld.Inv.of_phase (hinv : w.Inv) (hphase : next.Phase next.control)
    (hmonitors : next.monitors = w.monitors) (hstates : next.threadStates = w.threadStates)
    (htaken : next.takenIn = w.takenIn) (hsession : next.session = w.session)
    (hreporter : next.reporter = w.reporter) (hdestroyed : next.destroyed = w.destroyed) :
    next.Inv := by
  refine ⟨hphase, ?_, ?_, ?_, ?_⟩
  · rw [hmonitors, hsession]
    exact hinv.monitors
  · rw [hstates, htaken, hsession]
    exact hinv.taken
  · rw [hmonitors, hreporter]
    exact hinv.reporting
  · rw [hdestroyed, hsession]
    exact hinv.destroyed

/-- Where no monitor thread lives and no sample is kept, only the phase and the
reporters that are gone matter. -/
theorem SessionWorld.Inv.of_quiet (hphase : next.Phase next.control)
    (hmonitors : ∀ thread, next.monitors thread = none) (hstates : next.threadStates = ∅)
    (hdestroyed : ∀ reporter ∈ next.destroyed, reporter ≤ next.session) : next.Inv := by
  refine ⟨hphase, ?_, ?_, ?_, hdestroyed⟩
  · intro thread monitor hlive
    rw [hmonitors thread] at hlive
    contradiction
  · intro id last hlookup
    rw [hstates, AList.lookup_empty] at hlookup
    contradiction
  · intro thread session sample reporter hlive
    rw [hmonitors thread] at hlive
    contradiction

theorem SessionWorld.Quiet.of_eq (hquiet : w.Quiet) (hrunning : next.running = w.running)
    (hhandle : next.monitorThread = w.monitorThread)
    (hmonitors : next.monitors = w.monitors)
    (hstates : next.threadStates = w.threadStates) : next.Quiet where
  running := hrunning.trans hquiet.running
  monitorThread := hhandle.trans hquiet.monitorThread
  monitors := fun thread => (congrFun hmonitors thread).trans (hquiet.monitors thread)
  threadStates := hstates.trans hquiet.threadStates

theorem SessionWorld.InSession.of_eq (hsession : w.InSession)
    (hreporter : next.reporter = w.reporter) (hnumber : next.session = w.session)
    (hdestroyed : next.destroyed = w.destroyed) (hrunning : next.running = w.running)
    (hhandle : next.monitorThread = w.monitorThread)
    (hmonitors : next.monitors = w.monitors)
    (hstates : next.threadStates = w.threadStates) : next.InSession := by
  obtain ⟨hreporting, hcase⟩ := hsession
  refine ⟨?_, ?_⟩
  · rw [Reporting, hreporter, hnumber, hdestroyed]
    exact hreporting
  · rcases hcase with hquiet | ⟨hold, thread, hthread, honly⟩
    · exact Or.inl (hquiet.of_eq hrunning hhandle hmonitors hstates)
    · refine Or.inr ⟨hrunning.trans hold, thread, hhandle.trans hthread, ?_⟩
      rw [Only, hmonitors]
      exact honly

/-- The first monitor thread is the only one. -/
theorem SessionWorld.setMonitor_of_none (hnone : ∀ thread, w.monitors thread = none)
    {thread other : Nat} {first monitor : MonitorThread}
    (hlive : (w.setMonitor thread (some first)).monitors other = some monitor) :
    other = thread ∧ monitor = first := by
  change Function.update w.monitors thread (some first) other = some monitor at hlive
  by_cases hother : other = thread
  · rw [hother, Function.update_self] at hlive
    exact ⟨hother, (Option.some.inj hlive).symm⟩
  · rw [Function.update_of_ne hother, hnone] at hlive
    contradiction

/-- The steps of the control thread keep the invariant. -/
theorem SessionWorld.Inv.controlStep (hinv : w.Inv) (hstep : w.controlStep = some next) :
    next.Inv := by
  have hphase := hinv.phase
  rw [SessionWorld.controlStep] at hstep
  generalize w.control = pc at hphase hstep
  cases pc with
  | idle => contradiction
  | constructing config =>
      obtain rfl := Option.some.inj hstep
      obtain ⟨-, hquiet⟩ := hphase
      have hfresh : w.session + 1 ∉ w.destroyed := by
        intro hmem
        exact absurd (hinv.destroyed _ hmem) (by omega)
      refine .of_quiet ?_ hquiet.monitors hquiet.threadStates ?_
      · cases hcpu : config.enableCpuProfiler with
        | true =>
            simp only [if_true]
            exact ⟨⟨rfl, hfresh⟩, hquiet.of_eq rfl rfl rfl rfl⟩
        | false =>
            simp only [Bool.false_eq_true, if_false]
            exact ⟨⟨rfl, hfresh⟩, Or.inl (hquiet.of_eq rfl rfl rfl rfl)⟩
      · exact fun reporter hmem => Nat.le_succ_of_le (hinv.destroyed reporter hmem)
  | starting =>
      obtain rfl := Option.some.inj hstep
      obtain ⟨hreporting, hquiet⟩ := hphase
      refine hinv.of_phase ?_ rfl rfl rfl rfl rfl rfl
      simp only [hquiet.running, Bool.false_eq_true, if_false]
      exact ⟨hreporting, hquiet.of_eq hquiet.running.symm rfl rfl rfl⟩
  | flagging =>
      obtain rfl := Option.some.inj hstep
      obtain ⟨hreporting, hquiet⟩ := hphase
      refine hinv.of_phase ?_ rfl rfl rfl rfl rfl rfl
      exact ⟨hreporting, hquiet.monitorThread, rfl, hquiet.monitors, hquiet.threadStates⟩
  | spawning =>
      obtain rfl := Option.some.inj hstep
      obtain ⟨hreporting, hhandle, hrunning, hmonitors, hstates⟩ := hphase
      refine ⟨⟨hreporting, hhandle, hrunning, ?_⟩, ?_, hinv.taken, ?_, hinv.destroyed⟩
      · intro other hother
        exact (Function.update_of_ne hother ..).trans (hmonitors other)
      · intro other monitor hlive
        obtain ⟨-, rfl⟩ := setMonitor_of_none hmonitors hlive
        rfl
      · intro other session sample reporter hlive
        obtain ⟨-, hmonitor⟩ := setMonitor_of_none hmonitors hlive
        simp at hmonitor
  | assigning thread =>
      obtain rfl := Option.some.inj hstep
      obtain ⟨hreporting, -, hrunning, honly⟩ := hphase
      refine hinv.of_phase ?_ rfl rfl rfl rfl rfl rfl
      exact ⟨hreporting, Or.inr ⟨hrunning, thread, rfl, honly⟩⟩
  | finishing =>
      obtain rfl := Option.some.inj hstep
      refine hinv.of_phase ?_ rfl rfl rfl rfl rfl rfl
      exact InSession.of_eq hphase rfl rfl rfl rfl rfl rfl rfl
  | stopping =>
      obtain rfl := Option.some.inj hstep
      refine hinv.of_phase ?_ rfl rfl rfl rfl rfl rfl
      obtain ⟨hreporting, hquiet | hmonitored⟩ := hphase
      · simp only [hquiet.running, Bool.false_eq_true, if_false]
        exact ⟨hreporting, hquiet.of_eq hquiet.running.symm rfl rfl rfl⟩
      · simp only [hmonitored.1, if_true]
        exact ⟨hreporting, rfl, hmonitored.2⟩
  | clearing =>
      obtain rfl := Option.some.inj hstep
      refine hinv.of_phase ?_ rfl rfl rfl rfl rfl rfl
      exact ⟨hphase.1, rfl, hphase.2.2⟩
  | joining =>
      obtain ⟨hreporting, hrunning, thread, hhandle, honly⟩ := hphase
      simp only [hhandle, Option.ite_none_right_eq_some] at hstep
      obtain ⟨hjoined, hstep⟩ := hstep
      obtain rfl := Option.some.inj hstep
      refine hinv.of_phase ⟨hreporting, hrunning, rfl, ?_⟩ rfl rfl rfl rfl rfl rfl
      intro other
      by_cases hother : other = thread
      · rw [hother]
        exact hjoined
      · exact honly other hother
  | swapping =>
      obtain rfl := Option.some.inj hstep
      obtain ⟨hreporting, hrunning, hhandle, hmonitors⟩ := hphase
      exact .of_quiet ⟨hreporting, hrunning, hhandle, hmonitors, rfl⟩ hmonitors rfl
        hinv.destroyed
  | destroying =>
      obtain ⟨⟨hreporter, -⟩, hquiet⟩ := hphase
      simp only [hreporter] at hstep
      obtain rfl := Option.some.inj hstep
      refine .of_quiet (hquiet.of_eq rfl rfl rfl rfl) hquiet.monitors hquiet.threadStates ?_
      exact List.forall_mem_cons.mpr ⟨Nat.le_refl _, hinv.destroyed⟩
  | nulling =>
      obtain rfl := Option.some.inj hstep
      have hquiet : w.Quiet := hphase
      exact .of_quiet ⟨rfl, hquiet.of_eq rfl rfl rfl rfl⟩ hquiet.monitors
        hquiet.threadStates hinv.destroyed
  | resetting =>
      obtain rfl := Option.some.inj hstep
      obtain ⟨hreporter, hquiet⟩ := hphase
      exact hinv.of_phase ⟨hreporter, hquiet.of_eq rfl rfl rfl rfl⟩ rfl rfl rfl rfl rfl rfl

/-- The calls keep the invariant. -/
theorem SessionWorld.Inv.step {label : SessionStep} (hinv : w.Inv)
    (hstep : w.step sysconf label = some next) : next.Inv := by
  cases label with
  | init config =>
      simp only [SessionWorld.step, Option.ite_none_right_eq_some] at hstep
      obtain ⟨hidle, hstep⟩ := hstep
      obtain rfl := Option.some.inj hstep
      have hphase := hinv.phase
      rw [hidle] at hphase
      cases hinitialized : w.initialized with
      | true => exact hinv
      | false =>
          simp only [Phase, hinitialized, Bool.false_eq_true, if_false] at hphase ⊢
          obtain ⟨hreporter, hquiet⟩ := hphase
          exact hinv.of_phase ⟨hreporter, hquiet.of_eq rfl rfl rfl rfl⟩ rfl rfl rfl rfl rfl
            rfl
  | shutdown =>
      simp only [SessionWorld.step, Option.ite_none_right_eq_some] at hstep
      obtain ⟨hidle, hstep⟩ := hstep
      obtain rfl := Option.some.inj hstep
      have hphase := hinv.phase
      rw [hidle] at hphase
      cases hinitialized : w.initialized with
      | false => exact hinv
      | true =>
          simp only [Phase, hinitialized, if_true] at hphase ⊢
          exact hinv.of_phase (InSession.of_eq hphase rfl rfl rfl rfl rfl rfl rfl) rfl rfl
            rfl rfl rfl rfl
  | control => exact hinv.controlStep hstep
  | monitor thread move =>
      simp only [SessionWorld.step] at hstep
      cases hlive : w.monitors thread with
      | none => simp [hlive] at hstep
      | some monitor =>
          simp only [hlive] at hstep
          exact hinv.monitorStep hlive hstep

theorem SessionWorld.Inv.initial : SessionWorld.initial.Inv := by
  refine .of_quiet ⟨rfl, rfl, rfl, fun _ => rfl, rfl⟩ (fun _ => rfl) rfl ?_
  simp [SessionWorld.initial]

theorem SessionWorld.Inv.sessionsApart (hinv : w.Inv) : w.SessionsApart := by
  refine ⟨?_, ?_, ?_, ?_, ?_⟩
  · intro thread thread' hlive hlive'
    obtain ⟨monitor, hmonitor⟩ := Option.ne_none_iff_exists'.mp hlive
    obtain ⟨monitor', hmonitor'⟩ := Option.ne_none_iff_exists'.mp hlive'
    obtain ⟨-, hphase⟩ := hinv.phase.live hmonitor'
    exact (hphase.only hmonitor').of_live hmonitor
  · intro hswapping thread monitor hmonitor
    have hphase := hinv.phase
    rw [hswapping] at hphase
    rw [hphase.2.2.2 thread] at hmonitor
    contradiction
  · intro thread session sample last hmonitor hlookup
    rw [hinv.taken _ last hlookup]
    exact (hinv.monitors thread _ hmonitor).symm
  · intro thread session sample reporter hmonitor
    obtain ⟨⟨hreporter, halive⟩, -⟩ := hinv.phase.live hmonitor
    have hsession : session = w.session := hinv.monitors thread _ hmonitor
    have hsame := hinv.reporting thread session sample reporter hmonitor
    rw [hreporter] at hsame
    obtain rfl := Option.some.inj hsame
    exact ⟨hsession.symm, halive⟩
  · intro hidle hinitialized
    have hphase := hinv.phase
    rw [hidle] at hphase
    simp only [Phase, hinitialized, Bool.false_eq_true, if_false] at hphase
    exact hphase.2.monitors

/-- Over any sequence of sessions in which no call throws, with the CPU profiler or without
it, and any interleaving with the monitor threads: they never bleed into one another. -/
theorem sessions_apart (sysconf : Int) (labels : List SessionStep) (final : SessionWorld)
    (hrun : run (SessionWorld.step sysconf) SessionWorld.initial labels = some final) :
    final.SessionsApart := by
  have hinv : final.Inv :=
    run_invariant (fun _ _ _ hinv hstep => hinv.step hstep) SessionWorld.Inv.initial hrun
  exact hinv.sessionsApart

namespace MonitorWitness

def profiled : DomovoyConfig := { enableCpuProfiler := true }

def sampled (utime now : Word) : Sample where
  threadId := 7
  utime := utime
  stime := 0
  now := now

/-- A session whose second scan reports a thread while `Stop` waits for the monitor,
and the start of the next session. -/
def twoSessions : List SessionStep :=
  [.init profiled, .control, .control, .control, .control, .control, .control,
    .monitor 0 .next, .monitor 0 .next, .monitor 0 (.sample (sampled 0 1)),
    .monitor 0 .next, .monitor 0 .next, .monitor 0 .next,
    .monitor 0 .next, .shutdown, .control, .control,
    .monitor 0 .next, .monitor 0 (.sample (sampled 50 500000001)),
    .monitor 0 .next, .monitor 0 .next, .monitor 0 .next, .monitor 0 .next,
    .monitor 0 .next, .monitor 0 .next,
    .control, .control, .control, .control, .control, .init profiled, .control]

theorem twoSessions_apart :
    ∃ final, run (SessionWorld.step 100) SessionWorld.initial twoSessions = some final ∧
      final.session = 2 ∧ final.SessionsApart :=
  ⟨_, rfl, rfl, sessions_apart 100 twoSessions _ rfl⟩

end MonitorWitness

end Domovoy
