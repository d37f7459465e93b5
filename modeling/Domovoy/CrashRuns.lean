/-
A crash on POSIX from the fault on: the entries into `HandleCrashSignal`, what it
does with the action it replaced, and how the process goes on. An exception that
leaves a signal handler has no meaning in the language and is left out.
-/
import Domovoy.Backtrace
import Domovoy.Transition

namespace Domovoy

open WordAlign Transition

/-- The flag `SA_SIGINFO` of an action. -/
def SigAction.takesSiginfo (action : SigAction) : Bool :=
  action.flags &&& 4 != 0

inductive HandlerPc where
  | reporting
  | chaining
  | raising
  | returning
deriving DecidableEq, Repr

/-- What runs on the thread that crashed. -/
inductive CrashFrame where
  /-- The instruction that raises the signal each time it is executed. -/
  | instruction (sig : CrashSignal)
  | handleCrashSignal (sig : CrashSignal) (pc : HandlerPc)
  /-- A call of the number that `SIG_IGN` is; nothing is mapped there. -/
  | sigIgnAddress
  /-- A handler function of the application. -/
  | application
deriving DecidableEq, Repr

/-- `HandleCrashSignal` runs with its own signal blocked and no other. -/
def CrashFrame.blocks (sig : CrashSignal) : CrashFrame → Bool
  | .handleCrashSignal sig' _ => sig' = sig
  | _ => false

inductive CrashEnd where
  | killed (sig : CrashSignal)
  /-- A function of the application ended the process or jumped out of the handler. -/
  | left
deriving DecidableEq, Repr

/-- The thread, the signal state, and what has happened since the fault. -/
structure CrashRun where
  oldActions : CrashSignal → SigAction
  disposition : CrashSignal → Disposition
  pending : List CrashSignal
  frames : List CrashFrame
  entries : Nat
  reports : List Json
  applicationReturned : Bool
  ended : Option CrashEnd

/-- The handler is installed over `old`, and the instruction is about to fault. -/
def CrashRun.start (old : CrashSignal → SigAction) (sig : CrashSignal) : CrashRun where
  oldActions := old
  disposition := fun _ => .handleCrashSignal
  pending := []
  frames := [.instruction sig]
  entries := 0
  reports := []
  applicationReturned := false
  ended := none

def CrashRun.blocked (sig : CrashSignal) (s : CrashRun) : Bool :=
  s.frames.any fun frame => frame.blocks sig

def CrashRun.kill (sig : CrashSignal) (s : CrashRun) : CrashRun :=
  { s with ended := some (.killed sig) }

/-- An entry that finds the instruction on top is one for the fault itself. -/
def CrashRun.enter (sig : CrashSignal) (s : CrashRun) : CrashRun :=
  { s with
    frames := .handleCrashSignal sig .reporting :: s.frames
    entries := if s.frames.head? = some (.instruction sig) then s.entries + 1
      else s.entries }

/-- The kernel delivers a signal that is not blocked. -/
def CrashRun.deliver (sig : CrashSignal) (s : CrashRun) : CrashRun :=
  match s.disposition sig with
  | .handleCrashSignal => s.enter sig
  | .application action =>
      match action.handler with
      | .sigDfl => s.kill sig
      | .sigIgn => s
      | .function _ => { s with frames := .application :: s.frames }

/-- A fault cannot wait: where its signal is blocked or ignored the process is
killed. -/
def CrashRun.fault (sig : CrashSignal) (s : CrashRun) : CrashRun :=
  if s.blocked sig then s.kill sig
  else
    match s.disposition sig with
    | .handleCrashSignal => s.enter sig
    | .application action =>
        match action.handler with
        | .sigDfl => s.kill sig
        | .sigIgn => s.kill sig
        | .function _ => { s with frames := .application :: s.frames }

def CrashRun.raise (sig : CrashSignal) (s : CrashRun) : CrashRun :=
  if s.blocked sig then { s with pending := sig :: s.pending } else s.deliver sig

/-- The handler has returned and its signal is no longer blocked. -/
def CrashRun.unblock (sig : CrashSignal) (s : CrashRun) : CrashRun :=
  if sig ∈ s.pending then
    { s with pending := s.pending.filter (· ≠ sig) }.deliver sig
  else s

/-- "Call old handler"; `below` is what the handler interrupted. -/
def CrashRun.chain (sig : CrashSignal) (below : List CrashFrame) (s : CrashRun) :
    CrashRun :=
  let old := s.oldActions sig
  let returning := CrashFrame.handleCrashSignal sig .returning :: below
  if old.takesSiginfo then
    match old.handler with
    -- `SIG_DFL` is the null pointer, `SIG_IGN` is not
    | .sigDfl => { s with frames := returning }
    | .sigIgn => { s with frames := .sigIgnAddress :: returning }
    | .function _ => { s with frames := .application :: returning }
  else
    match old.handler with
    | .sigDfl =>
        { s with
          disposition := Function.update s.disposition sig .zero
          frames := .handleCrashSignal sig .raising :: below }
    | .sigIgn => { s with frames := returning }
    | .function _ => { s with frames := .application :: returning }

/-- The labels: a step of the code, the report with its trace, and what a function of
the application can do while it runs. -/
inductive CrashEvent where
  | next
  | reportCrash (trace : List StackFrame)
  | sigaction (sig : CrashSignal) (action : SigAction)
  | applicationReturns
  | applicationLeaves
deriving DecidableEq, Repr

def CrashRun.stepFrame (s : CrashRun) : List CrashFrame → CrashEvent → Option CrashRun
  | .instruction sig :: _, .next => some (s.fault sig)
  | .sigIgnAddress :: _, .next => some (s.fault .sigsegv)
  | .handleCrashSignal sig .reporting :: below, .reportCrash trace =>
      some { s with
        frames := .handleCrashSignal sig .chaining :: below
        reports := s.reports ++ [crashJson sig trace] }
  | .handleCrashSignal sig .chaining :: below, .next => some (s.chain sig below)
  | .handleCrashSignal sig .raising :: below, .next =>
      some ({ s with frames := .handleCrashSignal sig .returning :: below }.raise sig)
  | .handleCrashSignal sig .returning :: below, .next =>
      some ({ s with frames := below }.unblock sig)
  | .application :: _, .sigaction sig action =>
      some { s with
        disposition := Function.update s.disposition sig (.application action) }
  | .application :: below, .applicationReturns =>
      some { s with frames := below, applicationReturned := true }
  | .application :: _, .applicationLeaves => some { s with ended := some .left }
  | _, _ => none

def CrashRun.step (s : CrashRun) (event : CrashEvent) : Option CrashRun :=
  if s.ended = none then s.stepFrame s.frames event else none

def SigAction.IsFunction (action : SigAction) : Prop :=
  ∃ address, action.handler = .function address

/-- `Install` leads to the state that a crash starts from. -/
theorem install_start (old : CrashSignal → SigAction) (memory sigstksz : Word)
    (altStack : Option AltStack) (sig : CrashSignal) :
    let (handler, os) := CrashHandler.initial.install memory sigstksz
      { disposition := fun sig => .application (old sig), altStack := altStack }
    handler.oldActions = (fun sig => .application ((CrashRun.start old sig).oldActions sig))
      ∧ os.disposition = (CrashRun.start old sig).disposition := by
  rw [CrashHandler.install_eq rfl]
  exact ⟨rfl, rfl⟩

/-- A process that takes a step has not ended, and its innermost call takes it. -/
theorem CrashRun.step_eq_some {s next : CrashRun} {event : CrashEvent}
    (hstep : s.step event = some next) :
    s.ended = none ∧ s.stepFrame s.frames event = some next := by
  rw [step] at hstep
  cases hended : s.ended with
  | some ending => simp [hended] at hstep
  | none =>
      simp only [hended] at hstep
      exact ⟨rfl, hstep⟩

section StepFrame

variable {s next : CrashRun} {sig : CrashSignal} {below : List CrashFrame}
  {event : CrashEvent}

theorem CrashRun.stepFrame_instruction :
    s.stepFrame (.instruction sig :: below) event = some next ↔
      event = .next ∧ s.fault sig = next := by
  cases event <;> simp [stepFrame]

theorem CrashRun.stepFrame_sigIgnAddress :
    s.stepFrame (.sigIgnAddress :: below) event = some next ↔
      event = .next ∧ s.fault .sigsegv = next := by
  cases event <;> simp [stepFrame]

theorem CrashRun.stepFrame_reporting :
    s.stepFrame (.handleCrashSignal sig .reporting :: below) event = some next ↔
      ∃ trace, event = .reportCrash trace ∧
        { s with
          frames := .handleCrashSignal sig .chaining :: below
          reports := s.reports ++ [crashJson sig trace] } = next := by
  cases event <;> simp [stepFrame]

theorem CrashRun.stepFrame_chaining :
    s.stepFrame (.handleCrashSignal sig .chaining :: below) event = some next ↔
      event = .next ∧ s.chain sig below = next := by
  cases event <;> simp [stepFrame]

theorem CrashRun.stepFrame_raising :
    s.stepFrame (.handleCrashSignal sig .raising :: below) event = some next ↔
      event = .next ∧
        { s with frames := .handleCrashSignal sig .returning :: below }.raise sig =
          next := by
  cases event <;> simp [stepFrame]

theorem CrashRun.stepFrame_returning :
    s.stepFrame (.handleCrashSignal sig .returning :: below) event = some next ↔
      event = .next ∧ { s with frames := below }.unblock sig = next := by
  cases event <;> simp [stepFrame]

end StepFrame

/-- What no step changes, and what none takes back. -/
structure CrashRun.Keeps (s next : CrashRun) : Prop where
  oldActions : next.oldActions = s.oldActions
  returned : s.applicationReturned = true → next.applicationReturned = true

section Keeps

variable (s : CrashRun) (sig : CrashSignal)

theorem CrashRun.keeps_deliver : s.Keeps (s.deliver sig) := by
  rw [deliver]
  cases s.disposition sig with
  | handleCrashSignal => exact ⟨rfl, id⟩
  | application action =>
      rcases action with ⟨handler, flags, mask⟩
      cases handler <;> exact ⟨rfl, id⟩

theorem CrashRun.keeps_fault : s.Keeps (s.fault sig) := by
  rw [fault]
  split
  · exact ⟨rfl, id⟩
  · cases s.disposition sig with
    | handleCrashSignal => exact ⟨rfl, id⟩
    | application action =>
        rcases action with ⟨handler, flags, mask⟩
        cases handler <;> exact ⟨rfl, id⟩

theorem CrashRun.keeps_raise : s.Keeps (s.raise sig) := by
  rw [raise]
  split
  · exact ⟨rfl, id⟩
  · exact s.keeps_deliver sig

theorem CrashRun.keeps_unblock : s.Keeps (s.unblock sig) := by
  rw [unblock]
  split
  · obtain ⟨hold, hreturned⟩ :=
      keeps_deliver { s with pending := s.pending.filter (· ≠ sig) } sig
    exact ⟨hold, hreturned⟩
  · exact ⟨rfl, id⟩

theorem CrashRun.keeps_chain (below : List CrashFrame) : s.Keeps (s.chain sig below) := by
  rw [chain]
  cases (s.oldActions sig).takesSiginfo <;> cases (s.oldActions sig).handler <;>
    exact ⟨rfl, id⟩

end Keeps

theorem CrashRun.step_keeps {s next : CrashRun} {event : CrashEvent}
    (hstep : s.step event = some next) : s.Keeps next := by
  obtain ⟨-, hstep⟩ := step_eq_some hstep
  cases hframes : s.frames with
  | nil => simp [hframes, stepFrame] at hstep
  | cons frame below =>
      rw [hframes] at hstep
      cases frame with
      | instruction sig =>
          obtain ⟨-, rfl⟩ := stepFrame_instruction.mp hstep
          exact s.keeps_fault sig
      | sigIgnAddress =>
          obtain ⟨-, rfl⟩ := stepFrame_sigIgnAddress.mp hstep
          exact s.keeps_fault .sigsegv
      | application =>
          cases event <;> simp [stepFrame] at hstep <;> subst hstep
          · exact ⟨rfl, id⟩
          · exact ⟨rfl, fun _ => rfl⟩
          · exact ⟨rfl, id⟩
      | handleCrashSignal sig pc =>
          cases pc with
          | reporting =>
              obtain ⟨trace, -, rfl⟩ := stepFrame_reporting.mp hstep
              exact ⟨rfl, id⟩
          | chaining =>
              obtain ⟨-, rfl⟩ := stepFrame_chaining.mp hstep
              exact s.keeps_chain sig below
          | raising =>
              obtain ⟨-, rfl⟩ := stepFrame_raising.mp hstep
              obtain ⟨hold, hreturned⟩ := CrashRun.keeps_raise
                { s with frames := .handleCrashSignal sig .returning :: below } sig
              exact ⟨hold, hreturned⟩
          | returning =>
              obtain ⟨-, rfl⟩ := stepFrame_returning.mp hstep
              obtain ⟨hold, hreturned⟩ := CrashRun.keeps_unblock
                { s with frames := below } sig
              exact ⟨hold, hreturned⟩

/-- Until a function of the application returns, the handler is in its only pass. -/
structure CrashRun.FirstPass (sig : CrashSignal) (s : CrashRun) : Prop where
  entries : s.entries ≤ 1
  frames : s.ended ≠ none ∨ (∃ below, s.frames = .application :: below) ∨
    s.frames = [.handleCrashSignal sig .reporting, .instruction sig] ∨
    s.frames = [.handleCrashSignal sig .chaining, .instruction sig] ∨
    (s.frames = [.instruction sig] ∧ s.entries = 0)

/-- A fault of the instruction enters the handler, calls a function of the application
or ends the process. -/
theorem CrashRun.firstPass_fault {sig : CrashSignal} {s : CrashRun}
    (hframes : s.frames = [.instruction sig]) (hentries : s.entries = 0) :
    (s.fault sig).FirstPass sig := by
  have hblocked : s.blocked sig = false := by simp [blocked, hframes, CrashFrame.blocks]
  rw [fault, hblocked]
  cases hdisposition : s.disposition sig with
  | handleCrashSignal =>
      refine ⟨?_, Or.inr (Or.inr (Or.inl ?_))⟩
      · simp [enter, hframes, hentries]
      · simp [enter, hframes]
  | application action =>
      cases haction : action.handler with
      | sigDfl =>
          exact ⟨by simp [haction, kill, hentries], Or.inl (by simp [haction, kill])⟩
      | sigIgn =>
          exact ⟨by simp [haction, kill, hentries], Or.inl (by simp [haction, kill])⟩
      | function address =>
          exact ⟨by simp [haction, hentries], Or.inr (Or.inl ⟨s.frames, by simp [haction]⟩)⟩

/-- Where the replaced action is a function, the handler leaves its first pass only
by the return of a function of the application. -/
theorem CrashRun.firstPass_step {old : CrashSignal → SigAction} {sig : CrashSignal}
    (hfunction : (old sig).IsFunction) {s next : CrashRun} {event : CrashEvent}
    (hold : s.oldActions = old) (hpass : s.FirstPass sig)
    (hstep : s.step event = some next) :
    next.FirstPass sig ∨ next.applicationReturned = true := by
  obtain ⟨address, hfunction⟩ := hfunction
  obtain ⟨hended, hstep⟩ := step_eq_some hstep
  rcases hpass.frames with hnot | ⟨below, hframes⟩ | hframes | hframes |
    ⟨hframes, hentries⟩
  · exact absurd hended hnot
  · rw [hframes] at hstep
    cases event with
    | next => simp [stepFrame] at hstep
    | reportCrash trace => simp [stepFrame] at hstep
    | sigaction sig' action =>
        obtain rfl := Option.some.inj hstep
        exact Or.inl ⟨hpass.entries, Or.inr (Or.inl ⟨below, hframes⟩)⟩
    | applicationReturns =>
        obtain rfl := Option.some.inj hstep
        exact Or.inr rfl
    | applicationLeaves =>
        obtain rfl := Option.some.inj hstep
        exact Or.inl ⟨hpass.entries, Or.inl (Option.some_ne_none _)⟩
  · rw [hframes] at hstep
    obtain ⟨trace, -, rfl⟩ := stepFrame_reporting.mp hstep
    exact Or.inl ⟨hpass.entries, Or.inr (Or.inr (Or.inr (Or.inl rfl)))⟩
  · rw [hframes] at hstep
    obtain ⟨-, rfl⟩ := stepFrame_chaining.mp hstep
    have hchain : s.chain sig [.instruction sig] =
        { s with frames := [.application, .handleCrashSignal sig .returning,
          .instruction sig] } := by
      simp [chain, hold, hfunction]
    rw [hchain]
    exact Or.inl ⟨hpass.entries, Or.inr (Or.inl ⟨_, rfl⟩)⟩
  · rw [hframes] at hstep
    obtain ⟨-, rfl⟩ := stepFrame_instruction.mp hstep
    exact Or.inl (firstPass_fault hframes hentries)

def CrashRun.InPass (old : CrashSignal → SigAction) (sig : CrashSignal) (s : CrashRun) :
    Prop :=
  s.oldActions = old ∧ (s.FirstPass sig ∨ s.applicationReturned = true)

theorem CrashRun.InPass.step {old : CrashSignal → SigAction} {sig : CrashSignal}
    {s next : CrashRun} {event : CrashEvent} (hinv : s.InPass old sig)
    (hfunction : (old sig).IsFunction) (hstep : s.step event = some next) :
    next.InPass old sig := by
  obtain ⟨hold, hpass⟩ := hinv
  obtain ⟨holdNext, hreturned⟩ := step_keeps hstep
  refine ⟨holdNext.trans hold, ?_⟩
  rcases hpass with hpass | hpass
  · exact firstPass_step hfunction hold hpass hstep
  · exact Or.inr (hreturned hpass)

section Endings

variable {old : CrashSignal → SigAction} {sig : CrashSignal}

end Endings

namespace CrashRunWitness

end CrashRunWitness

end Domovoy
