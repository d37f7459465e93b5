/-
The crash handler on POSIX: what `Install` and `Uninstall` do to the dispositions
of the five crash signals and to the alternate signal stack, next to the calls that
the application makes on them itself.
-/
import Domovoy.Config
import Domovoy.Transition

namespace Domovoy

open WordAlign Transition

inductive CrashSignal where
  | sigsegv
  | sigabrt
  | sigill
  | sigfpe
  | sigbus
deriving DecidableEq, Repr

/-- `signals` in `Install` and `Uninstall`. -/
def crashSignals : List CrashSignal :=
  [.sigsegv, .sigabrt, .sigill, .sigfpe, .sigbus]

theorem mem_crashSignals (sig : CrashSignal) : sig ∈ crashSignals := by
  cases sig <;> decide

/-- `sa_handler`, or `sa_sigaction` where the flags hold `SA_SIGINFO`. -/
inductive SigHandler where
  | sigDfl
  | sigIgn
  | function (address : Word)
deriving DecidableEq, Repr

/-- An action that the application installs. -/
structure SigAction where
  handler : SigHandler
  flags : BitVec 32
  mask : BitVec 64
deriving DecidableEq, Repr

/-- `HandleCrashSignal` with the flags that `Install` gives it, or an action of the
application. -/
inductive Disposition where
  | application (action : SigAction)
  | handleCrashSignal
deriving DecidableEq, Repr

/-- A static `struct sigaction`: the default disposition. -/
def Disposition.zero : Disposition :=
  .application { handler := .sigDfl, flags := 0, mask := 0 }

structure AltStack where
  sp : Word
  size : Word
deriving DecidableEq, Repr

/-- The signal state of the process; a stack that is disabled is `none`. -/
structure SignalState where
  disposition : CrashSignal → Disposition
  altStack : Option AltStack

structure CrashHandler where
  installed : Bool
  oldActions : CrashSignal → Disposition

def CrashHandler.initial : CrashHandler where
  installed := false
  oldActions := fun _ => .zero

/-- `sigaction(sig, &sa, &old_actions[sig])`. -/
def replaceAction (sig : CrashSignal) (state : CrashHandler × SignalState) :
    CrashHandler × SignalState :=
  ({ state.1 with
      oldActions := Function.update state.1.oldActions sig (state.2.disposition sig) },
    { state.2 with
      disposition := Function.update state.2.disposition sig .handleCrashSignal })

/-- `sigaction(sig, &old_actions[sig], nullptr)`. -/
def restoreAction (oldActions : CrashSignal → Disposition) (sig : CrashSignal)
    (os : SignalState) : SignalState :=
  { os with disposition := Function.update os.disposition sig (oldActions sig) }

/-- `memory` and `sigstksz` are the stack that `Install` obtains from the pool; what
was set before is not asked for. -/
def CrashHandler.install (memory sigstksz : Word) (handler : CrashHandler)
    (os : SignalState) : CrashHandler × SignalState :=
  if handler.installed then (handler, os)
  else
    let os := { os with altStack := some { sp := memory, size := sigstksz } }
    crashSignals.foldl (fun state sig => replaceAction sig state)
      ({ handler with installed := true }, os)

def CrashHandler.uninstall (handler : CrashHandler) (os : SignalState) :
    CrashHandler × SignalState :=
  if handler.installed then
    let os := crashSignals.foldl
      (fun os sig => restoreAction handler.oldActions sig os) os
    ({ handler with installed := false }, { os with altStack := none })
  else (handler, os)

/-- The loop of `Install` saves and replaces each action once. -/
theorem foldl_replaceAction {sigs : List CrashSignal} (hnodup : sigs.Nodup)
    (handler : CrashHandler) (os : SignalState) :
    sigs.foldl (fun state sig => replaceAction sig state) (handler, os) =
      ({ handler with
          oldActions := fun sig =>
            if sig ∈ sigs then os.disposition sig else handler.oldActions sig },
        { os with
          disposition := fun sig =>
            if sig ∈ sigs then .handleCrashSignal else os.disposition sig }) := by
  induction sigs generalizing handler os with
  | nil => simp
  | cons first rest ih =>
      obtain ⟨hfirst, hrest⟩ := List.nodup_cons.mp hnodup
      rw [List.foldl_cons, replaceAction, ih hrest]
      congr 2
      · funext sig
        by_cases hsig : sig = first
        · simp [hsig, hfirst]
        · simp [hsig]
      · funext sig
        by_cases hsig : sig = first
        · simp [hsig]
        · simp [hsig]

theorem foldl_restoreAction (oldActions : CrashSignal → Disposition)
    (sigs : List CrashSignal) (os : SignalState) :
    sigs.foldl (fun os sig => restoreAction oldActions sig os) os =
      { os with
        disposition := fun sig =>
          if sig ∈ sigs then oldActions sig else os.disposition sig } := by
  induction sigs generalizing os with
  | nil => simp
  | cons first rest ih =>
      rw [List.foldl_cons, restoreAction, ih]
      congr 1
      funext sig
      by_cases hsig : sig = first
      · simp [hsig]
      · simp [hsig]

theorem CrashHandler.install_eq {handler : CrashHandler}
    (hinstalled : handler.installed = false) (memory sigstksz : Word) (os : SignalState) :
    handler.install memory sigstksz os =
      ({ installed := true, oldActions := os.disposition },
        { disposition := fun _ => .handleCrashSignal,
          altStack := some { sp := memory, size := sigstksz } }) := by
  have hnodup : crashSignals.Nodup := by decide
  simp [install, hinstalled, foldl_replaceAction hnodup, mem_crashSignals]

theorem CrashHandler.uninstall_eq {handler : CrashHandler}
    (hinstalled : handler.installed = true) (os : SignalState) :
    handler.uninstall os =
      ({ handler with installed := false },
        { disposition := handler.oldActions, altStack := none }) := by
  simp [uninstall, hinstalled, foldl_restoreAction, mem_crashSignals]

theorem CrashHandler.install_of_installed {handler : CrashHandler}
    (hinstalled : handler.installed = true) (memory sigstksz : Word) (os : SignalState) :
    handler.install memory sigstksz os = (handler, os) := by
  simp [install, hinstalled]

theorem CrashHandler.uninstall_of_not_installed {handler : CrashHandler}
    (hinstalled : handler.installed = false) (os : SignalState) :
    handler.uninstall os = (handler, os) := by
  simp [uninstall, hinstalled]

/-- The calls of Domovoy and of the application. -/
inductive SignalCall where
  | install (memory sigstksz : Word)
  | uninstall
  | sigaction (sig : CrashSignal) (action : SigAction)
  | sigaltstack (stack : Option AltStack)
deriving DecidableEq, Repr

def SignalState.sigaction (sig : CrashSignal) (action : SigAction) (os : SignalState) :
    SignalState :=
  { os with disposition := Function.update os.disposition sig (.application action) }

def SignalState.sigaltstack (stack : Option AltStack) (os : SignalState) : SignalState :=
  { os with altStack := stack }

/-- The process, and the signal state it would have had Domovoy never been
installed. -/
structure SignalWorld where
  handler : CrashHandler
  os : SignalState
  would : SignalState

/-- A process that starts with any signal state. -/
def SignalWorld.initial (os : SignalState) : SignalWorld where
  handler := CrashHandler.initial
  os := os
  would := os

def SignalWorld.step (world : SignalWorld) (call : SignalCall) : Option SignalWorld :=
  match call with
  | .install memory sigstksz =>
      let (handler, os) := world.handler.install memory sigstksz world.os
      some { world with handler := handler, os := os }
  | .uninstall =>
      let (handler, os) := world.handler.uninstall world.os
      some { world with handler := handler, os := os }
  | .sigaction sig action =>
      some { world with
        os := world.os.sigaction sig action
        would := world.would.sigaction sig action }
  | .sigaltstack stack =>
      some { world with
        os := world.os.sigaltstack stack
        would := world.would.sigaltstack stack }

/-- While the handler is not installed, and so after every `Uninstall`, the signal
state is the application's own. -/
def SignalWorld.Restored (world : SignalWorld) : Prop :=
  world.handler.installed = false → world.os = world.would

/-- An effective `Uninstall` finds the application without an alternate stack, and
wanting for each signal the action that `Install` saved. -/
def SignalWorld.UninstallsClean (world : SignalWorld) (call : SignalCall) : Prop :=
  call = .uninstall → world.handler.installed = true →
    (∀ sig, world.would.disposition sig = world.handler.oldActions sig) ∧
      world.would.altStack = none

/-- One call keeps the law if and only if it is not an `Uninstall` that finds the
application's state changed. -/
theorem SignalWorld.step_restored_iff {world next : SignalWorld} {call : SignalCall}
    (hrestored : world.Restored) (hstep : world.step call = some next) :
    next.Restored ↔ world.UninstallsClean call := by
  cases call with
  | install memory sigstksz =>
      refine iff_of_true ?_ nofun
      cases hinstalled : world.handler.installed with
      | true =>
          rw [step, CrashHandler.install_of_installed hinstalled] at hstep
          obtain rfl := Option.some.inj hstep
          exact hrestored
      | false =>
          rw [step, CrashHandler.install_eq hinstalled] at hstep
          obtain rfl := Option.some.inj hstep
          exact nofun
  | uninstall =>
      cases hinstalled : world.handler.installed with
      | false =>
          rw [step, CrashHandler.uninstall_of_not_installed hinstalled] at hstep
          obtain rfl := Option.some.inj hstep
          refine iff_of_true hrestored ?_
          intro _ heffective
          rw [hinstalled] at heffective
          contradiction
      | true =>
          rw [step, CrashHandler.uninstall_eq hinstalled] at hstep
          obtain rfl := Option.some.inj hstep
          constructor
          · intro hafter _ _
            have hsame : SignalState.mk world.handler.oldActions none = world.would :=
              hafter rfl
            rw [← hsame]
            exact ⟨fun _ => rfl, rfl⟩
          · intro hclean _
            obtain ⟨hactions, hstack⟩ := hclean rfl hinstalled
            change SignalState.mk world.handler.oldActions none = world.would
            rw [← funext hactions, ← hstack]
  | sigaction sig action =>
      refine iff_of_true ?_ nofun
      obtain rfl := Option.some.inj hstep
      intro hinstalled
      exact congrArg (SignalState.sigaction sig action) (hrestored hinstalled)
  | sigaltstack stack =>
      refine iff_of_true ?_ nofun
      obtain rfl := Option.some.inj hstep
      intro hinstalled
      exact congrArg (SignalState.sigaltstack stack) (hrestored hinstalled)

/-- From any signal state and over any number of cycles, with any calls of the
application in between: the state is the application's own after every `Uninstall`
if and only if every effective `Uninstall` finds it without an alternate stack and
with the actions that `Install` saved. -/
theorem uninstall_restores_iff (os : SignalState) (calls : List SignalCall)
    (final : SignalWorld)
    (hrun : run SignalWorld.step (SignalWorld.initial os) calls = some final) :
    Throughout SignalWorld.step SignalWorld.Restored (SignalWorld.initial os) calls ↔
      Along SignalWorld.step SignalWorld.UninstallsClean (SignalWorld.initial os)
        calls := by
  have hinitial : (SignalWorld.initial os).Restored := fun _ => rfl
  apply throughout_iff_along SignalWorld.Restored _ _ hinitial hinitial along_true hrun
  · intro world call next hrestored _ hclean hstep
    exact (SignalWorld.step_restored_iff hrestored hstep).mpr hclean
  · intro world call next hrestored _ hstep
    exact SignalWorld.step_restored_iff hrestored hstep

namespace CrashWitness

def ignored : SigAction := { handler := .sigIgn, flags := 0, mask := 0 }

/-- No alternate stack and every signal at its default. -/
def fresh : SignalState where
  disposition := fun _ => .zero
  altStack := none

/-- Two cycles, the application changing an action between them. -/
def twoCycles : List SignalCall :=
  [.install 0x7000 8192, .install 0x7000 8192, .uninstall, .sigaction .sigfpe ignored,
    .install 0x9000 8192, .uninstall, .uninstall]

theorem twoCycles_restores_iff :
    Throughout SignalWorld.step SignalWorld.Restored (SignalWorld.initial fresh)
        twoCycles ↔
      Along SignalWorld.step SignalWorld.UninstallsClean (SignalWorld.initial fresh)
        twoCycles :=
  uninstall_restores_iff fresh twoCycles _ rfl

/-- The application runs its handlers on a stack of its own. -/
def withStack : SignalState where
  disposition := fun _ => .zero
  altStack := some { sp := 0x5000, size := 8192 }

/-- One cycle leaves the application without its alternate stack. -/
theorem oneCycle_not_restored :
    ¬ Throughout SignalWorld.step SignalWorld.Restored (SignalWorld.initial withStack)
      [.install 0x7000 8192, .uninstall] := by
  intro hall
  have hfinal := hall _ (List.prefix_refl _) _ rfl
  exact absurd (congrArg SignalState.altStack (hfinal rfl)) nofun

end CrashWitness

end Domovoy
