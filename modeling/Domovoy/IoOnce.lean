/-
The one-time initialisation of the IO hooks under any schedule, and next to it that of the
allocation hooks: once entered, complete before anyone passes, and no null call.
-/
import Domovoy.HookOnce
import Domovoy.IoSteps

namespace Domovoy

open Transition

/-- The function pointers `real_open`, `real_open64` and so on. -/
inductive RealIoName where
  | open
  | open64
  | openat
  | openat64
  | close
  | socket
deriving DecidableEq, Repr

/-- The assignments of `InitIoHooks`, in order. -/
def ioLookups : List RealIoName :=
  [.open, .open64, .openat, .openat64, .close, .socket]

theorem mem_ioLookups (name : RealIoName) : name ∈ ioLookups := by
  cases name <;> decide

/-- A hooked function, or `domovoy_linux_io_hooks_init`. -/
inductive IoEntry where
  | call (call : IoCall)
  | close (fd : Int)
  | init
deriving DecidableEq

inductive IoInitPc where
  /-- In `EnsureIoInit`: the load of `io_hooks_initialized` is next. -/
  | loading
  /-- The exchange of `io_hooks_initializing` is next. -/
  | exchanging
  /-- In the loop that waits for `io_hooks_initialized`. -/
  | waiting
  /-- The call of `InitIoHooks` is next. -/
  | entering
  /-- In `InitIoHooks`, before the first of these lookups, or at its end. -/
  | resolving (rest : List RealIoName)
  /-- `OnClose` is next. -/
  | erasing
  /-- The real function is next. -/
  | calling
  /-- `OnOpen` or `OnSocket` is next. -/
  | recording (fd : Int)
deriving DecidableEq

structure IoInitFrame where
  entry : IoEntry
  pc : IoInitPc

/-- The static variables of the hooks, and the monitor. -/
structure IoInitShared where
  real : RealIoName → Bool
  ioHooksInitialized : Bool
  ioHooksInitializing : Bool
  monitor : IoMonitor

/-- Whether a lookup finds its function, and what a real function returns. -/
structure IoInitEnv where
  found : Bool
  returned : Int

inductive IoInitMove where
  | enter (entry : IoEntry)
  | advance (env : IoInitEnv)
  /-- `DomovoyCore` enables or disables the monitor. -/
  | configure (enabled : Bool)

structure IoInitStep (Tid : Type) where
  thread : Tid
  move : IoInitMove

structure IoInitWorld (Tid : Type) where
  shared : IoInitShared
  frame : Tid → Option IoInitFrame

/-- The process before any hook has run. -/
def IoInitWorld.initial (Tid : Type) : IoInitWorld Tid where
  shared :=
    { real := fun _ => false
      ioHooksInitialized := false
      ioHooksInitializing := false
      monitor := IoMonitor.initial }
  frame := fun _ => none

/-- The pointer that the hook calls through; `close` returns -1 instead of calling through
a null pointer, and the two 64-bit openers fall back on the others. -/
def IoEntry.through (real : RealIoName → Bool) : IoEntry → Option RealIoName
  | .call (.open _) => some .open
  | .call (.open64 _) => some (if real .open64 then .open64 else .open)
  | .call (.openat _ _) => some .openat
  | .call (.openat64 _ _) => some (if real .openat64 then .openat64 else .openat)
  | .call (.socket _ _ _) => some .socket
  | .close _ => if real .close then some .close else none
  | .init => none

/-- After `EnsureIoInit`. -/
def IoEntry.afterEnsureIoInit : IoEntry → Option IoInitPc
  | .call _ => some .calling
  | .close _ => some .erasing
  | .init => none

/-- What the hook does with what its real function returned. -/
def IoEntry.afterReal (fd : Int) : IoEntry → Option IoInitPc
  | .call _ => if 0 ≤ fd then some (.recording fd) else none
  | .close _ => none
  | .init => none

/-- One step of a hook call, and where it goes on; `none` for the place when the hook
returns.  A call through a null pointer is not a step. -/
def IoInitFrame.step (env : IoInitEnv) (frame : IoInitFrame) (s : IoInitShared) :
    Option (IoInitShared × Option IoInitPc) :=
  match frame.pc, frame.entry with
  | .loading, entry =>
      some (s, if s.ioHooksInitialized then entry.afterEnsureIoInit else some .exchanging)
  | .exchanging, _ =>
      some ({ s with ioHooksInitializing := true },
        some (if s.ioHooksInitializing then .waiting else .entering))
  | .waiting, entry =>
      some (s, if s.ioHooksInitialized then entry.afterEnsureIoInit else some .waiting)
  | .entering, _ => some (s, some (.resolving ioLookups))
  | .resolving (name :: rest), _ =>
      some ({ s with real := Function.update s.real name env.found },
        some (.resolving rest))
  | .resolving [], entry =>
      some ({ s with ioHooksInitialized := true }, entry.afterEnsureIoInit)
  | .erasing, .close fd => some ({ s with monitor := s.monitor.onClose fd }, some .calling)
  | .erasing, _ => none
  | .calling, entry =>
      match entry.through s.real with
      | none => some (s, none)
      | some name => if s.real name then some (s, entry.afterReal env.returned) else none
  | .recording fd, .call call => some ({ s with monitor := call.record fd s.monitor }, none)
  | .recording _, _ => none

variable {Tid : Type}

/-- Every lookup finds its function; a thread that is in a hook calls no other. -/
def IoInitWorld.LooksUp (_w : IoInitWorld Tid) (label : IoInitStep Tid) : Prop :=
  ∀ env, label.move = .advance env → env.found = true

/-- The step enters `InitIoHooks`. -/
def IoInitWorld.entersInitIoHooks (w : IoInitWorld Tid) (label : IoInitStep Tid) : Bool :=
  match label.move, w.frame label.thread with
  | .advance _, some ⟨_, .entering⟩ => true
  | _, _ => false

/-- The step returns from `EnsureIoInit`. -/
def IoInitWorld.ReturnsFromEnsureIoInit (w : IoInitWorld Tid) (label : IoInitStep Tid) :
    Prop :=
  ∃ env frame, label.move = .advance env ∧ w.frame label.thread = some frame ∧
    (frame.pc = .loading ∧ w.shared.ioHooksInitialized = true ∨
      frame.pc = .waiting ∧ w.shared.ioHooksInitialized = true ∨ frame.pc = .resolving [])

/-- No hook stands before a call through a null pointer. -/
def IoInitWorld.CallsSet (w : IoInitWorld Tid) : Prop :=
  ∀ t entry, w.frame t = some ⟨entry, .calling⟩ →
    ∀ name, entry.through w.shared.real = some name → w.shared.real name = true

/-- All six pointers are set. -/
def IoInitShared.Complete (s : IoInitShared) : Prop :=
  ∀ name, s.real name = true

/-- What `InitIoHooks` still has to do; `none` outside of it. -/
def IoInitPc.remaining : IoInitPc → Option (List RealIoName)
  | .entering => some ioLookups
  | .resolving rest => some rest
  | _ => none

def IoInitWorld.place (w : IoInitWorld Tid) (t : Tid) : Option (List RealIoName) :=
  (w.frame t).bind fun frame => frame.pc.remaining

/-- A hook that has passed `EnsureIoInit`. -/
def IoInitPc.Passed : IoInitPc → Prop
  | .erasing | .calling | .recording _ => True
  | _ => False

structure IoInitWorld.OnceInv (w : IoInitWorld Tid) : Prop where
  once : OneTime.Inv ioLookups (fun name => w.shared.real name = true)
    w.shared.ioHooksInitializing w.shared.ioHooksInitialized w.place
  passed : ∀ t frame, w.frame t = some frame → frame.pc.Passed → w.shared.Complete

/-- `InitIoHooks` has been entered. -/
def IoInitWorld.Entered (w : IoInitWorld Tid) : Prop :=
  w.shared.ioHooksInitializing = true ∧
    ∀ t frame, w.frame t = some frame → frame.pc ≠ .entering

theorem IoEntry.afterEnsureIoInit_cases (entry : IoEntry) (pc : IoInitPc)
    (hpc : entry.afterEnsureIoInit = some pc) : pc.Passed ∧ pc.remaining = none := by
  cases entry with
  | call call =>
      obtain rfl := Option.some.inj hpc
      exact ⟨trivial, rfl⟩
  | close fd =>
      obtain rfl := Option.some.inj hpc
      exact ⟨trivial, rfl⟩
  | init => cases hpc

/-- What one step of a hook does to the initialisation, and when it passes. -/
inductive IoInitFrame.Moves (env : IoInitEnv) (s : IoInitShared) (frame : IoInitFrame) :
    IoInitShared → Option IoInitPc → Prop
  /-- Nothing that matters here changes. -/
  | along {monitor : IoMonitor} {onward : Option IoInitPc} (hpc : frame.pc.remaining = none)
      (honward : onward.bind IoInitPc.remaining = none)
      (hpassed : ∀ pc, onward = some pc → pc.Passed →
        frame.pc.Passed ∨ s.ioHooksInitialized = true) :
      Moves env s frame { s with monitor := monitor } onward
  | loses (hpc : frame.pc = .exchanging) (hclaimed : s.ioHooksInitializing = true) :
      Moves env s frame s (some .waiting)
  | claims (hpc : frame.pc = .exchanging) (hclaimed : s.ioHooksInitializing = false) :
      Moves env s frame { s with ioHooksInitializing := true } (some .entering)
  | enters (hpc : frame.pc = .entering) : Moves env s frame s (some (.resolving ioLookups))
  | assigns {name : RealIoName} {rest : List RealIoName}
      (hpc : frame.pc = .resolving (name :: rest)) :
      Moves env s frame { s with real := Function.update s.real name env.found }
        (some (.resolving rest))
  | publishes (hpc : frame.pc = .resolving []) :
      Moves env s frame { s with ioHooksInitialized := true } frame.entry.afterEnsureIoInit

theorem IoInitFrame.step_moves {env : IoInitEnv} {s s' : IoInitShared} {frame : IoInitFrame}
    {onward : Option IoInitPc} (hstep : frame.step env s = some (s', onward)) :
    frame.Moves env s s' onward := by
  rcases frame with ⟨entry, pc⟩
  cases pc with
  | loading | waiting =>
      obtain ⟨rfl, rfl⟩ := Prod.mk.inj (Option.some.inj hstep)
      cases hdone : s.ioHooksInitialized with
      | true =>
          refine @Moves.along env s _ s.monitor _ rfl ?_ fun _ _ _ => Or.inr hdone
          cases entry <;> rfl
      | false =>
          refine @Moves.along env s _ s.monitor _ rfl rfl ?_
          rintro _ ⟨⟩ hpassed
          exact hpassed.elim
  | exchanging =>
      obtain ⟨rfl, rfl⟩ := Prod.mk.inj (Option.some.inj hstep)
      cases hclaimed : s.ioHooksInitializing with
      | true =>
          have hsame : { s with ioHooksInitializing := true } = s := by
            rw [← hclaimed]
          rw [hsame]
          exact .loses rfl hclaimed
      | false => exact .claims rfl hclaimed
  | entering =>
      obtain ⟨rfl, rfl⟩ := Prod.mk.inj (Option.some.inj hstep)
      exact .enters rfl
  | resolving rest =>
      cases rest with
      | nil =>
          obtain ⟨rfl, rfl⟩ := Prod.mk.inj (Option.some.inj hstep)
          exact .publishes rfl
      | cons name rest =>
          obtain ⟨rfl, rfl⟩ := Prod.mk.inj (Option.some.inj hstep)
          exact .assigns rfl
  | erasing =>
      cases entry with
      | call call => simp [step] at hstep
      | init => simp [step] at hstep
      | close fd =>
          obtain ⟨rfl, rfl⟩ := Prod.mk.inj (Option.some.inj hstep)
          exact .along rfl rfl fun _ _ _ => Or.inl trivial
  | calling =>
      have hsame : s' = s ∧ onward.bind IoInitPc.remaining = none := by
        simp only [step] at hstep
        split at hstep
        next =>
          obtain ⟨rfl, rfl⟩ := Prod.mk.inj (Option.some.inj hstep)
          exact ⟨rfl, rfl⟩
        next name hname =>
          split at hstep
          next =>
            obtain ⟨rfl, rfl⟩ := Prod.mk.inj (Option.some.inj hstep)
            refine ⟨rfl, ?_⟩
            cases entry with
            | call call =>
                rw [IoEntry.afterReal]
                split <;> rfl
            | close fd => rfl
            | init => rfl
          next => cases hstep
      obtain ⟨rfl, honward⟩ := hsame
      exact @Moves.along env s' _ s'.monitor _ rfl honward fun _ _ _ => Or.inl trivial
  | recording fd =>
      cases entry with
      | init => simp [step] at hstep
      | close fd => simp [step] at hstep
      | call call =>
          obtain ⟨rfl, rfl⟩ := Prod.mk.inj (Option.some.inj hstep)
          exact .along rfl rfl nofun

theorem IoInitWorld.initial_onceInv : (IoInitWorld.initial Tid).OnceInv where
  once := OneTime.Inv.initial ioLookups _
  passed := nofun

variable [DecidableEq Tid]

/-- One atomic step of one thread. -/
def IoInitWorld.step (w : IoInitWorld Tid) (label : IoInitStep Tid) :
    Option (IoInitWorld Tid) :=
  match label.move, w.frame label.thread with
  | .enter entry, none =>
      some { w with frame := Function.update w.frame label.thread (some ⟨entry, .loading⟩) }
  | .advance env, some frame =>
      (frame.step env w.shared).map fun (shared, pc) =>
        { shared := shared
          frame := Function.update w.frame label.thread
            (pc.map fun pc => ⟨frame.entry, pc⟩) }
  | .configure enabled, none =>
      some { w with
        shared.monitor :=
          if enabled then w.shared.monitor.enable else w.shared.monitor.disable }
  | _, _ => none

/-- The three kinds of steps. -/
theorem IoInitWorld.step_cases {w next : IoInitWorld Tid} {label : IoInitStep Tid}
    (hstep : w.step label = some next) :
    (∃ monitor, next = { w with shared.monitor := monitor }) ∨
      (∃ entry, w.frame label.thread = none ∧ next = { w with
        frame := Function.update w.frame label.thread (some ⟨entry, .loading⟩) }) ∨
      ∃ env frame shared onward, label.move = .advance env ∧
        w.frame label.thread = some frame ∧
          frame.step env w.shared = some (shared, onward) ∧
            next = ⟨shared, Function.update w.frame label.thread
              (onward.map fun pc => ⟨frame.entry, pc⟩)⟩ := by
  rcases label with ⟨t, move⟩
  cases move with
  | configure enabled =>
      cases hframe : w.frame t with
      | some frame => simp [step, hframe] at hstep
      | none =>
          simp only [step, hframe, Option.some.injEq] at hstep
          exact Or.inl ⟨_, hstep.symm⟩
  | enter entry =>
      cases hframe : w.frame t with
      | some frame => simp [step, hframe] at hstep
      | none =>
          simp only [step, hframe, Option.some.injEq] at hstep
          exact Or.inr (Or.inl ⟨entry, rfl, hstep.symm⟩)
  | advance env =>
      cases hframe : w.frame t with
      | none => simp [step, hframe] at hstep
      | some frame =>
          simp only [step, hframe, Option.map_eq_some_iff] at hstep
          obtain ⟨⟨shared, onward⟩, hadvance, rfl⟩ := hstep
          exact Or.inr (Or.inr ⟨env, frame, shared, onward, rfl, rfl, hadvance, rfl⟩)

theorem IoInitWorld.place_update (w : IoInitWorld Tid) (shared : IoInitShared) (t : Tid)
    (frame : Option IoInitFrame) :
    IoInitWorld.place ⟨shared, Function.update w.frame t frame⟩ =
      Function.update w.place t (frame.bind fun frame => frame.pc.remaining) :=
  Function.comp_update (fun frame : Option IoInitFrame =>
    frame.bind fun frame => frame.pc.remaining) w.frame t frame

/-- Through one step of a hook: the body of the initialisation, and the pointers for those
that pass. -/
theorem IoInitFrame.Moves.once {place : Tid → Option (List RealIoName)} {t : Tid}
    {env : IoInitEnv} {frame : IoInitFrame} {s s' : IoInitShared}
    {onward : Option IoInitPc}
    (honce : OneTime.Inv ioLookups (fun name => s.real name = true) s.ioHooksInitializing
      s.ioHooksInitialized place)
    (hplace : place t = frame.pc.remaining) (hfound : env.found = true)
    (hmoves : frame.Moves env s s' onward) :
    OneTime.Inv ioLookups (fun name => s'.real name = true) s'.ioHooksInitializing
        s'.ioHooksInitialized (Function.update place t (onward.bind IoInitPc.remaining)) ∧
      (∀ name, s.real name = true → s'.real name = true) ∧
        ∀ pc, onward = some pc → pc.Passed → frame.pc.Passed ∨ s.Complete := by
  cases hmoves with
  | along hpc honward hpassed =>
      rw [honward]
      refine ⟨honce.stay nofun fun _ => id, fun _ => id, fun pc hpc hafter => ?_⟩
      rcases hpassed pc hpc hafter with hbefore | hdone
      · exact Or.inl hbefore
      · exact Or.inr fun name => honce.finished hdone name (mem_ioLookups name)
  | loses hpc hclaimed =>
      refine ⟨honce.stay nofun fun _ => id, fun _ => id, ?_⟩
      rintro _ ⟨⟩ hafter
      exact hafter.elim
  | claims hpc hclaimed =>
      rw [hclaimed] at honce
      refine ⟨honce.claim t, fun _ => id, ?_⟩
      rintro _ ⟨⟩ hafter
      exact hafter.elim
  | enters hpc =>
      rw [hpc] at hplace
      refine ⟨honce.stay (fun rest hrest => hplace.trans hrest) fun _ => id, fun _ => id, ?_⟩
      rintro _ ⟨⟩ hafter
      exact hafter.elim
  | @assigns name rest hpc =>
      rw [hpc] at hplace
      have hset : Function.update s.real name env.found name = true := by
        rw [Function.update_self, hfound]
      have hkeep : ∀ other, s.real other = true →
          Function.update s.real name env.found other = true := by
        intro other hother
        by_cases hsame : other = name
        · rw [hsame]
          exact hset
        · rw [Function.update_of_ne hsame]
          exact hother
      refine ⟨honce.assign hplace hset hkeep, hkeep, ?_⟩
      rintro _ ⟨⟩ hafter
      exact hafter.elim
  | publishes hpc =>
      rw [hpc] at hplace
      have honward : frame.entry.afterEnsureIoInit.bind IoInitPc.remaining = none := by
        cases frame.entry <;> rfl
      rw [honward]
      refine ⟨honce.finish hplace, fun _ => id, fun _ _ _ => Or.inr fun name => ?_⟩
      exact honce.progress t [] hplace name (mem_ioLookups name) List.not_mem_nil

/-- Every step preserves the invariant. -/
theorem IoInitWorld.step_inv {w next : IoInitWorld Tid} {label : IoInitStep Tid}
    (hinv : w.OnceInv) (hlooks : w.LooksUp label) (hstep : w.step label = some next) :
    next.OnceInv := by
  rcases IoInitWorld.step_cases hstep with ⟨monitor, rfl⟩ | ⟨entry, hframe, rfl⟩ |
    ⟨env, frame, shared, onward, hmove, hframe, hadvance, rfl⟩
  · exact ⟨hinv.once, hinv.passed⟩
  · refine ⟨?_, ?_⟩
    · rw [IoInitWorld.place_update w w.shared]
      exact hinv.once.stay nofun fun _ => id
    · intro t' frame' hframe' hpassed
      by_cases hsame : t' = label.thread
      · simp only [hsame, Function.update_self] at hframe'
        obtain rfl := Option.some.inj hframe'
        exact hpassed.elim
      · simp only [Function.update_of_ne hsame] at hframe'
        exact hinv.passed t' frame' hframe' hpassed
  · have hplace : w.place label.thread = frame.pc.remaining := by
      rw [place, hframe]
      rfl
    obtain ⟨honce, hkeep, hpasses⟩ :=
      (IoInitFrame.step_moves hadvance).once hinv.once hplace (hlooks env hmove)
    refine ⟨?_, ?_⟩
    · rw [IoInitWorld.place_update]
      cases onward with
      | none => exact honce
      | some pc => exact honce
    · intro t' frame' hframe' hpassed name
      apply hkeep
      by_cases hsame : t' = label.thread
      · simp only [hsame, Function.update_self, Option.map_eq_some_iff] at hframe'
        obtain ⟨pc, rfl, rfl⟩ := hframe'
        rcases hpasses pc rfl hpassed with hbefore | hcomplete
        · exact hinv.passed label.thread frame hframe hbefore name
        · exact hcomplete name
      · simp only [Function.update_of_ne hsame] at hframe'
        exact hinv.passed t' frame' hframe' hpassed name

/-- Entering `InitIoHooks` is what no other thread is about to do. -/
theorem IoInitWorld.entered_of_enters {w next : IoInitWorld Tid} {label : IoInitStep Tid}
    (hinv : w.OnceInv) (henters : w.entersInitIoHooks label = true)
    (hstep : w.step label = some next) : next.Entered := by
  rcases label with ⟨t, move⟩
  simp only [entersInitIoHooks] at henters
  split at henters
  next env entry hframe =>
    have hplace : w.place t = some ioLookups := by
      rw [place, hframe]
      rfl
    simp only [step, hframe, IoInitFrame.step, Option.map_some, Option.some.injEq] at hstep
    obtain rfl := hstep
    refine ⟨hinv.once.entered t ioLookups hplace, ?_⟩
    intro t' frame' hframe' hpc
    by_cases hsame : t' = t
    · simp only [hsame, Function.update_self, Option.some.injEq] at hframe'
      rw [← hframe'] at hpc
      contradiction
    · simp only [Function.update_of_ne hsame] at hframe'
      have hplace' : w.place t' = some ioLookups := by
        rw [place, hframe', Option.bind_some, hpc]
        rfl
      exact hsame (hinv.once.alone t' t _ _ hplace' hplace)
  next => contradiction

/-- Nothing leads back to the entry of `InitIoHooks`. -/
theorem IoInitWorld.Entered.step {w next : IoInitWorld Tid} {label : IoInitStep Tid}
    (hentered : w.Entered) (hstep : w.step label = some next) :
    next.Entered ∧ w.entersInitIoHooks label = false := by
  obtain ⟨hstarted, hnone⟩ := hentered
  refine ⟨?_, ?_⟩
  · rcases IoInitWorld.step_cases hstep with ⟨monitor, rfl⟩ | ⟨entry, hframe, rfl⟩ |
      ⟨env, frame, shared, onward, -, hframe, hadvance, rfl⟩
    · exact ⟨hstarted, hnone⟩
    · refine ⟨hstarted, fun t' frame' hframe' => ?_⟩
      by_cases hsame : t' = label.thread
      · simp only [hsame, Function.update_self, Option.some.injEq] at hframe'
        rw [← hframe']
        exact nofun
      · simp only [Function.update_of_ne hsame] at hframe'
        exact hnone t' frame' hframe'
    · have hmoves := IoInitFrame.step_moves hadvance
      have hafter : shared.ioHooksInitializing = true ∧ onward ≠ some .entering := by
        cases hmoves with
        | along hpc honward hpassed =>
            refine ⟨hstarted, ?_⟩
            rintro rfl
            cases honward
        | loses => exact ⟨hstarted, nofun⟩
        | claims hpc hclaimed =>
            rw [hstarted] at hclaimed
            contradiction
        | enters => exact ⟨hstarted, nofun⟩
        | assigns => exact ⟨hstarted, nofun⟩
        | publishes =>
            refine ⟨hstarted, fun honward => ?_⟩
            exact (IoEntry.afterEnsureIoInit_cases _ _ honward).1
      refine ⟨hafter.1, fun t' frame' hframe' hpc => ?_⟩
      by_cases hsame : t' = label.thread
      · simp only [hsame, Function.update_self, Option.map_eq_some_iff] at hframe'
        obtain ⟨pc, honward, rfl⟩ := hframe'
        obtain rfl : pc = .entering := hpc
        exact hafter.2 honward
      · simp only [Function.update_of_ne hsame] at hframe'
        exact hnone t' frame' hframe' hpc
  · simp only [entersInitIoHooks]
    split
    next env entry _ hframe => exact absurd rfl (hnone label.thread _ hframe)
    next => rfl

/-- What the initialisation promises in a state: no call through a null pointer, and no
return from `EnsureIoInit` before all pointers are set. -/
structure IoInitWorld.Ready (w : IoInitWorld Tid) : Prop where
  calls : w.CallsSet
  returns : ∀ label next, w.ReturnsFromEnsureIoInit label → w.step label = some next →
    next.shared.Complete

theorem IoInitWorld.OnceInv.ready {w : IoInitWorld Tid} (hinv : w.OnceInv) : w.Ready := by
  refine ⟨fun t entry hframe name _ => hinv.passed t _ hframe trivial name, ?_⟩
  rintro label next ⟨env, frame, hmove, hframe, hreturns⟩ hstep
  have hcomplete : w.shared.Complete := by
    intro name
    rcases hreturns with ⟨-, hdone⟩ | ⟨-, hdone⟩ | hpc
    · exact hinv.once.finished hdone name (mem_ioLookups name)
    · exact hinv.once.finished hdone name (mem_ioLookups name)
    · have hplace : w.place label.thread = some [] := by
        rw [place, hframe, Option.bind_some, hpc]
        rfl
      exact hinv.once.progress label.thread [] hplace name (mem_ioLookups name)
        List.not_mem_nil
  simp only [step, hmove, hframe, Option.map_eq_some_iff] at hstep
  obtain ⟨⟨shared, onward⟩, hadvance, rfl⟩ := hstep
  rcases frame with ⟨entry, pc⟩
  rcases hreturns with ⟨hpc, -⟩ | ⟨hpc, -⟩ | hpc
  all_goals
    obtain rfl := hpc
    obtain ⟨rfl, -⟩ := Prod.mk.inj (Option.some.inj hadvance)
    exact hcomplete

/-- Every state that the hooks reach is ready, and `InitIoHooks` is entered at most once on
the way there. -/
theorem IoInitWorld.run_once {labels : List (IoInitStep Tid)} {final : IoInitWorld Tid}
    (hlooks : Along IoInitWorld.step IoInitWorld.LooksUp (IoInitWorld.initial Tid) labels)
    (hrun : run IoInitWorld.step (IoInitWorld.initial Tid) labels = some final) :
    final.Ready ∧ stepsWhere IoInitWorld.step IoInitWorld.entersInitIoHooks
      (IoInitWorld.initial Tid) labels ≤ 1 := by
  have hinitial : (IoInitWorld.initial Tid).OnceInv := IoInitWorld.initial_onceInv
  refine ⟨?_, ?_⟩
  · have hfinal : final.OnceInv := run_invariant_along
      (fun _ _ _ hinv hlooks hstep => IoInitWorld.step_inv hinv hlooks hstep) hinitial
      hlooks hrun
    exact hfinal.ready
  · exact (stepsWhere_le_one IoInitWorld.OnceInv IoInitWorld.Entered
      (fun _ _ _ hinv hlooks hstep => IoInitWorld.step_inv hinv hlooks hstep)
      (fun _ _ _ hinv _ henters hstep => IoInitWorld.entered_of_enters hinv henters hstep)
      (fun _ _ _ _ _ hentered hstep => hentered.step hstep) hinitial hlooks).1

/-- The one-time initialisation of the allocation hooks and of the IO hooks, for any number
of threads and any interleaving of their steps. -/
theorem hooks_initialise_once (Tid : Type) [DecidableEq Tid] (buf : BootstrapBuf) :
    (∀ labels final,
        Along HookWorld.onceStep HookWorld.LooksUp (HookWorld.initial Tid buf) labels →
          run HookWorld.onceStep (HookWorld.initial Tid buf) labels = some final →
            final.Ready ∧ stepsWhere HookWorld.onceStep HookWorld.entersInitHooks
              (HookWorld.initial Tid buf) labels ≤ 1) ∧
      ∀ labels final,
        Along IoInitWorld.step IoInitWorld.LooksUp (IoInitWorld.initial Tid) labels →
          run IoInitWorld.step (IoInitWorld.initial Tid) labels = some final →
            final.Ready ∧ stepsWhere IoInitWorld.step IoInitWorld.entersInitIoHooks
              (IoInitWorld.initial Tid) labels ≤ 1 :=
  ⟨fun _ _ hlooks hrun => HookWorld.run_once hlooks hrun,
    fun _ _ hlooks hrun => IoInitWorld.run_once hlooks hrun⟩

namespace OnceWitness

instance (w : HookWorld Bool) (label : OnceMove Bool) : Decidable (w.LooksUp label) :=
  match label with
  | .move ⟨t, .enter _⟩ =>
      decidable_of_iff ((w.frames t).isEmpty = true) List.isEmpty_iff
  | .move ⟨_, .advance env⟩ => inferInstanceAs (Decidable (env.found = true))
  | .move ⟨_, .configure _⟩ => .isTrue trivial
  | .allocateThrows _ => .isTrue trivial

def hook (t : Bool) (call : HookCall) : OnceMove Bool :=
  .move ⟨t, .enter (.hook call)⟩

def hookStep (t : Bool) : OnceMove Bool :=
  .move ⟨t, .advance { found := true, hook := { answer := .block 0x70000, room := true } }⟩

/-- Two first calls at once: one thread loses the exchange and waits for the other. -/
def hookRace : List (OnceMove Bool) :=
  [hook true (.malloc 16), hook false (.malloc 32)] ++ List.replicate 3 (hookStep true) ++
    List.replicate 4 (hookStep false) ++ List.replicate 11 (hookStep true) ++
      List.replicate 2 (hookStep false)

def ioStep (t : Bool) : IoInitStep Bool :=
  ⟨t, .advance { found := true, returned := 3 }⟩

/-- The same for `socket` and `close`. -/
def ioRace : List (IoInitStep Bool) :=
  [⟨true, .enter (.call (.socket 2 1 0))⟩, ⟨false, .enter (.close 7)⟩] ++
    List.replicate 2 (ioStep true) ++ List.replicate 3 (ioStep false) ++
      List.replicate 10 (ioStep true) ++ List.replicate 3 (ioStep false)

theorem races_initialise_once :
    (∃ final, run HookWorld.onceStep (HookWorld.initial Bool BootstrapWitness.loaded)
        hookRace = some final ∧ final.Ready) ∧
      ∃ final, run IoInitWorld.step (IoInitWorld.initial Bool) ioRace = some final ∧
        final.Ready := by
  have hhooks : (run HookWorld.onceStep (HookWorld.initial Bool BootstrapWitness.loaded)
      hookRace).isSome = true := by decide +kernel
  have hio : (run IoInitWorld.step (IoInitWorld.initial Bool) ioRace).isSome = true := by
    decide +kernel
  obtain ⟨hooks, hhooks⟩ := Option.isSome_iff_exists.mp hhooks
  obtain ⟨io, hio⟩ := Option.isSome_iff_exists.mp hio
  have honce := hooks_initialise_once Bool BootstrapWitness.loaded
  refine ⟨⟨hooks, hhooks, (honce.1 hookRace hooks ?_ hhooks).1⟩,
    ⟨io, hio, (honce.2 ioRace io ?_ hio).1⟩⟩
  · decide +kernel
  · apply along_of_forall
    simp [ioRace, ioStep, IoInitWorld.LooksUp, List.replicate]

end OnceWitness

end Domovoy
