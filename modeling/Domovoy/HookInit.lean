/-
The initialisation of the Linux allocation hooks under any number of threads.  A hook
tests its own real function before anything else, and the lookups of `InitHooks` call
the hooks again, so a thread holds a stack of hook calls.
-/
import Domovoy.BootstrapBuf
import Domovoy.TrackerSteps

namespace Domovoy

open WordAlign Transition

/-- The function pointers `real_malloc`, `real_free` and so on. -/
inductive RealName where
  | malloc
  | free
  | calloc
  | realloc
  | memalign
  | posixMemalign
deriving DecidableEq, Repr

/-- The assignments of `InitHooks`, in order. -/
def lookups : List RealName :=
  [.malloc, .free, .calloc, .realloc, .memalign, .posixMemalign]

def HookCall.realName : HookCall → RealName
  | .malloc _ => .malloc
  | .free _ => .free
  | .calloc _ _ => .calloc
  | .realloc _ _ => .realloc
  | .memalign _ _ => .memalign
  | .posixMemalign _ _ _ => .posixMemalign

/-- A hooked function, or `domovoy_linux_alloc_hooks_init`. -/
inductive HookEntry where
  | hook (call : HookCall)
  | init
deriving DecidableEq, Repr

inductive InitPc where
  /-- `if (!real_…)` is next. -/
  | testing
  /-- `if (in_dlsym)` is next. -/
  | testingDlsym
  /-- The bootstrap branch is next. -/
  | bumping
  /-- In `EnsureInit`: the load of `hooks_initialized` is next. -/
  | loading
  /-- The exchange of `hooks_initializing` is next. -/
  | exchanging
  /-- In the loop that waits for `hooks_initialized`. -/
  | waiting
  /-- In `InitHooks`: `in_dlsym = true` is next. -/
  | entering
  /-- Inside the first of these lookups, or before `in_dlsym = false`. -/
  | resolving (rest : List RealName)
  /-- The construction of the map is next. -/
  | mapping
  /-- The store of `hooks_initialized` is next. -/
  | publishing
  /-- The real function is next, with the bookkeeping around it. -/
  | real
deriving DecidableEq, Repr

structure HookFrame where
  entry : HookEntry
  pc : InitPc
deriving DecidableEq, Repr

/-- The static variables of the hooks, the allocator behind them, and the pointers that
callers hold. -/
structure HookShared where
  real : RealName → Bool
  inDlsym : Bool
  buf : BootstrapBuf
  hooksInitialized : Bool
  hooksInitializing : Bool
  tracker : Tracker
  owned : List Word

/-- What the surroundings decide during one step: whether a lookup finds its function,
and what the real allocator and the pool answer. -/
structure InitEnv where
  found : Bool
  hook : HookEnv
deriving DecidableEq, Repr

inductive InitMove where
  | enter (entry : HookEntry)
  | advance (env : InitEnv)
  /-- `DomovoyCore` assigns its configuration. -/
  | configure (config : DomovoyConfig)
deriving DecidableEq, Repr

structure InitStep (Tid : Type) where
  thread : Tid
  move : InitMove

/-- A step of a thread; `allocateThrows` is the exception that leaves `InitHooks`, and the
hook it was called from, when there is no memory for the map. -/
inductive OnceMove (Tid : Type) where
  | move (label : InitStep Tid)
  | allocateThrows (thread : Tid)

structure HookWorld (Tid : Type) where
  shared : HookShared
  frames : Tid → List HookFrame

/-- The process before any hook has run. -/
def HookWorld.initial (Tid : Type) (buf : BootstrapBuf) : HookWorld Tid where
  shared :=
    { real := fun _ => false
      inDlsym := false
      buf := buf
      hooksInitialized := false
      hooksInitializing := false
      tracker := { config := {}, gAllocations := none, heap := LibcHeap.initial }
      owned := [] }
  frames := fun _ => []

def HookEntry.released : HookEntry → Option Word
  | .hook call => call.released
  | .init => none

/-- The pointer that the caller of an allocating hook now holds. -/
def gained : Except Thrown Word → Option Word
  | .ok ptr => if ptr = nullptr then none else some ptr
  | .error _ => none

/-- The rest of a hook once its real function is known, with the pointer its caller
holds afterwards; a `realloc` that fails leaves the old one. -/
def HookCall.body (env : HookEnv) (tracker : Tracker) :
    HookCall → Option (Option Word × Tracker)
  | .malloc size =>
      (Domovoy.malloc env size tracker).map fun (result, tracker) =>
        (gained result, tracker)
  | .free ptr => (Domovoy.free ptr tracker).map fun tracker => (none, tracker)
  | .calloc nmemb size =>
      (Domovoy.calloc env nmemb size tracker).map fun (result, tracker) =>
        (gained result, tracker)
  | .realloc ptr size =>
      (Domovoy.realloc env ptr size tracker).map fun (result, tracker) =>
        (if result = .ok nullptr ∧ size ≠ 0 then gained (.ok ptr) else gained result,
          tracker)
  | .memalign alignment size =>
      (Domovoy.memalign env alignment size tracker).map fun (result, tracker) =>
        (gained result, tracker)
  | .posixMemalign memptr alignment size =>
      (Domovoy.posixMemalign env memptr alignment size tracker).map
        fun (result, tracker) =>
          match result with
          | .ok (0, some ptr) => (gained (.ok ptr), tracker)
          | _ => (none, tracker)

/-- After `EnsureInit` a hook goes on to its real function. -/
def HookEntry.afterEnsureInit : HookEntry → Option InitPc
  | .hook _ => some .real
  | .init => none

/-- `if (!real_…)` and the first test under it; `none` when the hook returns. -/
def HookShared.testReal (s : HookShared) (call : HookCall) : Option InitPc :=
  if s.real call.realName then some .real
  else
    match call with
    | .malloc _ => some .testingDlsym
    | .calloc _ _ => some .testingDlsym
    | .free ptr => if s.buf.Holds ptr then none else some .loading
    | .realloc _ _ => some .loading
    | .memalign _ _ => some .loading
    | .posixMemalign _ _ _ => some .loading

def HookShared.bump (s : HookShared) : HookCall → HookShared
  | .malloc size =>
      let (ptr, buf) := s.buf.malloc size
      { s with buf := buf, owned := (gained (.ok ptr)).toList ++ s.owned }
  | .calloc nmemb size =>
      let (ptr, buf) := s.buf.calloc nmemb size
      { s with buf := buf, owned := (gained (.ok ptr)).toList ++ s.owned }
  | _ => s

/-- The allocator's blocks lie elsewhere than the static buffer. -/
def RealAnswer.Outside (answer : RealAnswer) (buf : BootstrapBuf) : Prop :=
  ∀ address, answer = .block address → ¬ buf.Holds address

instance (answer : RealAnswer) (buf : BootstrapBuf) : Decidable (answer.Outside buf) :=
  match answer with
  | .block address => decidable_of_iff (¬ buf.Holds address) (by simp [RealAnswer.Outside])
  | .refuse => isTrue nofun
  | .inPlace => isTrue nofun

/-- One step of the innermost hook call of a thread, and where it goes on; `none` for
the place when the hook returns.  A call through a null pointer is not a step. -/
def HookFrame.step (env : InitEnv) (frame : HookFrame) (s : HookShared) :
    Option (HookShared × Option InitPc) :=
  match frame.pc, frame.entry with
  | .testing, .hook call => some (s, s.testReal call)
  | .testing, .init => none
  | .testingDlsym, _ => some (s, some (if s.inDlsym then .bumping else .loading))
  | .bumping, .hook call => some (s.bump call, none)
  | .bumping, .init => none
  | .loading, entry =>
      some (s, if s.hooksInitialized then entry.afterEnsureInit else some .exchanging)
  | .exchanging, _ =>
      some ({ s with hooksInitializing := true },
        some (if s.hooksInitializing then .waiting else .entering))
  | .waiting, entry =>
      some (s, if s.hooksInitialized then entry.afterEnsureInit else some .waiting)
  | .entering, _ => some ({ s with inDlsym := true }, some (.resolving lookups))
  | .resolving (name :: rest), _ =>
      some ({ s with real := Function.update s.real name env.found },
        some (.resolving rest))
  | .resolving [], _ => some ({ s with inDlsym := false }, some .mapping)
  | .mapping, _ =>
      some ({ s with tracker := { s.tracker with gAllocations := some ∅ } },
        some .publishing)
  | .publishing, entry =>
      some ({ s with hooksInitialized := true }, entry.afterEnsureInit)
  | .real, .hook call =>
      if s.real call.realName = true ∧ env.hook.answer.Outside s.buf then
        (call.body env.hook s.tracker).map fun (ptr, tracker) =>
          ({ s with tracker := tracker, owned := ptr.toList ++ s.owned }, none)
      else none
  | .real, .init => none

/-- The innermost call has gone on, or has returned to the one below it. -/
def settle (entry : HookEntry) (below : List HookFrame) : Option InitPc → List HookFrame
  | some pc => ⟨entry, pc⟩ :: below
  | none => below

/-- The application calls a hook when it is in none; `dlsym` does so in the middle of
a lookup. -/
def canEnter : List HookFrame → Bool
  | [] => true
  | ⟨_, .resolving (_ :: _)⟩ :: _ => true
  | _ => false

/-- A call gives up a pointer that its caller holds. -/
def HookShared.claim (s : HookShared) (entry : HookEntry) : Option HookShared :=
  match entry.released with
  | none => some s
  | some ptr => if ptr ∈ s.owned then some { s with owned := s.owned.erase ptr } else none

def HookEntry.start : HookEntry → InitPc
  | .hook _ => .testing
  | .init => .loading

/-- What a call that is now at the given place was doing and read before. -/
def HookFrame.LeadsTo (s : HookShared) (frame : HookFrame) : InitPc → Prop
  | .testing => False
  | .testingDlsym => frame.pc = .testing
  | .bumping => frame.pc = .testingDlsym ∧ s.inDlsym = true
  | .loading => frame.pc = .testing ∨ frame.pc = .testingDlsym ∧ s.inDlsym = false
  | .exchanging => frame.pc = .loading ∧ s.hooksInitialized = false
  | .waiting =>
      frame.pc = .exchanging ∧ s.hooksInitializing = true ∨
        frame.pc = .waiting ∧ s.hooksInitialized = false
  | .entering => frame.pc = .exchanging ∧ s.hooksInitializing = false
  | .resolving rest =>
      frame.pc = .entering ∧ rest = lookups ∨
        ∃ name, frame.pc = .resolving (name :: rest)
  | .mapping => frame.pc = .resolving []
  | .publishing => frame.pc = .mapping
  | .real =>
      ∃ call, frame.entry = .hook call ∧
        (frame.pc = .testing ∧ s.real call.realName = true ∨
          (frame.pc = .loading ∨ frame.pc = .waiting) ∧ s.hooksInitialized = true ∨
          frame.pc = .publishing)

/-- What a step makes of the static variables, the allocator and the pointers held. -/
def HookFrame.Changes (env : InitEnv) (frame : HookFrame) (s s' : HookShared) : Prop :=
  match frame.pc with
  | .testing | .testingDlsym | .loading | .waiting => s' = s
  | .bumping => ∃ call, frame.entry = .hook call ∧ s' = s.bump call
  | .exchanging => s' = { s with hooksInitializing := true }
  | .entering => s' = { s with inDlsym := true }
  | .resolving (name :: _) => s' = { s with real := Function.update s.real name env.found }
  | .resolving [] => s' = { s with inDlsym := false }
  | .mapping => s' = { s with tracker := { s.tracker with gAllocations := some ∅ } }
  | .publishing => s' = { s with hooksInitialized := true }
  | .real =>
      ∃ call ptr tracker, frame.entry = .hook call ∧ s.real call.realName = true ∧
        env.hook.answer.Outside s.buf ∧
          call.body env.hook s.tracker = some (ptr, tracker) ∧
            s' = { s with tracker := tracker, owned := ptr.toList ++ s.owned }

theorem HookFrame.step_changes {env : InitEnv} {frame : HookFrame} {s s' : HookShared}
    {onward : Option InitPc} (hstep : frame.step env s = some (s', onward)) :
    frame.Changes env s s' := by
  rcases frame with ⟨entry, pc⟩
  cases pc with
  | testing =>
      cases entry with
      | init => simp [step] at hstep
      | hook call => exact (Prod.mk.inj (Option.some.inj hstep)).1.symm
  | bumping =>
      cases entry with
      | init => simp [step] at hstep
      | hook call => exact ⟨call, rfl, (Prod.mk.inj (Option.some.inj hstep)).1.symm⟩
  | resolving rest =>
      cases rest with
      | nil | cons => exact (Prod.mk.inj (Option.some.inj hstep)).1.symm
  | real =>
      cases entry with
      | init => simp [step] at hstep
      | hook call =>
          simp only [step, Option.ite_none_right_eq_some, Option.map_eq_some_iff] at hstep
          obtain ⟨⟨hreal, houtside⟩, ⟨ptr, tracker⟩, hbody, hsame⟩ := hstep
          exact ⟨call, ptr, tracker, rfl, hreal, houtside, hbody,
            (Prod.mk.inj hsame).1.symm⟩
  | testingDlsym | loading | exchanging | waiting | entering | mapping | publishing =>
      exact (Prod.mk.inj (Option.some.inj hstep)).1.symm

theorem HookEntry.afterEnsureInit_eq_some {entry : HookEntry} {pc : InitPc} :
    entry.afterEnsureInit = some pc ↔ pc = .real ∧ ∃ call, entry = .hook call := by
  cases entry with
  | init => simp [afterEnsureInit]
  | hook call => simp [afterEnsureInit, eq_comm]

theorem HookShared.testReal_leadsTo {s : HookShared} {call : HookCall} {pc : InitPc}
    (htest : s.testReal call = some pc) :
    HookFrame.LeadsTo s ⟨.hook call, .testing⟩ pc := by
  cases hreal : s.real call.realName with
  | true =>
      simp only [testReal, hreal, if_true] at htest
      obtain rfl := Option.some.inj htest
      exact ⟨call, rfl, Or.inl ⟨rfl, hreal⟩⟩
  | false =>
      simp only [testReal, hreal, Bool.false_eq_true, if_false] at htest
      cases call with
      | malloc | calloc =>
          obtain rfl := Option.some.inj htest
          exact rfl
      | realloc | memalign | posixMemalign =>
          obtain rfl := Option.some.inj htest
          exact Or.inl rfl
      | free ptr =>
          by_cases hholds : s.buf.Holds ptr
          · simp [hholds] at htest
          · simp only [hholds, if_false] at htest
            obtain rfl := Option.some.inj htest
            exact Or.inl rfl

theorem HookFrame.step_leadsTo {env : InitEnv} {frame : HookFrame} {s s' : HookShared}
    {pc : InitPc} (hstep : frame.step env s = some (s', some pc)) :
    frame.LeadsTo s pc := by
  rcases frame with ⟨entry, before⟩
  cases before with
  | testing =>
      cases entry with
      | init => simp [step] at hstep
      | hook call =>
          exact HookShared.testReal_leadsTo (Prod.mk.inj (Option.some.inj hstep)).2
  | testingDlsym =>
      have hpc := (Prod.mk.inj (Option.some.inj hstep)).2
      cases hdlsym : s.inDlsym with
      | true =>
          rw [hdlsym] at hpc
          obtain rfl := Option.some.inj hpc
          exact ⟨rfl, hdlsym⟩
      | false =>
          rw [hdlsym] at hpc
          obtain rfl := Option.some.inj hpc
          exact Or.inr ⟨rfl, hdlsym⟩
  | bumping =>
      cases entry with
      | init => simp [step] at hstep
      | hook call => exact absurd (Prod.mk.inj (Option.some.inj hstep)).2 nofun
  | loading =>
      have hpc := (Prod.mk.inj (Option.some.inj hstep)).2
      cases hdone : s.hooksInitialized with
      | true =>
          rw [hdone, if_pos rfl, HookEntry.afterEnsureInit_eq_some] at hpc
          obtain ⟨rfl, call, hentry⟩ := hpc
          exact ⟨call, hentry, Or.inr (Or.inl ⟨Or.inl rfl, hdone⟩)⟩
      | false =>
          rw [hdone] at hpc
          obtain rfl := Option.some.inj hpc
          exact ⟨rfl, hdone⟩
  | exchanging =>
      have hpc := (Prod.mk.inj (Option.some.inj hstep)).2
      cases hbusy : s.hooksInitializing with
      | true =>
          rw [hbusy] at hpc
          obtain rfl := Option.some.inj hpc
          exact Or.inl ⟨rfl, hbusy⟩
      | false =>
          rw [hbusy] at hpc
          obtain rfl := Option.some.inj hpc
          exact ⟨rfl, hbusy⟩
  | waiting =>
      have hpc := (Prod.mk.inj (Option.some.inj hstep)).2
      cases hdone : s.hooksInitialized with
      | true =>
          rw [hdone, if_pos rfl, HookEntry.afterEnsureInit_eq_some] at hpc
          obtain ⟨rfl, call, hentry⟩ := hpc
          exact ⟨call, hentry, Or.inr (Or.inl ⟨Or.inr rfl, hdone⟩)⟩
      | false =>
          rw [hdone] at hpc
          obtain rfl := Option.some.inj hpc
          exact Or.inr ⟨rfl, hdone⟩
  | entering =>
      obtain rfl := Option.some.inj (Prod.mk.inj (Option.some.inj hstep)).2
      exact Or.inl ⟨rfl, rfl⟩
  | resolving rest =>
      cases rest with
      | nil =>
          obtain rfl := Option.some.inj (Prod.mk.inj (Option.some.inj hstep)).2
          exact rfl
      | cons name rest =>
          obtain rfl := Option.some.inj (Prod.mk.inj (Option.some.inj hstep)).2
          exact Or.inr ⟨name, rfl⟩
  | mapping =>
      obtain rfl := Option.some.inj (Prod.mk.inj (Option.some.inj hstep)).2
      exact rfl
  | publishing =>
      have hpc := (Prod.mk.inj (Option.some.inj hstep)).2
      obtain ⟨rfl, call, hentry⟩ := HookEntry.afterEnsureInit_eq_some.mp hpc
      exact ⟨call, hentry, Or.inr (Or.inr rfl)⟩
  | real =>
      cases entry with
      | init => simp [step] at hstep
      | hook call => simp [step] at hstep

/-- The tail of a hook is the hook as it is once initialised. -/
theorem HookCall.body_tracker (env : HookEnv) (tracker : Tracker) (call : HookCall) :
    (call.body env tracker).map Prod.snd = tracker.step ⟨call, env⟩ := by
  cases call with
  | malloc | calloc | realloc | memalign =>
      simp only [body, Tracker.step, Option.map_map]
      rfl
  | free ptr =>
      simp only [body, Tracker.step, Option.map_map]
      exact Option.map_id'
  | posixMemalign memptr alignment size =>
      simp only [body, Tracker.step, Option.map_map]
      congr 1
      funext result
      rcases result with ⟨thrown | ⟨_ | res, _ | ptr⟩, after⟩ <;> rfl

variable {Tid : Type} [DecidableEq Tid]

/-- One atomic step of one thread. -/
def HookWorld.step (w : HookWorld Tid) (label : InitStep Tid) : Option (HookWorld Tid) :=
  let setFrames := Function.update w.frames label.thread
  match label.move, w.frames label.thread with
  | .configure config, [] =>
      some { w with shared.tracker.config := config }
  | .enter entry, frames =>
      if canEnter frames then
        (w.shared.claim entry).map fun shared =>
          { shared := shared, frames := setFrames (⟨entry, entry.start⟩ :: frames) }
      else none
  | .advance env, frame :: below =>
      (frame.step env w.shared).map fun (shared, pc) =>
        { shared := shared, frames := setFrames (settle frame.entry below pc) }
  | _, _ => none

theorem mem_settle {frame : HookFrame} {entry : HookEntry} {below : List HookFrame}
    {onward : Option InitPc} :
    frame ∈ settle entry below onward ↔
      (∃ pc, onward = some pc ∧ frame = ⟨entry, pc⟩) ∨ frame ∈ below := by
  cases onward with
  | none => simp [settle]
  | some pc => simp [settle]

/-- The frames once a thread has entered a hook. -/
theorem mem_frames_enter {frames : Tid → List HookFrame} {t t' : Tid}
    {first frame : HookFrame}
    (hframe : frame ∈ Function.update frames t (first :: frames t) t') :
    frame = first ∨ frame ∈ frames t' := by
  by_cases ht : t' = t
  · subst t'
    rw [Function.update_self] at hframe
    exact List.mem_cons.mp hframe
  · rw [Function.update_of_ne ht] at hframe
    exact Or.inr hframe

/-- The frames once the innermost call of a thread has moved on. -/
theorem mem_frames_advance {frames : Tid → List HookFrame} {t t' : Tid}
    {first frame : HookFrame} {below : List HookFrame} {onward : Option InitPc}
    (hframes : frames t = first :: below)
    (hframe : frame ∈ Function.update frames t (settle first.entry below onward) t') :
    (∃ pc, onward = some pc ∧ frame = ⟨first.entry, pc⟩) ∨ frame ∈ frames t' := by
  by_cases ht : t' = t
  · subst t'
    rw [Function.update_self, mem_settle] at hframe
    rw [hframes, List.mem_cons]
    rcases hframe with hmoved | hbelow
    · exact Or.inl hmoved
    · exact Or.inr (Or.inr hbelow)
  · rw [Function.update_of_ne ht] at hframe
    exact Or.inr hframe

theorem HookShared.claim_cases {s s' : HookShared} {entry : HookEntry}
    (hclaim : s.claim entry = some s') :
    entry.released = none ∧ s' = s ∨
      ∃ ptr, entry.released = some ptr ∧ ptr ∈ s.owned ∧
        s' = { s with owned := s.owned.erase ptr } := by
  rw [claim] at hclaim
  cases hreleased : entry.released with
  | none =>
      simp only [hreleased, Option.some.injEq] at hclaim
      exact Or.inl ⟨rfl, hclaim.symm⟩
  | some ptr =>
      simp only [hreleased, Option.ite_none_right_eq_some, Option.some.injEq] at hclaim
      exact Or.inr ⟨ptr, rfl, hclaim.1, hclaim.2.symm⟩

/-- The three kinds of steps. -/
theorem HookWorld.step_cases {w next : HookWorld Tid} {label : InitStep Tid}
    (hstep : w.step label = some next) :
    (∃ config, label.move = .configure config ∧
        next = { w with shared.tracker.config := config }) ∨
      (∃ entry shared, label.move = .enter entry ∧
        canEnter (w.frames label.thread) = true ∧ w.shared.claim entry = some shared ∧
          next = ⟨shared, Function.update w.frames label.thread
            (⟨entry, entry.start⟩ :: w.frames label.thread)⟩) ∨
      ∃ env frame below shared onward, label.move = .advance env ∧
        w.frames label.thread = frame :: below ∧
          frame.step env w.shared = some (shared, onward) ∧
            next = ⟨shared, Function.update w.frames label.thread
              (settle frame.entry below onward)⟩ := by
  rcases label with ⟨t, move⟩
  cases move with
  | configure config =>
      refine Or.inl ⟨config, rfl, ?_⟩
      cases hframes : w.frames t with
      | cons frame below => simp [step, hframes] at hstep
      | nil =>
          simp only [step, hframes, Option.some.injEq] at hstep
          exact hstep.symm
  | enter entry =>
      simp only [step, Option.ite_none_right_eq_some, Option.map_eq_some_iff] at hstep
      obtain ⟨hcan, shared, hclaim, rfl⟩ := hstep
      exact Or.inr (Or.inl ⟨entry, shared, rfl, hcan, hclaim, rfl⟩)
  | advance env =>
      cases hframes : w.frames t with
      | nil => simp [step, hframes] at hstep
      | cons frame below =>
          simp only [step, hframes, Option.map_eq_some_iff] at hstep
          obtain ⟨⟨shared, onward⟩, hframe, rfl⟩ := hstep
          exact Or.inr (Or.inr ⟨env, frame, below, shared, onward, rfl, rfl, hframe, rfl⟩)

/-- One step of one thread, the refused map included.  The memory of the exception comes
from `real_malloc`, which has been looked up by then. -/
def HookWorld.onceStep (w : HookWorld Tid) : OnceMove Tid → Option (HookWorld Tid)
  | .move label => w.step label
  | .allocateThrows t =>
      match w.frames t with
      | ⟨_, .mapping⟩ :: below =>
          if w.shared.real .malloc = true then
            some { w with frames := Function.update w.frames t below }
          else none
      | _ => none

/-- The exception only takes away the call that stands before the map. -/
theorem HookWorld.throws_cases {w next : HookWorld Tid} {t : Tid}
    (hstep : w.onceStep (.allocateThrows t) = some next) :
    ∃ entry below, w.frames t = ⟨entry, .mapping⟩ :: below ∧
      next = ⟨w.shared, Function.update w.frames t below⟩ := by
  simp only [onceStep] at hstep
  split at hstep
  next entry below hframes =>
    simp only [Option.ite_none_right_eq_some, Option.some.injEq] at hstep
    exact ⟨entry, below, hframes, hstep.2.symm⟩
  next => cases hstep

/-- What is left of the calls once the innermost one of a thread is gone. -/
theorem mem_frames_pop {frames : Tid → List HookFrame} {t t' : Tid} {first frame : HookFrame}
    {below : List HookFrame} (hframes : frames t = first :: below)
    (hframe : frame ∈ Function.update frames t below t') : frame ∈ frames t' := by
  by_cases ht : t' = t
  · subst t'
    rw [Function.update_self] at hframe
    rw [hframes]
    exact List.mem_cons_of_mem _ hframe
  · rwa [Function.update_of_ne ht] at hframe

end Domovoy
