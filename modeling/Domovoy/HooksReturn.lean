/-
Which calls come back from the one-time initialisation of the hooks, under any schedule
that is fair: all of them for the IO hooks, and for the allocation hooks all of them unless
one is there after an exception has left `InitHooks`.
-/
import Domovoy.IoOnce
import Domovoy.OneTimeFair

namespace Domovoy

open FairRuns Transition

variable {Tid : Type} [DecidableEq Tid]

section AllocHooks

/-- The place in the initialisation: the two steps before the loop, the loop, and the ten
steps of `InitHooks` and of the store behind it. -/
def InitPc.pos : InitPc → OneTime.Pos
  | .loading => .racing 1
  | .exchanging => .racing 0
  | .waiting => .waiting
  | .entering => .inside 9
  | .resolving rest => .inside (rest.length + 2)
  | .mapping => .inside 1
  | .publishing => .inside 0
  | .testing | .testingDlsym | .bumping | .real => .outside

def innermostPos : List HookFrame → OneTime.Pos
  | [] => .outside
  | frame :: _ => frame.pc.pos

omit [DecidableEq Tid] in
def HookWorld.progress (w : HookWorld Tid) : OneTime.State Tid where
  claimed := w.shared.hooksInitializing
  done := w.shared.hooksInitialized
  pos t := innermostPos (w.frames t)

omit [DecidableEq Tid] in
theorem HookWorld.progress_pos {w : HookWorld Tid} {t : Tid} {frames : List HookFrame}
    (hframes : w.frames t = frames) : w.progress.pos t = innermostPos frames :=
  congrArg innermostPos hframes

def OnceMove.act : OnceMove Tid → OneTime.Act Tid
  | .move ⟨t, .enter _⟩ => .move t
  | .move ⟨t, .advance _⟩ => .move t
  | .move ⟨_, .configure _⟩ => .elsewhere
  | .allocateThrows t => .abandon t

/-- The thread goes on with the call that it is in. -/
def OnceMove.GoesOn (t : Tid) (label : OnceMove Tid) : Prop :=
  (∃ env, label = .move ⟨t, .advance env⟩) ∨ label = .allocateThrows t

/-- No lookup makes a hooked call. -/
def HookWorld.Unnested (w : HookWorld Tid) (label : OnceMove Tid) : Prop :=
  ∀ t entry, label = .move ⟨t, .enter entry⟩ → w.frames t = []

/-- The thread is in `EnsureInit`, in the loop there or in `InitHooks`. -/
def HookWorld.InEnsureInit (w : HookWorld Tid) (t : Tid) : Prop :=
  w.progress.pos t ≠ .outside

theorem HookShared.pos_testReal (s : HookShared) (call : HookCall) :
    ((s.testReal call).map InitPc.pos).getD .outside = .outside ∨
      ((s.testReal call).map InitPc.pos).getD .outside = .racing 1 := by
  cases hreal : s.real call.realName with
  | true => exact Or.inl (by simp [testReal, hreal, InitPc.pos])
  | false =>
      cases call with
      | malloc | calloc => exact Or.inl (by simp [testReal, hreal, InitPc.pos])
      | realloc | memalign | posixMemalign =>
          exact Or.inr (by simp [testReal, hreal, InitPc.pos])
      | free ptr =>
          by_cases hholds : s.buf.Holds ptr
          · exact Or.inl (by simp [testReal, hreal, hholds])
          · exact Or.inr (by simp [testReal, hreal, hholds, InitPc.pos])

theorem HookEntry.pos_afterEnsureInit (entry : HookEntry) :
    (entry.afterEnsureInit.map InitPc.pos).getD .outside = .outside := by
  cases entry <;> rfl

/-- One step of a hook, as a step of the initialisation. -/
theorem HookFrame.step_moves {env : InitEnv} {frame : HookFrame} {s s' : HookShared}
    {onward : Option InitPc} (hstep : frame.step env s = some (s', onward)) :
    OneTime.Moves s.hooksInitializing s.hooksInitialized frame.pc.pos s'.hooksInitializing
      s'.hooksInitialized ((onward.map InitPc.pos).getD .outside) := by
  rcases frame with ⟨entry, pc⟩
  cases pc with
  | testing =>
      cases entry with
      | init => simp [step] at hstep
      | hook call =>
          obtain ⟨rfl, rfl⟩ := Prod.mk.inj (Option.some.inj hstep)
          rcases s.pos_testReal call with hpos | hpos
          · rw [hpos]
            exact .outside
          · rw [hpos]
            exact .comes 1
  | testingDlsym =>
      obtain ⟨rfl, rfl⟩ := Prod.mk.inj (Option.some.inj hstep)
      cases s.inDlsym with
      | true => exact .outside
      | false => exact .comes 1
  | bumping =>
      cases entry with
      | init => simp [step] at hstep
      | hook call =>
          obtain ⟨rfl, rfl⟩ := Prod.mk.inj (Option.some.inj hstep)
          cases call <;> exact .outside
  | loading =>
      obtain ⟨rfl, rfl⟩ := Prod.mk.inj (Option.some.inj hstep)
      cases hdone : s.hooksInitialized with
      | true =>
          rw [if_pos rfl, entry.pos_afterEnsureInit]
          exact .passes (by simp [InitPc.pos]) rfl
      | false => exact .nears 0
  | exchanging =>
      obtain ⟨rfl, rfl⟩ := Prod.mk.inj (Option.some.inj hstep)
      cases hclaimed : s.hooksInitializing with
      | true => exact .loses rfl
      | false => exact .claims 9 rfl
  | waiting =>
      obtain ⟨rfl, rfl⟩ := Prod.mk.inj (Option.some.inj hstep)
      cases hdone : s.hooksInitialized with
      | true =>
          rw [if_pos rfl, entry.pos_afterEnsureInit]
          exact .passes (by simp [InitPc.pos]) rfl
      | false => exact .waits rfl
  | entering =>
      obtain ⟨rfl, rfl⟩ := Prod.mk.inj (Option.some.inj hstep)
      exact .works 8
  | resolving rest =>
      cases rest with
      | nil =>
          obtain ⟨rfl, rfl⟩ := Prod.mk.inj (Option.some.inj hstep)
          exact .works 1
      | cons name rest =>
          obtain ⟨rfl, rfl⟩ := Prod.mk.inj (Option.some.inj hstep)
          exact .works (rest.length + 2)
  | mapping =>
      obtain ⟨rfl, rfl⟩ := Prod.mk.inj (Option.some.inj hstep)
      exact .works 0
  | publishing =>
      obtain ⟨rfl, rfl⟩ := Prod.mk.inj (Option.some.inj hstep)
      rw [entry.pos_afterEnsureInit]
      exact .finishes
  | real =>
      cases entry with
      | init => simp [step] at hstep
      | hook call =>
          have honward : onward = none := by
            simp only [step, Option.ite_none_right_eq_some, Option.map_eq_some_iff] at hstep
            obtain ⟨-, ⟨ptr, tracker⟩, -, hsame⟩ := hstep
            exact (Prod.mk.inj hsame).2.symm
          obtain ⟨-, ptr, tracker, -, -, -, -, rfl⟩ := HookFrame.step_changes hstep
          rw [honward]
          exact .outside

/-- A call that is in `EnsureInit` can go on. -/
theorem HookFrame.step_isSome {frame : HookFrame} (hpos : frame.pc.pos ≠ .outside)
    (env : InitEnv) (s : HookShared) : (frame.step env s).isSome := by
  rcases frame with ⟨entry, pc⟩
  cases pc with
  | testing | testingDlsym | bumping | real => exact absurd rfl hpos
  | loading | exchanging | waiting | entering | mapping | publishing => rfl
  | resolving rest => cases rest <;> rfl

theorem HookWorld.progress_update (w : HookWorld Tid) (shared : HookShared) (t : Tid)
    (frames : List HookFrame) :
    HookWorld.progress ⟨shared, Function.update w.frames t frames⟩ =
      ⟨shared.hooksInitializing, shared.hooksInitialized,
        Function.update w.progress.pos t (innermostPos frames)⟩ :=
  congrArg (OneTime.State.mk _ _) (Function.comp_update innermostPos w.frames t frames)

theorem innermostPos_settle (entry : HookEntry) (onward : Option InitPc) :
    innermostPos (settle entry [] onward) = (onward.map InitPc.pos).getD .outside := by
  cases onward <;> rfl

theorem HookShared.claim_flags {s s' : HookShared} {entry : HookEntry}
    (hclaim : s.claim entry = some s') :
    s'.hooksInitializing = s.hooksInitializing ∧ s'.hooksInitialized = s.hooksInitialized := by
  rcases HookShared.claim_cases hclaim with ⟨-, rfl⟩ | ⟨ptr, -, -, rfl⟩ <;> exact ⟨rfl, rfl⟩

omit [DecidableEq Tid] in
theorem HookWorld.below_eq_nil {w : HookWorld Tid} (hshallow : ∀ t, (w.frames t).length ≤ 1)
    {t : Tid} {frame : HookFrame} {below : List HookFrame}
    (hframes : w.frames t = frame :: below) : below = [] := by
  have hlength := hshallow t
  rw [hframes, List.length_cons] at hlength
  exact List.length_eq_zero_iff.mp (by omega)

/-- A step of a thread that holds one call at most. -/
theorem HookWorld.onceStep_progress {w next : HookWorld Tid} {label : OnceMove Tid}
    (hshallow : ∀ t, (w.frames t).length ≤ 1) (hunnested : w.Unnested label)
    (hstep : w.onceStep label = some next) :
    w.progress.Step label.act next.progress ∧ ∀ t, (next.frames t).length ≤ 1 := by
  cases label with
  | move label =>
      rcases label with ⟨t, move⟩
      rcases HookWorld.step_cases hstep with ⟨config, rfl, rfl⟩ |
        ⟨entry, shared, rfl, -, hclaim, rfl⟩ |
        ⟨env, frame, below, shared, onward, rfl, hframes, hframe, rfl⟩
      · exact ⟨rfl, hshallow⟩
      · have hframes : w.frames t = [] := hunnested t entry rfl
        obtain ⟨hclaimed, hdone⟩ := HookShared.claim_flags hclaim
        have hpos : w.progress.pos t = .outside := progress_pos hframes
        simp only [hframes]
        refine ⟨⟨_, _, entry.start.pos, ?_, progress_update w shared t _⟩,
          shallow_update hshallow (Nat.le_refl 1)⟩
        rw [hpos, hclaimed, hdone]
        cases entry with
        | hook call => exact .outside
        | init => exact .comes 1
      · obtain rfl := below_eq_nil hshallow hframes
        have hpos : w.progress.pos t = frame.pc.pos := progress_pos hframes
        refine ⟨⟨_, _, _, ?_, progress_update w shared t _⟩, shallow_update hshallow ?_⟩
        · rw [hpos, innermostPos_settle]
          exact HookFrame.step_moves hframe
        · cases onward <;> simp [settle]
  | allocateThrows t =>
      obtain ⟨entry, below, hframes, rfl⟩ := throws_cases hstep
      obtain rfl := below_eq_nil hshallow hframes
      exact ⟨⟨1, progress_pos hframes, progress_update w w.shared t []⟩,
        shallow_update hshallow (Nat.zero_le 1)⟩

omit [DecidableEq Tid] in
theorem OnceMove.GoesOn.thread {t : Tid} {label : OnceMove Tid} (hgoes : label.GoesOn t) :
    label.act.thread = some t := by
  rcases hgoes with ⟨env, rfl⟩ | rfl <;> rfl

/-- Some call can go on whenever one is in `EnsureInit`. -/
theorem HookWorld.goesOn_enabled {w : HookWorld Tid} {t : Tid} (hin : w.InEnsureInit t) :
    ∃ label next, OnceMove.GoesOn t label ∧ w.Unnested label ∧
      w.onceStep label = some next := by
  let env : InitEnv := { found := true, hook := { answer := .refuse, room := true } }
  cases hframes : w.frames t with
  | nil => exact absurd (progress_pos hframes) hin
  | cons frame below =>
      have hpos : frame.pc.pos ≠ .outside := by
        intro hpos
        exact hin ((progress_pos hframes).trans hpos)
      obtain ⟨⟨shared, onward⟩, hframe⟩ :=
        Option.isSome_iff_exists.mp (HookFrame.step_isSome hpos env w.shared)
      refine ⟨.move ⟨t, .advance env⟩,
        ⟨shared, Function.update w.frames t (settle frame.entry below onward)⟩,
        Or.inl ⟨env, rfl⟩, ?_, ?_⟩
      · rintro t' entry ⟨⟩
      · simp only [onceStep, HookWorld.step, hframes, hframe, Option.map_some]

/-- A thread that is in no call has nothing to go on with. -/
theorem HookWorld.not_goesOn {w next : HookWorld Tid} {t : Tid} {label : OnceMove Tid}
    (hframes : w.frames t = []) (hgoes : label.GoesOn t) : w.onceStep label ≠ some next := by
  rcases hgoes with ⟨env, rfl⟩ | rfl
  · simp [onceStep, HookWorld.step, hframes]
  · simp [onceStep, hframes]

theorem HookWorld.implements {buf : BootstrapBuf} {trace : Trace (@HookWorld.onceStep Tid _)}
    (hinitial : trace.state 0 = HookWorld.initial Tid buf)
    (hunnested : trace.Under HookWorld.Unnested)
    (hfair : ∀ t, trace.Fair HookWorld.Unnested (OnceMove.GoesOn t)) :
    OneTime.Implements trace HookWorld.Unnested HookWorld.progress OnceMove.act
      OnceMove.GoesOn where
  unclaimed := by
    rw [hinitial]
    rfl
  undone := by
    rw [hinitial]
    rfl
  outside := by
    intro t
    rw [hinitial]
    rfl
  steps := by
    intro n label hevent
    have hshallow : ∀ t, ((trace.state n).frames t).length ≤ 1 := by
      refine trace.invariant (fun w => ∀ t, (w.frames t).length ≤ 1) hunnested
        (fun _ _ _ hshallow hunnested hstep =>
          (onceStep_progress hshallow hunnested hstep).2) ?_ n
      rw [hinitial]
      exact fun _ => Nat.zero_le 1
    exact (onceStep_progress hshallow (hunnested n label hevent)
      (trace.steps n label hevent)).1
  thread := fun _ _ => OnceMove.GoesOn.thread
  enabled := fun _ _ => goesOn_enabled
  fair := hfair

end AllocHooks

/-- Any number of threads under any schedule that is fair to each call in progress: every
call of an allocation hook comes back from `EnsureInit`, if and only if after an exception
has left `InitHooks` no call is in `EnsureInit`; a call that is there after it never comes
back. -/
theorem ensureInit_returns_iff (buf : BootstrapBuf)
    (trace : Trace (@HookWorld.onceStep Tid _))
    (hinitial : trace.state 0 = HookWorld.initial Tid buf)
    (hunnested : trace.Under HookWorld.Unnested)
    (hfair : ∀ t, trace.Fair HookWorld.Unnested (OnceMove.GoesOn t)) :
    ((∀ t, trace.LeadsTo (fun w => w.InEnsureInit t) fun w => ¬ w.InEnsureInit t) ↔
      ∀ n t, trace.event n = some (.allocateThrows t) →
        ∀ m t', n < m → ¬ (trace.state m).InEnsureInit t') ∧
    ∀ n t, trace.event n = some (.allocateThrows t) →
      ∀ m t', n < m → (trace.state m).InEnsureInit t' →
        ∀ m', m ≤ m' → (trace.state m').InEnsureInit t' := by
  have himpl := HookWorld.implements hinitial hunnested hfair
  refine ⟨?_, fun n t hevent m t' hlt hin m' hle => himpl.stranded hevent rfl hlt hin hle⟩
  have hall := himpl.all_return_iff
  simp only [HookWorld.InEnsureInit, not_not]
  refine hall.trans ⟨fun hnobody n t hevent => hnobody n _ t hevent rfl, ?_⟩
  rintro hnobody n label u hevent habandon
  cases label with
  | allocateThrows t => exact hnobody n t hevent
  | move label =>
      rcases label with ⟨t, move⟩
      cases move <;> cases habandon

section IoHooks

/-- The place in the initialisation: the two steps before the loop, the loop, and the eight
steps of `InitIoHooks` and of the store behind it. -/
def IoInitPc.pos : IoInitPc → OneTime.Pos
  | .loading => .racing 1
  | .exchanging => .racing 0
  | .waiting => .waiting
  | .entering => .inside 7
  | .resolving rest => .inside rest.length
  | .erasing | .calling | .recording _ => .outside

def IoInitFrame.pos (frame : Option IoInitFrame) : OneTime.Pos :=
  (frame.map fun frame => frame.pc.pos).getD .outside

omit [DecidableEq Tid] in
def IoInitWorld.progress (w : IoInitWorld Tid) : OneTime.State Tid where
  claimed := w.shared.ioHooksInitializing
  done := w.shared.ioHooksInitialized
  pos t := IoInitFrame.pos (w.frame t)

omit [DecidableEq Tid] in
theorem IoInitWorld.progress_pos {w : IoInitWorld Tid} {t : Tid} {frame : Option IoInitFrame}
    (hframe : w.frame t = frame) : w.progress.pos t = IoInitFrame.pos frame :=
  congrArg IoInitFrame.pos hframe

def IoInitStep.act (label : IoInitStep Tid) : OneTime.Act Tid :=
  match label.move with
  | .enter _ => .move label.thread
  | .advance _ => .move label.thread
  | .configure _ => .elsewhere

/-- The thread goes on with the call that it is in. -/
def IoInitStep.GoesOn (t : Tid) (label : IoInitStep Tid) : Prop :=
  ∃ env, label = ⟨t, .advance env⟩

omit [DecidableEq Tid] in
theorem IoInitStep.act_ne (label : IoInitStep Tid) (t : Tid) : label.act ≠ .abandon t := by
  rcases label with ⟨u, move⟩
  cases move <;> exact nofun

theorem IoEntry.pos_afterEnsureIoInit (entry : IoEntry) :
    (entry.afterEnsureIoInit.map IoInitPc.pos).getD .outside = .outside := by
  cases entry <;> rfl

/-- What a hook does after its real function is outside. -/
theorem IoInitFrame.calling_outside {env : IoInitEnv} {entry : IoEntry} {s s' : IoInitShared}
    {onward : Option IoInitPc}
    (hstep : IoInitFrame.step env ⟨entry, .calling⟩ s = some (s', onward)) :
    s' = s ∧ (onward.map IoInitPc.pos).getD .outside = .outside := by
  simp only [step] at hstep
  split at hstep
  next =>
    obtain ⟨rfl, rfl⟩ := Prod.mk.inj (Option.some.inj hstep)
    exact ⟨rfl, rfl⟩
  next name hname =>
    obtain ⟨-, hafter⟩ := Option.ite_none_right_eq_some.mp hstep
    obtain ⟨rfl, rfl⟩ := Prod.mk.inj (Option.some.inj hafter)
    refine ⟨rfl, ?_⟩
    cases entry with
    | close fd => rfl
    | init => rfl
    | call call =>
        rw [IoEntry.afterReal]
        split <;> rfl

/-- One step of a hook, as a step of the initialisation. -/
theorem IoInitFrame.step_progress {env : IoInitEnv} {frame : IoInitFrame}
    {s s' : IoInitShared} {onward : Option IoInitPc}
    (hstep : frame.step env s = some (s', onward)) :
    OneTime.Moves s.ioHooksInitializing s.ioHooksInitialized frame.pc.pos
      s'.ioHooksInitializing s'.ioHooksInitialized
      ((onward.map IoInitPc.pos).getD .outside) := by
  rcases frame with ⟨entry, pc⟩
  cases pc with
  | loading =>
      obtain ⟨rfl, rfl⟩ := Prod.mk.inj (Option.some.inj hstep)
      cases hdone : s.ioHooksInitialized with
      | true =>
          rw [if_pos rfl, entry.pos_afterEnsureIoInit]
          exact .passes (by simp [IoInitPc.pos]) rfl
      | false => exact .nears 0
  | exchanging =>
      obtain ⟨rfl, rfl⟩ := Prod.mk.inj (Option.some.inj hstep)
      cases hclaimed : s.ioHooksInitializing with
      | true => exact .loses rfl
      | false => exact .claims 7 rfl
  | waiting =>
      obtain ⟨rfl, rfl⟩ := Prod.mk.inj (Option.some.inj hstep)
      cases hdone : s.ioHooksInitialized with
      | true =>
          rw [if_pos rfl, entry.pos_afterEnsureIoInit]
          exact .passes (by simp [IoInitPc.pos]) rfl
      | false => exact .waits rfl
  | entering =>
      obtain ⟨rfl, rfl⟩ := Prod.mk.inj (Option.some.inj hstep)
      exact .works 6
  | resolving rest =>
      cases rest with
      | nil =>
          obtain ⟨rfl, rfl⟩ := Prod.mk.inj (Option.some.inj hstep)
          rw [entry.pos_afterEnsureIoInit]
          exact .finishes
      | cons name rest =>
          obtain ⟨rfl, rfl⟩ := Prod.mk.inj (Option.some.inj hstep)
          exact .works rest.length
  | erasing =>
      cases entry with
      | call call => simp [step] at hstep
      | init => simp [step] at hstep
      | close fd =>
          obtain ⟨rfl, rfl⟩ := Prod.mk.inj (Option.some.inj hstep)
          exact .outside
  | calling =>
      obtain ⟨rfl, houtside⟩ := calling_outside hstep
      rw [houtside]
      exact .outside
  | recording fd =>
      cases entry with
      | close fd => simp [step] at hstep
      | init => simp [step] at hstep
      | call call =>
          obtain ⟨rfl, rfl⟩ := Prod.mk.inj (Option.some.inj hstep)
          exact .outside

/-- A hook call that is in `EnsureIoInit` can go on. -/
theorem IoInitFrame.step_isSome {frame : IoInitFrame} (hpos : frame.pc.pos ≠ .outside)
    (env : IoInitEnv) (s : IoInitShared) : (frame.step env s).isSome := by
  rcases frame with ⟨entry, pc⟩
  cases pc with
  | loading | exchanging | waiting | entering => rfl
  | resolving rest => cases rest <;> rfl
  | erasing | calling | recording fd => exact absurd rfl hpos

theorem IoInitWorld.progress_update (w : IoInitWorld Tid) (shared : IoInitShared) (t : Tid)
    (frame : Option IoInitFrame) :
    IoInitWorld.progress ⟨shared, Function.update w.frame t frame⟩ =
      ⟨shared.ioHooksInitializing, shared.ioHooksInitialized,
        Function.update w.progress.pos t (IoInitFrame.pos frame)⟩ :=
  congrArg (OneTime.State.mk _ _) (Function.comp_update IoInitFrame.pos w.frame t frame)

/-- What a step does to the initialisation, and to the calls. -/
theorem IoInitWorld.step_progress {w next : IoInitWorld Tid} {label : IoInitStep Tid}
    (hstep : w.step label = some next) : w.progress.Step label.act next.progress := by
  rcases label with ⟨t, move⟩
  cases move with
  | configure enabled =>
      cases hframe : w.frame t with
      | some frame => simp [step, hframe] at hstep
      | none =>
          simp only [step, hframe, Option.some.injEq] at hstep
          subst hstep
          rfl
  | enter entry =>
      cases hframe : w.frame t with
      | some frame => simp [step, hframe] at hstep
      | none =>
          simp only [step, hframe, Option.some.injEq] at hstep
          subst hstep
          have hpos : w.progress.pos t = .outside := progress_pos hframe
          refine ⟨_, _, _, ?_, progress_update w w.shared t _⟩
          rw [hpos]
          exact .comes 1
  | advance env =>
      cases hframe : w.frame t with
      | none => simp [step, hframe] at hstep
      | some frame =>
          simp only [step, hframe, Option.map_eq_some_iff] at hstep
          obtain ⟨⟨shared, onward⟩, hadvance, rfl⟩ := hstep
          have hpos : w.progress.pos t = frame.pc.pos := progress_pos hframe
          have honward : IoInitFrame.pos (onward.map fun pc => ⟨frame.entry, pc⟩) =
              (onward.map IoInitPc.pos).getD .outside := by
            cases onward <;> rfl
          refine ⟨_, _, _, ?_, progress_update w shared t _⟩
          rw [hpos, honward]
          exact IoInitFrame.step_progress hadvance

/-- The call of the thread has yet to come back from `EnsureIoInit`. -/
def IoInitWorld.InEnsureIoInit (w : IoInitWorld Tid) (t : Tid) : Prop :=
  w.progress.pos t ≠ .outside

/-- The step is of a call that has yet to come back. -/
def IoInitWorld.Initialising (w : IoInitWorld Tid) (label : IoInitStep Tid) : Prop :=
  w.InEnsureIoInit label.thread

theorem IoInitWorld.goesOn_enabled {w : IoInitWorld Tid} {t : Tid}
    (hin : w.InEnsureIoInit t) : ∃ label next, IoInitStep.GoesOn t label ∧
      w.Initialising label ∧ w.step label = some next := by
  cases hframe : w.frame t with
  | none => exact absurd (progress_pos hframe) hin
  | some frame =>
      have hpos : frame.pc.pos ≠ .outside := by
        rw [InEnsureIoInit, progress_pos hframe] at hin
        exact hin
      let env : IoInitEnv := { found := true, returned := -1 }
      obtain ⟨⟨shared, onward⟩, hadvance⟩ :=
        Option.isSome_iff_exists.mp (IoInitFrame.step_isSome hpos env w.shared)
      refine ⟨⟨t, .advance env⟩,
        ⟨shared, Function.update w.frame t (onward.map fun pc => ⟨frame.entry, pc⟩)⟩,
        ⟨env, rfl⟩, hin, ?_⟩
      simp only [step, hframe, hadvance, Option.map_some]

/-- A thread that is in no call has nothing to go on with. -/
theorem IoInitWorld.not_goesOn {w next : IoInitWorld Tid} {t : Tid} {label : IoInitStep Tid}
    (hframe : w.frame t = none) (hgoes : label.GoesOn t) : w.step label ≠ some next := by
  obtain ⟨env, rfl⟩ := hgoes
  simp [step, hframe]

theorem IoInitWorld.implements {trace : Trace (@IoInitWorld.step Tid _)}
    (hinitial : trace.state 0 = IoInitWorld.initial Tid)
    (hfair : ∀ t, trace.Fair IoInitWorld.Initialising (IoInitStep.GoesOn t)) :
    OneTime.Implements trace IoInitWorld.Initialising IoInitWorld.progress IoInitStep.act
      IoInitStep.GoesOn where
  unclaimed := by
    rw [hinitial]
    rfl
  undone := by
    rw [hinitial]
    rfl
  outside := by
    intro t
    rw [hinitial]
    rfl
  steps := fun n label hevent => step_progress (trace.steps n label hevent)
  thread := by
    rintro t label ⟨env, rfl⟩
    rfl
  enabled := fun _ _ hin => goesOn_enabled hin
  fair := hfair

end IoHooks

/-- Any number of threads under any schedule that is fair to each call in `EnsureIoInit`:
every call of an IO hook comes back from there, whatever the lookups find. -/
theorem ensureIoInit_returns (trace : Trace (@IoInitWorld.step Tid _))
    (hinitial : trace.state 0 = IoInitWorld.initial Tid)
    (hfair : ∀ t, trace.Fair IoInitWorld.Initialising (IoInitStep.GoesOn t)) (t : Tid) :
    trace.LeadsTo (fun w => w.InEnsureIoInit t) fun w => ¬ w.InEnsureIoInit t := by
  have hreturns := (IoInitWorld.implements hinitial hfair).returns
    (fun _ label _ => label.act_ne) t
  simpa only [IoInitWorld.InEnsureIoInit, not_not] using hreturns

namespace HooksReturnWitness

open OnceWitness

/-- Two first calls at once: one loses the exchange, waits for the other, and both
return. -/
def awaited : List (OnceMove Bool) :=
  [hook true (.malloc 16), .move ⟨false, .enter .init⟩] ++ List.replicate 3 (hookStep true) ++
    List.replicate 2 (hookStep false) ++ List.replicate 4 (hookStep true) ++
      List.replicate 10 (hookStep false) ++ List.replicate 2 (hookStep true)

theorem awaited_runs :
    (run HookWorld.onceStep (HookWorld.initial Bool BootstrapWitness.loaded)
      awaited).isSome := by
  decide +kernel

def awaitedEnd : HookWorld Bool :=
  (run HookWorld.onceStep (HookWorld.initial Bool BootstrapWitness.loaded) awaited).get
    awaited_runs

def awaitedTrace : Trace (@HookWorld.onceStep Bool _) :=
  .ofRun (Option.some_get awaited_runs).symm

theorem awaited_over (t : Bool) : awaitedEnd.frames t = [] := by
  have hempty : ∀ t, (awaitedEnd.frames t).isEmpty = true := by
    decide +kernel
  exact List.isEmpty_iff.mp (hempty t)

theorem awaited_fair (t : Bool) : awaitedTrace.Fair HookWorld.Unnested (OnceMove.GoesOn t) :=
  Trace.ofRun_fair _ fun _ _ hgoes => HookWorld.not_goesOn (awaited_over t) hgoes

theorem awaited_unnested : awaitedTrace.Under HookWorld.Unnested := by
  apply Trace.ofRun_under
  have hlooks : Along HookWorld.onceStep HookWorld.LooksUp
      (HookWorld.initial Bool BootstrapWitness.loaded) awaited := by
    decide +kernel
  refine Along.imp (fun _ _ _ _ _ _ => trivial) (fun w label _ hlooks => ?_) trivial hlooks
  rintro t entry rfl
  exact hlooks

theorem awaited_return_iff :
    ((∀ t, awaitedTrace.LeadsTo (fun w => w.InEnsureInit t) fun w => ¬ w.InEnsureInit t) ↔
      ∀ n t, awaitedTrace.event n = some (.allocateThrows t) →
        ∀ m t', n < m → ¬ (awaitedTrace.state m).InEnsureInit t') ∧
    ∀ n t, awaitedTrace.event n = some (.allocateThrows t) →
      ∀ m t', n < m → (awaitedTrace.state m).InEnsureInit t' →
        ∀ m', m ≤ m' → (awaitedTrace.state m').InEnsureInit t' :=
  ensureInit_returns_iff BootstrapWitness.loaded awaitedTrace rfl awaited_unnested awaited_fair

theorem ioRace_runs :
    (run IoInitWorld.step (IoInitWorld.initial Bool) ioRace).isSome := by
  decide +kernel

def ioRaceTrace : Trace (@IoInitWorld.step Bool _) :=
  .ofRun (Option.some_get ioRace_runs).symm

theorem ioRace_over (t : Bool) :
    ((run IoInitWorld.step (IoInitWorld.initial Bool) ioRace).get ioRace_runs).frame t =
      none := by
  have hempty : ∀ t, (((run IoInitWorld.step (IoInitWorld.initial Bool) ioRace).get
      ioRace_runs).frame t).isNone = true := by
    decide +kernel
  exact Option.isNone_iff_eq_none.mp (hempty t)

theorem ioRace_return :
    ioRaceTrace.LeadsTo (fun w => w.InEnsureIoInit false) fun w => ¬ w.InEnsureIoInit false :=
  ensureIoInit_returns ioRaceTrace rfl
    (fun t => Trace.ofRun_fair _ fun _ _ hgoes => IoInitWorld.not_goesOn (ioRace_over t) hgoes)
    false

end HooksReturnWitness

end Domovoy
