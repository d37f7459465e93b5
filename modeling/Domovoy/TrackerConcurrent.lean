/-
What the allocation map holds under any interleaving of the hooks: exact outside
the windows of the calls in progress without `realloc`, and with `realloc` exactly
as long as no address is recorded again before its old record is erased.
-/
import Domovoy.TrackerSteps

namespace Domovoy

open WordAlign Transition

theorem Tracker.Tracking.withHeap {tracker : Tracker} (htracking : tracker.Tracking)
    (heap : LibcHeap) : Tracker.Tracking { tracker with heap := heap } :=
  ⟨htracking.enabled, htracking.constructed⟩

theorem Tracker.add_tracking {tracker : Tracker} (htracking : tracker.Tracking)
    (ptr size : Word) : (tracker.add true ptr size).2.Tracking := by
  by_cases hptr : ptr = nullptr
  · rw [hptr, Tracker.add_null]
    exact htracking
  · obtain ⟨after, hadd, hafter, -⟩ := Tracker.add_room htracking size hptr
    rw [hadd]
    exact hafter

variable {Tid : Type}

/-- The block that the call's real function has returned and `AddAllocation` has
yet to record, with its size. -/
def HookPc.unrecorded : HookPc → Option (Word × Nat)
  | .adding ptr size => returned ptr size
  | .erasing _ newPtr size => returned newPtr size
  | _ => none

/-- The block at `address` lies between its real allocation and its record. -/
def TrackerState.Allocating (s : TrackerState Tid) (address : Word) : Prop :=
  ∃ t size, (s.pc t).unrecorded = some (address, size)

/-- The record of the block at `address` has been erased and `real_free` is
next. -/
def TrackerState.Releasing (s : TrackerState Tid) (address : Word) : Prop :=
  address ≠ nullptr ∧ ∃ t, s.pc t = .releasing address

/-- No hook call is in progress. -/
def TrackerState.Quiescent (s : TrackerState Tid) : Prop :=
  ∀ t, s.pc t = .idle

/-- The erasure that `t` is about to make in `realloc` takes out the record of an
allocated block, one that no call in progress has still to record. -/
def TrackerState.LosesRecord (s : TrackerState Tid) (t : Tid) : Prop :=
  ∃ ptr newPtr size, s.pc t = .erasing ptr newPtr size ∧ ptr ≠ nullptr ∧
    s.tracker.recorded ptr ≠ none ∧ s.tracker.heap.live ptr ≠ none ∧
      ¬ s.Allocating ptr

/-- No `realloc` is about to lose a record, and the map is exact whenever no call
is in progress. -/
structure TrackerState.KeepsRecords (s : TrackerState Tid) : Prop where
  erasure : ∀ t, ¬ s.LosesRecord t
  exact : s.Quiescent → s.tracker.Exact

theorem HookPc.pending_phase (pc : HookPc) : pc.phase.pending = pc.unrecorded := by
  cases pc with
  | idle => rfl
  | calling call => cases hreleased : call.released <;> simp [phase, hreleased] <;> rfl
  | adding ptr size => simp [phase, unrecorded]
  | erasing ptr newPtr size =>
      by_cases hptr : ptr = nullptr
      · simp [phase, unrecorded, hptr]
      · simp [phase, unrecorded, hptr, Registry.Phase.pending]
  | removing ptr => by_cases hptr : ptr = nullptr <;> simp [phase, hptr] <;> rfl
  | releasing ptr => by_cases hptr : ptr = nullptr <;> simp [phase, hptr] <;> rfl

theorem HookPc.phase_eq_unregistered {pc : HookPc} {ptr : Word} :
    pc.phase = .unregistered ptr ↔ ptr ≠ nullptr ∧ pc = .releasing ptr := by
  cases pc with
  | idle => simp [phase]
  | calling call => cases hreleased : call.released <;> simp [phase, hreleased]
  | adding ptr' size =>
      cases hreturned : returned ptr' size <;>
        simp [phase, hreturned, Registry.Phase.afterDrop]
  | erasing old newPtr size =>
      by_cases hold : old = nullptr <;> cases hreturned : returned newPtr size <;>
        simp [phase, hold, hreturned, Registry.Phase.afterDrop]
  | removing ptr' => by_cases hptr : ptr' = nullptr <;> simp [phase, hptr]
  | releasing ptr' =>
      by_cases hptr : ptr' = nullptr
      · simp only [phase, hptr, if_true, reduceCtorEq, HookPc.releasing.injEq, false_iff]
        rintro ⟨hne, rfl⟩
        exact hne rfl
      · simp only [phase, hptr, if_false, Registry.Phase.unregistered.injEq,
          HookPc.releasing.injEq]
        constructor
        · rintro rfl
          exact ⟨hptr, rfl⟩
        · exact And.right

/-- The registry's windows are those of the hooks. -/
theorem TrackerState.inWindow_iff (s : TrackerState Tid) (address : Word) :
    s.registry.InWindow address ↔ s.Allocating address ∨ s.Releasing address := by
  simp only [Registry.State.InWindow, TrackerState.registry, HookPc.pending_phase,
    HookPc.phase_eq_unregistered, exists_or, Allocating, Releasing, exists_and_left]

theorem TrackerState.initial_registry (config : DomovoyConfig) :
    (TrackerState.initial Tid config).registry = Registry.State.initial := by
  rw [TrackerState.registry, Registry.State.initial]
  congr

variable [DecidableEq Tid] {s s' : TrackerState Tid}

theorem TrackerState.step_tracking {label : HookStep Tid}
    (htracking : s.tracker.Tracking) (hstep : s.step label = some s') :
    s'.tracker.Tracking := by
  rcases label with ⟨t, move⟩
  simp only [TrackerState.step] at hstep
  split at hstep
  case h_1 call hpc =>
    split at hstep
    · obtain rfl := Option.some.inj hstep
      exact htracking
    · obtain ⟨-, hafter⟩ := Option.ite_none_right_eq_some.mp hstep
      obtain rfl := Option.some.inj hafter
      exact htracking
  case h_2 answer call hpc =>
    obtain ⟨⟨pc, heap⟩, -, rfl⟩ := Option.map_eq_some_iff.mp hstep
    exact htracking.withHeap heap
  case h_3 answer ptr hpc =>
    obtain ⟨heap, -, rfl⟩ := Option.map_eq_some_iff.mp hstep
    exact htracking.withHeap heap
  case h_4 ptr newPtr size hpc =>
    obtain rfl := Option.some.inj hstep
    change (if ptr = nullptr then s.tracker else s.tracker.remove ptr).Tracking
    split
    · exact htracking
    · exact Tracker.remove_tracking htracking ptr
  case h_5 ptr hpc =>
    obtain rfl := Option.some.inj hstep
    exact Tracker.remove_tracking htracking ptr
  case h_6 ptr size hpc =>
    obtain rfl := Option.some.inj hstep
    exact Tracker.add_tracking htracking ptr size
  case h_7 => simp at hstep

/-- After a run of guarded steps the registry's invariant holds. -/
theorem TrackerState.inv_of_run {config : DomovoyConfig}
    (hconfig : config.enableLeakDetection = true) {labels : List (HookStep Tid)}
    {final : TrackerState Tid}
    (hguarded : Along TrackerState.step TrackerState.Guarded
      (TrackerState.initial Tid config) labels)
    (hrun : run TrackerState.step (TrackerState.initial Tid config) labels = some final) :
    Registry.Inv final.registry := by
  have hreaches := run_simulates (fun s : TrackerState Tid => s.tracker.Tracking)
    (fun _ _ _ htracking _ hstep => step_tracking htracking hstep)
    (fun _ _ _ htracking hguarded hstep => step_simulates htracking hguarded hstep)
    ⟨hconfig, rfl⟩ hguarded hrun
  rw [initial_registry] at hreaches
  exact Registry.inv_initial.reaches hreaches

omit [DecidableEq Tid] in
theorem TrackerState.keepsRecords_of_inv (hinv : Registry.Inv s.registry) :
    s.KeepsRecords where
  erasure := by
    rintro t ⟨ptr, newPtr, size, hpc, hptr, -, hlive, hnot⟩
    have hleft : (s.registry.phase t).leftover = some ptr := by
      simp [TrackerState.registry, hpc, HookPc.phase, hptr, Registry.Phase.leftover]
    obtain ⟨t', bytes, hpending⟩ := hinv.pending_of_leftover hleft hlive
    exact hnot ⟨t', bytes, (HookPc.pending_phase _).symm.trans hpending⟩
  exact := by
    intro hidle
    apply hinv.table_eq_live
    intro t
    rw [TrackerState.registry_phase, hidle t, HookPc.phase]

/-- Recording an address whose old record some `realloc` has still to erase makes
that erasure lose the new record. -/
theorem TrackerState.not_keepsRecords_of_add {t t' : Tid} {ptr size newPtr newSize : Word}
    (htracking : s.tracker.Tracking) (hinv : Registry.Inv s.registry)
    (hadding : s.pc t = .adding ptr size) (hptr : ptr ≠ nullptr)
    (herasing : s.pc t' = .erasing ptr newPtr newSize)
    (hstep : s.step ⟨t, .map⟩ = some s') : ¬ s'.KeepsRecords := by
  simp only [TrackerState.step, hadding, Option.some.injEq] at hstep
  subst hstep
  obtain ⟨after, hadd, -, hheap, -, hrecorded⟩ := Tracker.add_room htracking size hptr
  have hunrecorded : (s.registry.phase t).pending = some (ptr, size.toNat) := by
    rw [TrackerState.registry_phase, HookPc.pending_phase, hadding, HookPc.unrecorded,
      returned_of_ne size hptr]
  have hlive : s.tracker.heap.live ptr = some size.toNat :=
    hinv.pending_live t ptr size.toNat hunrecorded
  have hne : t' ≠ t := by
    rintro rfl
    rw [hadding] at herasing
    cases herasing
  intro hkeeps
  apply hkeeps.erasure t'
  refine ⟨ptr, newPtr, newSize, ?_, hptr, ?_, ?_, ?_⟩
  · simp [hne, herasing]
  · simp [hadd, hrecorded]
  · simp [hadd, hheap, hlive]
  · -- Any other thread that had the block in hand would hold it together with `t`.
    rintro ⟨t'', bytes, hpending⟩
    by_cases ht'' : t'' = t
    · subst t''
      simp [HookPc.unrecorded] at hpending
    · simp only [Function.update_of_ne ht''] at hpending
      have hheld : (s.registry.phase t'').pending = some (ptr, bytes) :=
        (HookPc.pending_phase _).trans hpending
      exact ht'' (hinv.unique ptr t'' t (Registry.Phase.holding_of_pending hheld)
        (Registry.Phase.holding_of_pending hunrecorded))

theorem TrackerState.step_keepsRecords_iff {label : HookStep Tid}
    (htracking : s.tracker.Tracking) (hinv : Registry.Inv s.registry)
    (hsucceeds : s.ReallocSucceeds label) (hstep : s.step label = some s') :
    s'.KeepsRecords ↔ s.AddsUnretired label := by
  constructor
  · intro hkeeps ptr size hmove hadding hptr t newPtr newSize herasing
    rcases label with ⟨thread, move⟩
    obtain rfl : move = .map := hmove
    exact not_keepsRecords_of_add htracking hinv hadding hptr herasing hstep hkeeps
  · intro hadds
    exact keepsRecords_of_inv
      (hinv.reaches (step_simulates htracking ⟨hsucceeds, hadds⟩ hstep))

/-- Any number of threads calling the hooks in any order, every `realloc`
succeeding: the erasures of `realloc` never lose a record exactly in the runs in
which no address is recorded while an erasure of it by another thread is
outstanding. -/
theorem realloc_keepsRecords_iff (config : DomovoyConfig)
    (hconfig : config.enableLeakDetection = true) (labels : List (HookStep Tid))
    (final : TrackerState Tid)
    (hsucceeds : Along TrackerState.step TrackerState.ReallocSucceeds
      (TrackerState.initial Tid config) labels)
    (hrun : run TrackerState.step (TrackerState.initial Tid config) labels = some final) :
    Throughout TrackerState.step TrackerState.KeepsRecords
        (TrackerState.initial Tid config) labels ↔
      Along TrackerState.step TrackerState.AddsUnretired
        (TrackerState.initial Tid config) labels := by
  have hinv : Registry.Inv (TrackerState.initial Tid config).registry := by
    rw [TrackerState.initial_registry]
    exact Registry.inv_initial
  apply throughout_iff_along
    (fun s : TrackerState Tid => s.tracker.Tracking ∧ Registry.Inv s.registry)
    _ _ ⟨⟨hconfig, rfl⟩, hinv⟩ (TrackerState.keepsRecords_of_inv hinv) hsucceeds hrun
  · rintro state label next ⟨htracking, hinv⟩ hsucceeds hadds hstep
    exact ⟨TrackerState.step_tracking htracking hstep,
      hinv.reaches (TrackerState.step_simulates htracking ⟨hsucceeds, hadds⟩ hstep)⟩
  · rintro state label next ⟨htracking, hinv⟩ hsucceeds hstep
    exact TrackerState.step_keepsRecords_iff htracking hinv hsucceeds hstep

/-- The thread is not inside `realloc`. -/
def HookPc.OutsideRealloc : HookPc → Prop
  | .calling (.realloc _ _) => False
  | .erasing _ _ _ => False
  | _ => True

def TrackerState.OutsideRealloc (s : TrackerState Tid) : Prop :=
  ∀ t, (s.pc t).OutsideRealloc

def HookMove.NoRealloc : HookMove → Prop
  | .call (.realloc _ _) => False
  | _ => True

theorem callReal_outsideRealloc {answer : RealAnswer} {call : HookCall}
    {heap heap' : LibcHeap} {pc : HookPc} (hpc : (HookPc.calling call).OutsideRealloc)
    (hreal : callReal answer call heap = some (pc, heap')) : pc.OutsideRealloc := by
  cases call with
  | malloc | calloc | memalign =>
      obtain ⟨⟨ptr, after⟩, -, hnext⟩ := Option.map_eq_some_iff.mp hreal
      obtain ⟨rfl, rfl⟩ := Prod.mk.inj hnext
      trivial
  | free => cases hreal
  | realloc => exact hpc.elim
  | posixMemalign memptr alignment size =>
      obtain ⟨⟨res, stored, after⟩, -, hnext⟩ := Option.map_eq_some_iff.mp hreal
      cases stored with
      | none =>
          obtain ⟨rfl, rfl⟩ := Prod.mk.inj hnext
          trivial
      | some ptr =>
          dsimp only at hnext
          split at hnext <;> obtain ⟨rfl, rfl⟩ := Prod.mk.inj hnext <;> trivial

theorem TrackerState.step_outsideRealloc {label : HookStep Tid}
    (houtside : s.OutsideRealloc) (hmove : label.move.NoRealloc)
    (hstep : s.step label = some s') : s'.OutsideRealloc := by
  rcases label with ⟨t, move⟩
  have hmoved : ∀ {pc : HookPc}, pc.OutsideRealloc →
      ∀ t', (Function.update s.pc t pc t').OutsideRealloc := by
    intro pc hpc t'
    by_cases ht : t' = t
    · subst t'
      simpa using hpc
    · simpa [ht] using houtside t'
  have hhere := houtside t
  simp only [TrackerState.step] at hstep
  split at hstep
  case h_1 call hpc =>
    have hentered : (enterHook call).OutsideRealloc := by
      cases call with
      | realloc => exact hmove.elim
      | malloc | free | calloc | memalign | posixMemalign => trivial
    split at hstep
    · obtain rfl := Option.some.inj hstep
      exact hmoved hentered
    · obtain ⟨-, hafter⟩ := Option.ite_none_right_eq_some.mp hstep
      obtain rfl := Option.some.inj hafter
      exact hmoved hentered
  case h_2 answer call hpc =>
    obtain ⟨⟨pc, heap⟩, hreal, rfl⟩ := Option.map_eq_some_iff.mp hstep
    rw [hpc] at hhere
    exact hmoved (callReal_outsideRealloc hhere hreal)
  case h_3 answer ptr hpc =>
    obtain ⟨heap, -, rfl⟩ := Option.map_eq_some_iff.mp hstep
    exact hmoved trivial
  case h_4 ptr newPtr size hpc =>
    rw [hpc] at hhere
    exact hhere.elim
  case h_5 ptr hpc =>
    obtain rfl := Option.some.inj hstep
    exact hmoved trivial
  case h_6 ptr size hpc =>
    obtain rfl := Option.some.inj hstep
    exact hmoved trivial
  case h_7 => simp at hstep

omit [DecidableEq Tid] in
theorem TrackerState.guarded_of_outsideRealloc
    (houtside : s.OutsideRealloc) (label : HookStep Tid) : s.Guarded label := by
  constructor
  · intro ptr size _ hpc
    have hhere := houtside label.thread
    rw [hpc] at hhere
    exact hhere.elim
  · intro ptr size _ _ _ t newPtr newSize hpc
    have hhere := houtside t
    rw [hpc] at hhere
    exact hhere

/-- Any number of threads calling any of the hooks but `realloc`, in any order: an
address is recorded exactly when it is allocated and outside the windows of the
calls in progress, and its record is the size last requested for it. -/
theorem hooks_exact_concurrent (config : DomovoyConfig)
    (hconfig : config.enableLeakDetection = true) (labels : List (HookStep Tid))
    (hnoRealloc : ∀ label ∈ labels, label.move.NoRealloc) (final : TrackerState Tid)
    (hrun : run TrackerState.step (TrackerState.initial Tid config) labels = some final)
    (address : Word) :
    (final.tracker.recorded address ≠ none ↔
      final.tracker.heap.live address ≠ none ∧
        ¬ final.Allocating address ∧ ¬ final.Releasing address) ∧
    (final.tracker.recorded address ≠ none →
      final.tracker.recorded address = final.tracker.heap.live address) := by
  have halong : Along TrackerState.step (fun _ label => label.move.NoRealloc)
      (TrackerState.initial Tid config) labels := (along_iff_forall hrun).mpr hnoRealloc
  have hstart : (TrackerState.initial Tid config).OutsideRealloc := fun _ => trivial
  have hguarded : Along TrackerState.step TrackerState.Guarded
      (TrackerState.initial Tid config) labels :=
    halong.imp (fun _ _ _ => TrackerState.step_outsideRealloc)
      (fun _ label houtside _ => TrackerState.guarded_of_outsideRealloc houtside label)
      hstart
  have houtside : final.OutsideRealloc :=
    run_invariant_along (fun _ _ _ => TrackerState.step_outsideRealloc) hstart halong hrun
  have hinv := TrackerState.inv_of_run hconfig hguarded hrun
  have hnothing : ∀ t, (final.registry.phase t).leftover ≠ some address := by
    intro t hleft
    obtain ⟨-, newPtr, size, hpc⟩ := HookPc.erasing_of_leftover hleft
    have hhere := houtside t
    rw [hpc] at hhere
    exact hhere
  rw [← not_or, ← TrackerState.inWindow_iff]
  constructor
  · constructor
    · intro hrecorded
      obtain ⟨hlive, hwindow⟩ := hinv.live_of_table hrecorded hnothing
      refine ⟨fun hdead => hrecorded ?_, hwindow⟩
      exact hlive.symm.trans hdead
    · rintro ⟨hlive, hwindow⟩ hunrecorded
      exact hlive ((hinv.table_of_live hlive hwindow).symm.trans hunrecorded)
  · intro hrecorded
    exact (hinv.live_of_table hrecorded hnothing).1.symm

namespace ConcurrentWitness

def tracking : DomovoyConfig := { enableLeakDetection := true }

def start : TrackerState Bool := TrackerState.initial Bool tracking

def first (move : HookMove) : HookStep Bool :=
  ⟨false, move⟩

def second (move : HookMove) : HookStep Bool :=
  ⟨true, move⟩

/-- The first thread moves its block from `0x1000` to `0x2000` and erases the old
record before the second is given `0x1000`. -/
def erasedInTime : List (HookStep Bool) :=
  [first (.call (.malloc 16)), first (.real (.block 0x1000)), first .map,
    first (.call (.realloc 0x1000 64)), first (.real (.block 0x2000)), first .map,
    second (.call (.malloc 32)), second (.real (.block 0x1000)), second .map, first .map]

theorem erasedInTime_runs : (run TrackerState.step start erasedInTime).isSome := by
  decide

theorem no_refusal {labels : List (HookStep Bool)}
    (hlabels : ∀ label ∈ labels, label.move ≠ .real .refuse) :
    Along TrackerState.step TrackerState.ReallocSucceeds start labels := by
  apply along_of_forall
  intro label hlabel state ptr size hrefuse
  exact absurd hrefuse (hlabels label hlabel)

theorem erasedInTime_keepsRecords_iff :
    Throughout TrackerState.step TrackerState.KeepsRecords start erasedInTime ↔
      Along TrackerState.step TrackerState.AddsUnretired start erasedInTime :=
  realloc_keepsRecords_iff tracking rfl erasedInTime _ (no_refusal (by decide))
    (Option.some_get erasedInTime_runs).symm

/-- The same calls, but the second thread is given `0x1000` and records it while the
first has yet to erase the old record. -/
def erasedLate : List (HookStep Bool) :=
  [first (.call (.malloc 16)), first (.real (.block 0x1000)), first .map,
    first (.call (.realloc 0x1000 64)), first (.real (.block 0x2000)),
    second (.call (.malloc 32)), second (.real (.block 0x1000)), second .map,
    first .map, first .map]

theorem erasedLate_runs : (run TrackerState.step start erasedLate).isSome := by
  decide

/-- Every `realloc` succeeds and all calls have returned, yet the block of the second
thread is not recorded. -/
theorem erasedLate_loses :
    Along TrackerState.step TrackerState.ReallocSucceeds start erasedLate ∧
      ¬ Throughout TrackerState.step TrackerState.KeepsRecords start erasedLate := by
  refine ⟨no_refusal (by decide), ?_⟩
  intro hkeeps
  have hfinal := hkeeps erasedLate (List.prefix_refl _) _
    (Option.some_get erasedLate_runs).symm
  have hquiescent : ((run TrackerState.step start erasedLate).get
      erasedLate_runs).Quiescent := by
    intro t
    revert t
    decide
  exact absurd (congrFun (hfinal.exact hquiescent) 0x1000) (by decide)

/-- Two threads pass an address on to each other; the last call is in its window. -/
def handedOver : List (HookStep Bool) :=
  [first (.call (.calloc 4 4)), first (.real (.block 0x1000)), first .map,
    second (.call (.free 0x1000)), second .map, first (.call (.memalign 64 100)),
    second (.real .refuse), first (.real (.block 0x1000)), first .map,
    second (.call (.posixMemalign (some 0) 64 8)), second (.real (.block 0x2000))]

theorem handedOver_runs : (run TrackerState.step start handedOver).isSome := by
  decide

theorem handedOver_exact :
    let final := (run TrackerState.step start handedOver).get handedOver_runs
    (final.tracker.recorded 0x2000 ≠ none ↔
      final.tracker.heap.live 0x2000 ≠ none ∧
        ¬ final.Allocating 0x2000 ∧ ¬ final.Releasing 0x2000) ∧
    (final.tracker.recorded 0x2000 ≠ none →
      final.tracker.recorded 0x2000 = final.tracker.heap.live 0x2000) :=
  hooks_exact_concurrent tracking rfl handedOver
    (by simp [handedOver, first, second, HookMove.NoRealloc]) _
    (Option.some_get handedOver_runs).symm 0x2000

end ConcurrentWitness

end Domovoy
