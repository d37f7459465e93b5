/-
The allocation map against the allocator behind the hooks: which sequential runs
keep them in agreement after every call.
-/
import Domovoy.Registry
import Domovoy.AllocHooks

namespace Domovoy

open WordAlign Transition

/-- The sizes recorded in the map; nothing is recorded before it exists. -/
def recordedIn (gAllocations : Option AllocMap) (address : Word) : Option Nat :=
  (gAllocations.bind fun allocations => allocations.lookup address).map BitVec.toNat

def Tracker.recorded (tracker : Tracker) : Word → Option Nat :=
  recordedIn tracker.gAllocations

/-- Leak detection is on and the map has been constructed. -/
structure Tracker.Tracking (tracker : Tracker) : Prop where
  enabled : tracker.config.enableLeakDetection = true
  constructed : tracker.gAllocations.isSome

/-- The map holds exactly the allocated blocks, with the sizes last requested. -/
def Tracker.Exact (tracker : Tracker) : Prop :=
  tracker.recorded = tracker.heap.live

theorem recordedIn_insert (allocations : AllocMap) (ptr size : Word) :
    recordedIn (some (allocations.insert ptr size)) =
      Function.update (recordedIn (some allocations)) ptr (some size.toNat) := by
  have hlookup := Registry.lookup_insert_eq_update allocations ptr size
  exact (congrArg (Option.map BitVec.toNat ∘ ·) hlookup).trans
    (Function.comp_update _ _ ptr (some size))

theorem recordedIn_erase (allocations : AllocMap) (ptr : Word) :
    recordedIn (some (allocations.erase ptr)) =
      Function.update (recordedIn (some allocations)) ptr none := by
  have hlookup := Registry.lookup_erase_eq_update allocations ptr
  exact (congrArg (Option.map BitVec.toNat ∘ ·) hlookup).trans
    (Function.comp_update _ _ ptr none)

theorem mem_of_recordedIn {allocations : AllocMap} {ptr : Word}
    (hrecorded : recordedIn (some allocations) ptr = none) : ptr ∉ allocations := by
  intro hmem
  obtain ⟨size, hsize⟩ := Option.isSome_iff_exists.mp (AList.lookup_isSome.mpr hmem)
  simp [recordedIn, hsize] at hrecorded

/-- Recording a non-null block, when the pool has room for the entry. -/
theorem Tracker.add_room {tracker : Tracker} (htracking : tracker.Tracking)
    {ptr : Word} (size : Word) (hptr : ptr ≠ nullptr) :
    ∃ after, tracker.add true ptr size = (.ok (), after) ∧
      after.Tracking ∧ after.heap = tracker.heap ∧ after.config = tracker.config ∧
        after.recorded = Function.update tracker.recorded ptr (some size.toNat) := by
  obtain ⟨allocations, hmap⟩ := Option.isSome_iff_exists.mp htracking.constructed
  refine ⟨{ tracker with gAllocations := some (allocations.insert ptr size) },
    ?_, ⟨htracking.enabled, rfl⟩, rfl, rfl, ?_⟩
  · simp [Tracker.add, addAllocation, insertOrAssign, hptr, htracking.enabled, hmap,
      Except.map]
  · rw [Tracker.recorded, Tracker.recorded, hmap]
    exact recordedIn_insert allocations ptr size

theorem Tracker.add_null (tracker : Tracker) (room : Bool) (size : Word) :
    tracker.add room nullptr size = (.ok (), tracker) := by
  simp [Tracker.add, addAllocation]

theorem Tracker.finish_room {tracker : Tracker} (htracking : tracker.Tracking)
    {ptr : Word} (size : Word) (hptr : ptr ≠ nullptr) :
    ∃ after, tracker.finish true ptr size = (.ok ptr, after) ∧
      after.Tracking ∧ after.heap = tracker.heap ∧ after.config = tracker.config ∧
        after.recorded = Function.update tracker.recorded ptr (some size.toNat) := by
  obtain ⟨after, hadd, hafter⟩ := Tracker.add_room htracking size hptr
  exact ⟨after, by rw [Tracker.finish, hadd], hafter⟩

/-- Without room the record of a block that has none is not made. -/
theorem Tracker.finish_noRoom {tracker : Tracker} (htracking : tracker.Tracking)
    {ptr size : Word} (hptr : ptr ≠ nullptr) (hnew : tracker.recorded ptr = none) :
    tracker.finish false ptr size = (.error .badAlloc, tracker) := by
  obtain ⟨allocations, hmap⟩ := Option.isSome_iff_exists.mp htracking.constructed
  have hmem : ptr ∉ allocations := by
    rw [Tracker.recorded, hmap] at hnew
    exact mem_of_recordedIn hnew
  simp [Tracker.finish, Tracker.add, addAllocation, insertOrAssign, hptr,
    htracking.enabled, hmap, hmem, Except.map]

theorem Tracker.finish_snd (tracker : Tracker) (room : Bool) (ptr size : Word) :
    (tracker.finish room ptr size).2 = (tracker.add room ptr size).2 := by
  rw [Tracker.finish]
  rcases tracker.add room ptr size with ⟨result, after⟩
  cases result <;> rfl

theorem Tracker.finish_null (tracker : Tracker) (room : Bool) (size : Word) :
    tracker.finish room nullptr size = (.ok nullptr, tracker) := by
  rw [Tracker.finish, Tracker.add_null]

theorem Tracker.remove_null (tracker : Tracker) :
    tracker.remove nullptr = tracker := by
  simp [Tracker.remove, removeAllocation]

theorem Tracker.remove_tracking {tracker : Tracker} (htracking : tracker.Tracking)
    (ptr : Word) : (tracker.remove ptr).Tracking := by
  refine ⟨htracking.enabled, ?_⟩
  have hconstructed := htracking.constructed
  simp only [Tracker.remove, removeAllocation]
  split <;> simp [hconstructed]

theorem Tracker.remove_recorded {tracker : Tracker}
    (henabled : tracker.config.enableLeakDetection = true) {ptr : Word}
    (hptr : ptr ≠ nullptr) :
    (tracker.remove ptr).recorded = Function.update tracker.recorded ptr none := by
  simp only [Tracker.recorded, Tracker.remove, removeAllocation, hptr, henabled]
  cases tracker.gAllocations with
  | none => exact (Function.update_eq_self ptr _).symm
  | some allocations => exact recordedIn_erase allocations ptr

theorem Tracker.remove_disabled {tracker : Tracker}
    (hdisabled : tracker.config.enableLeakDetection = false) (ptr : Word) :
    tracker.remove ptr = tracker := by
  simp [Tracker.remove, removeAllocation, hdisabled]

/-- The call obtains a block from the allocator, so a record has to be made. -/
@[simp] def HookEvent.ObtainsBlock (event : HookEvent) : Prop :=
  match event.call with
  | .free _ => False
  | .calloc nmemb size => event.env.answer ≠ .refuse ∧ ProductFits nmemb.toNat size.toNat
  | .realloc ptr size =>
      event.env.answer ≠ .refuse ∧ (ptr = nullptr ∨ size.toNat ≠ 0)
  | _ => event.env.answer ≠ .refuse

/-- `realloc` of a block to a non-zero size that fails and leaves the block
allocated. -/
@[simp] def HookEvent.ReallocFails (event : HookEvent) : Prop :=
  match event.call with
  | .realloc ptr size =>
      ptr ≠ nullptr ∧ size.toNat ≠ 0 ∧ event.env.answer = .refuse
  | _ => False

/-- The condition on one call: a `realloc` does not fail, and a record that has
to be made finds room in the pool. -/
@[simp] def HookEvent.Recordable (event : HookEvent) : Prop :=
  ¬ event.ReallocFails ∧ (event.ObtainsBlock → event.env.room = true)

/-- Recording the one block in which map and allocator differ restores their
agreement exactly when there is room for it. -/
theorem Tracker.finish_block {tracker : Tracker} (htracking : tracker.Tracking)
    {ptr size : Word} (hptr : ptr ≠ nullptr) (hnew : tracker.recorded ptr = none)
    (hlive : tracker.heap.live =
      Function.update tracker.recorded ptr (some size.toNat)) (room : Bool) :
    (tracker.finish room ptr size).2.Tracking ∧
      ((tracker.finish room ptr size).2.Exact ↔ room = true) := by
  cases room with
  | true =>
      obtain ⟨after, hresult, hafter, hheap, _, hrecorded⟩ :=
        Tracker.finish_room htracking size hptr
      rw [hresult]
      refine ⟨hafter, iff_of_true ?_ rfl⟩
      rw [Tracker.Exact, hrecorded, hheap, hlive]
  | false =>
      rw [Tracker.finish_noRoom htracking hptr hnew]
      refine ⟨htracking, iff_of_false ?_ (by simp)⟩
      intro hexact
      have hat := congrFun (hexact.trans hlive) ptr
      rw [Function.update_self, hnew] at hat
      contradiction

/-- The hooks that only allocate. -/
theorem Tracker.allocating_exact_iff {tracker : Tracker}
    (htracking : tracker.Tracking) (hexact : tracker.Exact) {answer : RealAnswer}
    {ptr size : Word} {heap : LibcHeap}
    (hreal : realMalloc answer size.toNat tracker.heap = some (ptr, heap))
    (room : Bool) :
    ({ tracker with heap := heap }.finish room ptr size).2.Tracking ∧
      (({ tracker with heap := heap }.finish room ptr size).2.Exact ↔
        (answer ≠ .refuse → room = true)) := by
  rcases realMalloc_cases hreal with ⟨hrefuse, rfl, rfl⟩ | ⟨hanswer, hfresh, rfl⟩
  · rw [Tracker.finish_null]
    exact ⟨htracking, iff_of_true hexact fun hne => absurd hrefuse hne⟩
  · have hnew : tracker.recorded ptr = none := by
      rw [hexact]
      exact hfresh.2
    have hlive : (tracker.heap.place ptr size.toNat).live =
        Function.update tracker.recorded ptr (some size.toNat) := by
      rw [hexact]
      rfl
    have hplaced : Tracker.Tracking
        { tracker with heap := tracker.heap.place ptr size.toNat } :=
      ⟨htracking.enabled, htracking.constructed⟩
    have hfinish := Tracker.finish_block hplaced hfresh.1 hnew hlive room
    exact ⟨hfinish.1, hfinish.2.trans ⟨fun hroom _ => hroom, fun h => h hanswer⟩⟩

/-- `free` forgets the record and the block together. -/
theorem free_exact {tracker after : Tracker} (htracking : tracker.Tracking)
    (hexact : tracker.Exact) {ptr : Word} (hfree : free ptr tracker = some after) :
    after.Tracking ∧ after.Exact := by
  by_cases hptr : ptr = nullptr
  · subst ptr
    simp [free, realFree, Tracker.remove_null] at hfree
    rw [← hfree]
    exact ⟨htracking, hexact⟩
  · have hremoved := Tracker.remove_tracking htracking ptr
    simp only [free, realFree, hptr, if_false, bind, Option.bind] at hfree
    split at hfree
    · simp at hfree
    next heap hreal =>
      simp only [Option.ite_none_right_eq_some, Option.some.injEq] at hreal
      rw [← Option.some.inj hfree, ← hreal.2]
      refine ⟨⟨hremoved.enabled, hremoved.constructed⟩, ?_⟩
      change (tracker.remove ptr).recorded = Function.update tracker.heap.live ptr none
      rw [Tracker.remove_recorded htracking.enabled hptr, hexact]

/-- Dropping the record of `ptr` and recording the block that replaces it, which
may be `ptr` itself. -/
theorem Tracker.rerecord {tracker : Tracker} (htracking : tracker.Tracking)
    (hexact : tracker.Exact) {ptr address : Word} (size : Word)
    (heap : LibcHeap) (hptr : ptr ≠ nullptr) (haddress : address ≠ nullptr)
    (hunused : Function.update tracker.heap.live ptr none address = none)
    (hheap : heap.live = Function.update
      (Function.update tracker.heap.live ptr none) address (some size.toNat))
    (room : Bool) :
    (({ tracker with heap := heap }.remove ptr).finish room address size).2.Tracking ∧
      ((({ tracker with heap := heap }.remove ptr).finish room address size).2.Exact ↔
        room = true) := by
  have hplaced : Tracker.Tracking { tracker with heap := heap } :=
    ⟨htracking.enabled, htracking.constructed⟩
  have hremoved := Tracker.remove_tracking hplaced ptr
  have hrecorded : ({ tracker with heap := heap }.remove ptr).recorded =
      Function.update tracker.heap.live ptr none := by
    rw [Tracker.remove_recorded hplaced.enabled hptr]
    exact congrArg (fun recorded => Function.update recorded ptr none) hexact
  apply Tracker.finish_block hremoved haddress
  · rw [hrecorded, hunused]
  · rw [hrecorded]
    exact hheap

/-- `realloc` of a block: the record is dropped in every case, so it is right
exactly when the block was moved, resized in place or released. -/
theorem realloc_exact_iff {tracker after : Tracker} (htracking : tracker.Tracking)
    (hexact : tracker.Exact) {env : HookEnv} {ptr size : Word} (hptr : ptr ≠ nullptr)
    (hstep : (realloc env ptr size tracker).map Prod.snd = some after) :
    after.Tracking ∧ (after.Exact ↔ (size.toNat ≠ 0 → env.answer ≠ .refuse ∧
      env.room = true)) := by
  have hremoved := Tracker.remove_tracking htracking ptr
  have hrecorded : (tracker.remove ptr).recorded =
      Function.update tracker.heap.live ptr none := by
    rw [Tracker.remove_recorded htracking.enabled hptr, hexact]
  cases hlive : tracker.heap.live ptr with
  | none => simp [realloc, realRealloc, hptr, hlive] at hstep
  | some old =>
      by_cases hsize : size.toNat = 0
      · simp [realloc, realRealloc, hptr, hlive, hsize, Tracker.finish_null] at hstep
        rw [← hstep]
        refine ⟨⟨hremoved.enabled, hremoved.constructed⟩, iff_of_true hrecorded ?_⟩
        exact fun hne => absurd hsize hne
      · cases hanswer : env.answer with
        | refuse =>
            simp [realloc, realRealloc, hptr, hlive, hsize, hanswer,
              Tracker.finish_null] at hstep
            rw [← hstep]
            refine ⟨⟨hremoved.enabled, hremoved.constructed⟩, iff_of_false ?_ ?_⟩
            · intro hafter
              have hat := congrFun (hrecorded.symm.trans hafter) ptr
              change Function.update tracker.heap.live ptr none ptr =
                tracker.heap.live ptr at hat
              rw [Function.update_self, hlive] at hat
              contradiction
            · simp [hsize]
        | inPlace =>
            simp [realloc, realRealloc, hptr, hlive, hsize, hanswer] at hstep
            have hre := Tracker.rerecord htracking hexact size
              (tracker.heap.place ptr size.toNat) hptr hptr
              (Function.update_self ..) (by rw [Function.update_idem]; rfl) env.room
            rw [← hstep]
            exact ⟨hre.1, hre.2.trans (by simp [hsize])⟩
        | block address =>
            by_cases hfresh : tracker.heap.Fresh address
            · simp [realloc, realRealloc, hptr, hlive, hsize, hanswer, hfresh] at hstep
              have hne : address ≠ ptr := by
                intro heq
                rw [heq, LibcHeap.Fresh, hlive] at hfresh
                simp at hfresh
              have hunused : Function.update tracker.heap.live ptr none address = none := by
                rw [Function.update_of_ne hne]
                exact hfresh.2
              have hre := Tracker.rerecord htracking hexact size
                ((tracker.heap.release ptr).place address size.toNat) hptr
                hfresh.1 hunused rfl env.room
              rw [← hstep]
              exact ⟨hre.1, hre.2.trans (by simp [hsize])⟩
            · simp [realloc, realRealloc, hptr, hlive, hsize, hanswer, hfresh] at hstep

/-- `posix_memalign` records what it stored through `memptr`. -/
theorem posixMemalign_cases {tracker after : Tracker} {env : HookEnv}
    {memptr : Option Word} {alignment size : Word}
    (hstep : (posixMemalign env memptr alignment size tracker).map Prod.snd =
      some after) :
    (env.answer = .refuse ∧ after = tracker) ∨
      ∃ ptr heap, ptr ≠ nullptr ∧
        realMalloc env.answer size.toNat tracker.heap = some (ptr, heap) ∧
        after = (({ tracker with heap := heap } : Tracker).add env.room ptr size).2 := by
  simp only [posixMemalign, bind, Option.bind] at hstep
  split at hstep
  · simp at hstep
  next result hreal =>
    rcases result with ⟨res, stored, heap⟩
    rcases realPosixMemalign_cases hreal with
      ⟨hrefuse, hres, rfl⟩ | ⟨ptr, rfl, rfl, hptr, hmalloc⟩
    · refine .inl ⟨hrefuse, Eq.symm ?_⟩
      cases stored <;> simpa [hres] using hstep
    · refine .inr ⟨ptr, heap, hptr, hmalloc, Eq.symm ?_⟩
      rcases hadd : ({ tracker with heap := heap } : Tracker).add env.room ptr size with
        ⟨result, tracker'⟩
      cases result <;> simpa [hptr, hadd] using hstep

theorem posixMemalign_exact_iff {tracker after : Tracker}
    (htracking : tracker.Tracking) (hexact : tracker.Exact) {env : HookEnv}
    {memptr : Option Word} {alignment size : Word}
    (hstep : (posixMemalign env memptr alignment size tracker).map Prod.snd =
      some after) :
    after.Tracking ∧ (after.Exact ↔ (env.answer ≠ .refuse → env.room = true)) := by
  rcases posixMemalign_cases hstep with ⟨hrefuse, rfl⟩ | ⟨ptr, heap, -, hmalloc, rfl⟩
  · exact ⟨htracking, iff_of_true hexact fun hne => absurd hrefuse hne⟩
  · rw [← Tracker.finish_snd]
    exact Tracker.allocating_exact_iff htracking hexact hmalloc env.room

/-- A hook that calls its real function and records what it returned. -/
theorem Tracker.finish_cases {tracker after : Tracker} {room : Bool} {size : Word}
    {real : Option (Word × LibcHeap)}
    (hstep : (real.bind fun result =>
      some (({ tracker with heap := result.2 } : Tracker).finish room result.1 size)).map
        Prod.snd = some after) :
    ∃ ptr heap, real = some (ptr, heap) ∧
      after = (({ tracker with heap := heap } : Tracker).finish room ptr size).2 := by
  cases real with
  | none => simp at hstep
  | some result => exact ⟨result.1, result.2, rfl, (Option.some.inj hstep).symm⟩

theorem malloc_cases {tracker after : Tracker} {env : HookEnv} {size : Word}
    (hstep : tracker.step ⟨.malloc size, env⟩ = some after) :
    ∃ ptr heap, realMalloc env.answer size.toNat tracker.heap = some (ptr, heap) ∧
      after = (({ tracker with heap := heap } : Tracker).finish env.room ptr size).2 :=
  Tracker.finish_cases hstep

theorem memalign_cases {tracker after : Tracker} {env : HookEnv} {alignment size : Word}
    (hstep : tracker.step ⟨.memalign alignment size, env⟩ = some after) :
    ∃ ptr heap, realMalloc env.answer size.toNat tracker.heap = some (ptr, heap) ∧
      after = (({ tracker with heap := heap } : Tracker).finish env.room ptr size).2 :=
  Tracker.finish_cases hstep

theorem calloc_cases {tracker after : Tracker} {env : HookEnv} {nmemb size : Word}
    (hstep : tracker.step ⟨.calloc nmemb size, env⟩ = some after) :
    ∃ ptr heap,
      realMalloc (if ProductFits nmemb.toNat size.toNat then env.answer else .refuse)
          (nmemb * size).toNat tracker.heap = some (ptr, heap) ∧
        after = (({ tracker with heap := heap } : Tracker).finish env.room ptr
          (nmemb * size)).2 := by
  rw [← realCalloc_eq]
  exact Tracker.finish_cases hstep

/-- `realloc` of null is `malloc`. -/
theorem realloc_nullptr_cases {tracker after : Tracker} {env : HookEnv} {size : Word}
    (hstep : tracker.step ⟨.realloc nullptr size, env⟩ = some after) :
    ∃ ptr heap, realMalloc env.answer size.toNat tracker.heap = some (ptr, heap) ∧
      after = (({ tracker with heap := heap } : Tracker).finish env.room ptr size).2 :=
  Tracker.finish_cases hstep

/-- From an exact state, one call leaves the map exact if and only if the call is
recordable. -/
theorem Tracker.step_exact_iff {tracker after : Tracker}
    (htracking : tracker.Tracking) (hexact : tracker.Exact) {event : HookEvent}
    (hstep : tracker.step event = some after) :
    after.Tracking ∧ (after.Exact ↔ event.Recordable) := by
  rcases event with ⟨call, env⟩
  cases call with
  | malloc size =>
      obtain ⟨ptr, heap, hreal, rfl⟩ := malloc_cases hstep
      have hiff := Tracker.allocating_exact_iff htracking hexact hreal env.room
      exact ⟨hiff.1, hiff.2.trans (by simp)⟩
  | free ptr =>
      have hfree := free_exact htracking hexact hstep
      exact ⟨hfree.1, iff_of_true hfree.2 (by simp)⟩
  | calloc nmemb size =>
      obtain ⟨ptr, heap, hreal, rfl⟩ := calloc_cases hstep
      have hiff := Tracker.allocating_exact_iff htracking hexact hreal env.room
      refine ⟨hiff.1, hiff.2.trans ?_⟩
      by_cases hfits : ProductFits nmemb.toNat size.toNat <;> simp [hfits]
  | realloc ptr size =>
      by_cases hptr : ptr = nullptr
      · subst ptr
        obtain ⟨ptr, heap, hreal, rfl⟩ := realloc_nullptr_cases hstep
        have hiff := Tracker.allocating_exact_iff htracking hexact hreal env.room
        exact ⟨hiff.1, hiff.2.trans (by simp)⟩
      · have hiff := realloc_exact_iff htracking hexact hptr hstep
        refine ⟨hiff.1, hiff.2.trans ?_⟩
        by_cases hsize : size.toNat = 0
        · simp [hptr, hsize]
        · by_cases hrefuse : env.answer = .refuse
          · simp [hptr, hsize, hrefuse]
          · simp [hptr, hsize, hrefuse]
  | memalign alignment size =>
      obtain ⟨ptr, heap, hreal, rfl⟩ := memalign_cases hstep
      have hiff := Tracker.allocating_exact_iff htracking hexact hreal env.room
      exact ⟨hiff.1, hiff.2.trans (by simp)⟩
  | posixMemalign memptr alignment size =>
      have hiff := posixMemalign_exact_iff htracking hexact hstep
      exact ⟨hiff.1, hiff.2.trans (by simp)⟩

/-- The tracker when leak detection is on and nothing has been allocated. -/
def Tracker.initial (config : DomovoyConfig) : Tracker where
  config := config
  gAllocations := some ∅
  heap := LibcHeap.initial

theorem Tracker.initial_exact (config : DomovoyConfig) :
    (Tracker.initial config).Exact := by
  funext address
  simp [Tracker.recorded, recordedIn, Tracker.initial, LibcHeap.initial]

/-- The map is exact after every call of the run. -/
def ExactAfterEveryCall (start : Tracker) (events : List HookEvent) : Prop :=
  ∀ before, before <+: events → ∀ tracker,
    run Tracker.step start before = some tracker → tracker.Exact

/-- Over whole runs: the map stays exact after every call if and only if every
call is recordable. -/
theorem exactAfterEveryCall_iff {start final : Tracker} {events : List HookEvent}
    (htracking : start.Tracking) (hexact : start.Exact)
    (hrun : run Tracker.step start events = some final) :
    ExactAfterEveryCall start events ↔ ∀ event ∈ events, event.Recordable := by
  rw [← along_iff_forall hrun]
  apply throughout_iff_along (fun tracker : Tracker => tracker.Tracking ∧ tracker.Exact)
    _ _ ⟨htracking, hexact⟩ hexact along_true hrun
  · rintro state event next ⟨htracking, hexact⟩ - hok hstep
    have hiff := Tracker.step_exact_iff htracking hexact hstep
    exact ⟨hiff.1, hiff.2.mpr hok⟩
  · rintro state event next ⟨htracking, hexact⟩ - hstep
    exact (Tracker.step_exact_iff htracking hexact hstep).2

/-- The hooks from the first tracked call on. -/
theorem allocHooks_exact_iff (config : DomovoyConfig)
    (hconfig : config.enableLeakDetection = true) (events : List HookEvent)
    (final : Tracker)
    (hrun : run Tracker.step (Tracker.initial config) events = some final) :
    ExactAfterEveryCall (Tracker.initial config) events ↔
      ∀ event ∈ events, event.Recordable :=
  exactAfterEveryCall_iff ⟨hconfig, rfl⟩ (Tracker.initial_exact config) hrun

namespace TrackerWitness

def tracking : DomovoyConfig := { enableLeakDetection := true }

/-- Every hook once: allocate, clear, resize in place, move, align, release. -/
def everyHook : List HookEvent :=
  [⟨.malloc 16, ⟨.block 0x1000, true⟩⟩,
    ⟨.calloc 4 8, ⟨.block 0x2000, true⟩⟩,
    ⟨.realloc 0x1000 24, ⟨.inPlace, true⟩⟩,
    ⟨.realloc 0x2000 64, ⟨.block 0x3000, true⟩⟩,
    ⟨.memalign 64 100, ⟨.block 0x2000, true⟩⟩,
    ⟨.posixMemalign (some 0x1000) 64 100, ⟨.refuse, true⟩⟩,
    ⟨.free 0x1000, ⟨.refuse, true⟩⟩]

theorem everyHook_runs :
    (run Tracker.step (Tracker.initial tracking) everyHook).isSome := by
  decide

theorem everyHook_exact_iff :
    ExactAfterEveryCall (Tracker.initial tracking) everyHook ↔
      ∀ event ∈ everyHook, event.Recordable :=
  allocHooks_exact_iff tracking rfl everyHook _ (Option.some_get everyHook_runs).symm

/-- `malloc(16)` succeeds, then growing the block to `2 ^ 62` bytes fails. -/
def failedRealloc : List HookEvent :=
  [⟨.malloc 16, ⟨.block 0x1000, true⟩⟩,
    ⟨.realloc 0x1000 0x4000000000000000, ⟨.refuse, true⟩⟩]

theorem failedRealloc_runs :
    (run Tracker.step (Tracker.initial tracking) failedRealloc).isSome := by
  decide

/-- The block is still allocated, yet its record is gone. -/
theorem failedRealloc_not_exact :
    ¬ ExactAfterEveryCall (Tracker.initial tracking) failedRealloc := by
  intro hexact
  have hfinal := hexact failedRealloc (List.prefix_refl _) _
    (Option.some_get failedRealloc_runs).symm
  exact absurd (congrFun hfinal 0x1000) (by decide)

end TrackerWitness

end Domovoy
