/-
The allocation map over monitoring sessions.  `Init` and `Shutdown` switch the
configuration that gates the map, while the map itself is constructed once and
outlives every session.
-/
import Domovoy.TrackerExact

namespace Domovoy

open WordAlign Transition

structure AllocationRecord where
  address : Word
  size : Word
  marked : Bool
deriving DecidableEq, Repr

/-- The records that leak detection starts from. -/
def getLinuxTrackedAllocations (gAllocations : Option AllocMap) :
    List AllocationRecord :=
  match gAllocations with
  | none => []
  | some allocations => allocations.entries.map fun entry => ⟨entry.1, entry.2, false⟩

/-- Every hook first makes sure that the map has been constructed. -/
def Tracker.ensureInit (tracker : Tracker) : Tracker :=
  { tracker with gAllocations := some (tracker.gAllocations.getD ∅) }

/-- `shuttingDown` holds from the moment `Shutdown` runs leak detection until it
resets the configuration; hooks are still called in between, to write the report. -/
structure Session where
  tracker : Tracker
  initialized : Bool
  shuttingDown : Bool

def Session.initial : Session where
  tracker := { config := {}, gAllocations := none, heap := LibcHeap.initial }
  initialized := false
  shuttingDown := false

inductive SessionEvent where
  | init (config : DomovoyConfig)
  | hook (event : HookEvent)
  | shutdown
  | resetConfig
deriving DecidableEq, Repr

/-- A second `Init` and a `Shutdown` without a session return at once. -/
def Session.step (s : Session) (event : SessionEvent) : Option Session :=
  match event with
  | .init config =>
      if s.shuttingDown then none
      else if s.initialized then some s
      else some { s with
        tracker := Tracker.ensureInit { s.tracker with config := config }
        initialized := true }
  | .hook event =>
      (s.tracker.ensureInit.step event).map fun tracker => { s with tracker := tracker }
  | .shutdown =>
      if s.shuttingDown then none
      else if s.initialized then some { s with shuttingDown := true }
      else some s
  | .resetConfig =>
      if s.shuttingDown then
        some { tracker := { s.tracker with config := {} }
               initialized := false
               shuttingDown := false }
      else none

/-- Every record that leak detection would be handed now denotes a block that is
allocated with that size. -/
def Session.HandsOverLive (s : Session) : Prop :=
  ∀ record ∈ getLinuxTrackedAllocations s.tracker.gAllocations,
    s.tracker.heap.live record.address = some record.size.toNat

/-- A block whose record is in the map is not freed while tracking is off. -/
def Session.FreesTracked (s : Session) (event : SessionEvent) : Prop :=
  ∀ ptr env, event = .hook ⟨.free ptr, env⟩ → ptr ≠ nullptr →
    s.tracker.recorded ptr ≠ none → s.tracker.config.enableLeakDetection = true

/-- The sessions of the application that never calls `realloc`. -/
def SessionEvent.NoRealloc : SessionEvent → Prop
  | .hook ⟨.realloc _ _, _⟩ => False
  | _ => True

/-- The records are those of the allocator, as far as they go. -/
def Tracker.Sound (tracker : Tracker) : Prop :=
  ∀ address size, tracker.recorded address = some size →
    tracker.heap.live address = some size

theorem Session.handsOverLive_iff (s : Session) :
    s.HandsOverLive ↔ s.tracker.Sound := by
  cases hmap : s.tracker.gAllocations with
  | none => simp [HandsOverLive, getLinuxTrackedAllocations, Tracker.Sound,
      Tracker.recorded, recordedIn, hmap]
  | some allocations =>
      simp only [HandsOverLive, getLinuxTrackedAllocations, Tracker.Sound,
        Tracker.recorded, recordedIn, hmap, List.forall_mem_map, Option.bind_some,
        Option.map_eq_some_iff]
      constructor
      · rintro hall address bytes ⟨size, hlookup, rfl⟩
        exact hall ⟨address, size⟩ (AList.mem_lookup_iff.mp hlookup)
      · intro hall entry hentry
        exact hall entry.1 entry.2.toNat ⟨entry.2, AList.mem_lookup_iff.mpr hentry, rfl⟩

/-- What recording a block does, whether or not tracking is on. -/
theorem Tracker.add_effect (tracker : Tracker) (room : Bool) (ptr size : Word) :
    (tracker.add room ptr size).2.heap = tracker.heap ∧
      ((tracker.add room ptr size).2.recorded = tracker.recorded ∨
        (tracker.add room ptr size).2.recorded =
          Function.update tracker.recorded ptr (some size.toNat)) := by
  by_cases hoff : ptr = nullptr ∨ tracker.config.enableLeakDetection = false
  · simp [Tracker.add, addAllocation, hoff]
  · cases hmap : tracker.gAllocations with
    | none => simp [Tracker.add, addAllocation, hoff, hmap, Tracker.recorded]
    | some allocations =>
        by_cases hroom : room = true ∨ ptr ∈ allocations
        · simp only [Tracker.add, addAllocation, hoff, hmap, insertOrAssign, hroom,
            if_true, if_false, Except.map]
          refine ⟨trivial, .inr ?_⟩
          rw [Tracker.recorded, Tracker.recorded, hmap]
          exact recordedIn_insert allocations ptr size
        · simp [Tracker.add, addAllocation, hoff, hmap, insertOrAssign, hroom, Except.map]

/-- The call changed nothing, or it obtained one new block, recorded or not. -/
def Tracker.Allocates (before after : Tracker) : Prop :=
  after.heap = before.heap ∧ after.recorded = before.recorded ∨
    ∃ ptr size, before.heap.live ptr = none ∧
      after.heap.live = Function.update before.heap.live ptr (some size) ∧
      (after.recorded = before.recorded ∨
        after.recorded = Function.update before.recorded ptr (some size))

theorem Tracker.allocates_of_realMalloc (tracker : Tracker) {answer : RealAnswer}
    {size ptr : Word} {heap : LibcHeap}
    (hreal : realMalloc answer size.toNat tracker.heap = some (ptr, heap)) (room : Bool) :
    tracker.Allocates (({ tracker with heap := heap } : Tracker).add room ptr size).2 := by
  rcases realMalloc_cases hreal with ⟨-, rfl, rfl⟩ | ⟨-, hfresh, rfl⟩
  · rw [Tracker.add_null]
    exact .inl ⟨rfl, rfl⟩
  · obtain ⟨hheap, hrecorded⟩ := Tracker.add_effect
      { tracker with heap := tracker.heap.place ptr size.toNat } room ptr size
    exact .inr ⟨ptr, size.toNat, hfresh.2, congrArg LibcHeap.live hheap, hrecorded⟩

/-- The hooks that give nothing back. -/
theorem Tracker.step_allocates {tracker after : Tracker} {call : HookCall} {env : HookEnv}
    (hfree : ∀ ptr, call ≠ .free ptr) (hrealloc : ∀ ptr size, call ≠ .realloc ptr size)
    (hstep : tracker.step ⟨call, env⟩ = some after) : tracker.Allocates after := by
  cases call with
  | free ptr => exact absurd rfl (hfree ptr)
  | realloc ptr size => exact absurd rfl (hrealloc ptr size)
  | malloc size =>
      obtain ⟨ptr, heap, hreal, rfl⟩ := malloc_cases hstep
      rw [Tracker.finish_snd]
      exact tracker.allocates_of_realMalloc hreal env.room
  | memalign alignment size =>
      obtain ⟨ptr, heap, hreal, rfl⟩ := memalign_cases hstep
      rw [Tracker.finish_snd]
      exact tracker.allocates_of_realMalloc hreal env.room
  | calloc nmemb size =>
      obtain ⟨ptr, heap, hreal, rfl⟩ := calloc_cases hstep
      rw [Tracker.finish_snd]
      exact tracker.allocates_of_realMalloc hreal env.room
  | posixMemalign memptr alignment size =>
      rcases posixMemalign_cases hstep with ⟨-, rfl⟩ | ⟨ptr, heap, -, hmalloc, rfl⟩
      · exact .inl ⟨rfl, rfl⟩
      · exact tracker.allocates_of_realMalloc hmalloc env.room

theorem Tracker.sound_of_allocates {before after : Tracker} (hsound : before.Sound)
    (hallocates : before.Allocates after) : after.Sound := by
  intro address size hrecorded
  rcases hallocates with ⟨hheap, hsame⟩ | ⟨ptr, bytes, hfree, hlive, hrecords⟩
  · rw [hheap]
    rw [hsame] at hrecorded
    exact hsound address size hrecorded
  · rw [hlive]
    by_cases haddress : address = ptr
    · subst haddress
      rcases hrecords with hsame | hnew
      · rw [hsame] at hrecorded
        rw [hsound address size hrecorded] at hfree
        contradiction
      · rw [hnew, Function.update_self] at hrecorded
        rw [Function.update_self, hrecorded]
    · rw [Function.update_of_ne haddress]
      rcases hrecords with hsame | hnew
      · rw [hsame] at hrecorded
        exact hsound address size hrecorded
      · rw [hnew, Function.update_of_ne haddress] at hrecorded
        exact hsound address size hrecorded

theorem free_eq_some {tracker after : Tracker} {ptr : Word} (hptr : ptr ≠ nullptr)
    (hfree : free ptr tracker = some after) :
    tracker.heap.live ptr ≠ none ∧
      after = { tracker.remove ptr with heap := tracker.heap.release ptr } := by
  simp only [free, realFree, hptr, if_false, bind, Option.bind] at hfree
  split at hfree
  · simp at hfree
  next heap hreal =>
    simp only [Option.ite_none_right_eq_some, Option.some.injEq] at hreal
    rw [← Option.some.inj hfree, ← hreal.2]
    exact ⟨Option.isSome_iff_ne_none.mp hreal.1, rfl⟩

/-- `free` keeps the records sound unless it frees a recorded block while tracking
is off. -/
theorem Tracker.free_sound_iff {tracker after : Tracker} (hsound : tracker.Sound)
    {ptr : Word} (hfree : free ptr tracker = some after) :
    after.Sound ↔ (ptr ≠ nullptr → tracker.recorded ptr ≠ none →
      tracker.config.enableLeakDetection = true) := by
  by_cases hptr : ptr = nullptr
  · subst hptr
    simp only [free, realFree, Tracker.remove_null, if_true] at hfree
    obtain rfl := Option.some.inj hfree
    exact iff_of_true hsound fun hne => absurd rfl hne
  obtain ⟨-, rfl⟩ := free_eq_some hptr hfree
  have hlive : ∀ address, address ≠ ptr →
      (tracker.heap.release ptr).live address = tracker.heap.live address :=
    fun address hne => Function.update_of_ne hne ..
  constructor
  · intro hafter _ hrecorded
    by_contra hdisabled
    rw [Tracker.remove_disabled (Bool.eq_false_iff.mpr hdisabled)] at hafter
    obtain ⟨size, hsize⟩ := Option.ne_none_iff_exists'.mp hrecorded
    have hdead := hafter ptr size hsize
    rw [show (tracker.heap.release ptr).live ptr = none from Function.update_self ..]
      at hdead
    contradiction
  · intro hcondition address size hrecorded
    by_cases henabled : tracker.config.enableLeakDetection = true
    · have hremoved : Function.update tracker.recorded ptr none address = some size := by
        rw [← Tracker.remove_recorded henabled hptr]
        exact hrecorded
      have hne : address ≠ ptr := by
        rintro rfl
        simp at hremoved
      rw [Function.update_of_ne hne] at hremoved
      exact (hlive address hne).trans (hsound address size hremoved)
    · have hsame : tracker.recorded address = some size := by
        rw [Tracker.remove_disabled (Bool.eq_false_iff.mpr henabled)] at hrecorded
        exact hrecorded
      have hne : address ≠ ptr := by
        rintro rfl
        exact henabled (hcondition hptr (by simp [hsame]))
      exact (hlive address hne).trans (hsound address size hsame)

theorem Tracker.ensureInit_recorded (tracker : Tracker) :
    tracker.ensureInit.recorded = tracker.recorded := by
  cases hmap : tracker.gAllocations with
  | none =>
      funext address
      simp [Tracker.recorded, recordedIn, ensureInit, hmap]
  | some allocations => simp [Tracker.recorded, ensureInit, hmap]

theorem Session.freesTracked_of_ne {s : Session} {event : SessionEvent}
    (hevent : ∀ ptr env, event ≠ .hook ⟨.free ptr, env⟩) : s.FreesTracked event :=
  fun ptr env heq => absurd heq (hevent ptr env)

/-- From a state whose records are all live, the next one's are if and only if the
event does not free a recorded block while tracking is off. -/
theorem Session.step_handsOverLive_iff {s s' : Session} {event : SessionEvent}
    (hsound : s.HandsOverLive) (hnoRealloc : event.NoRealloc)
    (hstep : s.step event = some s') : s'.HandsOverLive ↔ s.FreesTracked event := by
  rw [handsOverLive_iff] at hsound ⊢
  have hinit : s.tracker.ensureInit.Sound := by
    intro address size hrecorded
    rw [Tracker.ensureInit_recorded] at hrecorded
    exact hsound address size hrecorded
  cases event with
  | init config =>
      refine iff_of_true ?_ (freesTracked_of_ne nofun)
      simp only [step] at hstep
      split_ifs at hstep with hshutting hinitialized
      · obtain rfl := Option.some.inj hstep
        exact hsound
      · obtain rfl := Option.some.inj hstep
        exact hinit
  | hook hookEvent =>
      obtain ⟨after, hhook, rfl⟩ := Option.map_eq_some_iff.mp hstep
      rcases hookEvent with ⟨call, env⟩
      cases call with
      | free ptr =>
          have hiff := Tracker.free_sound_iff hinit hhook
          rw [Tracker.ensureInit_recorded] at hiff
          rw [hiff]
          constructor
          · rintro hcondition ptr' env' heq
            obtain ⟨⟨rfl⟩, -⟩ := heq
            exact hcondition
          · intro hfrees
            exact hfrees ptr env rfl
      | realloc => exact hnoRealloc.elim
      | malloc | calloc | memalign | posixMemalign =>
          refine iff_of_true ?_ (freesTracked_of_ne nofun)
          have hallocates := Tracker.step_allocates (by simp) (by simp) hhook
          exact Tracker.sound_of_allocates hinit hallocates
  | shutdown =>
      refine iff_of_true ?_ (freesTracked_of_ne nofun)
      simp only [step] at hstep
      split_ifs at hstep with hshutting hinitialized <;>
      · obtain rfl := Option.some.inj hstep
        exact hsound
  | resetConfig =>
      refine iff_of_true ?_ (freesTracked_of_ne nofun)
      simp only [step] at hstep
      split_ifs at hstep with hshutting
      obtain rfl := Option.some.inj hstep
      exact hsound

/-- Over any sequence of sessions and hook calls: the records that leak detection
is handed are live at every point if and only if no recorded block is freed while
tracking is off. -/
theorem sessions_handOverLive_iff (events : List SessionEvent)
    (hnoRealloc : ∀ event ∈ events, event.NoRealloc) (final : Session)
    (hrun : run Session.step Session.initial events = some final) :
    Throughout Session.step Session.HandsOverLive Session.initial events ↔
      Along Session.step Session.FreesTracked Session.initial events := by
  have hinitial : Session.initial.HandsOverLive := by
    simp [Session.HandsOverLive, Session.initial, getLinuxTrackedAllocations]
  apply throughout_iff_along Session.HandsOverLive _ _ hinitial hinitial
    ((along_iff_forall hrun).mpr hnoRealloc) hrun
  · intro state event next hsound hevent hfrees hstep
    exact (Session.step_handsOverLive_iff hsound hevent hstep).mpr hfrees
  · intro state event next hsound hevent hstep
    exact Session.step_handsOverLive_iff hsound hevent hstep

namespace SessionWitness

def tracking : DomovoyConfig := { enableLeakDetection := true }

def call (call : HookCall) (address : Word) : SessionEvent :=
  .hook ⟨call, ⟨.block address, true⟩⟩

/-- A session that frees its block, a pause in which another block is allocated and
freed, and a second session without leak detection. -/
def twoSessions : List SessionEvent :=
  [call (.malloc 8) 0x3000, .init tracking, call (.malloc 16) 0x1000,
    call (.free 0x1000) 0, .shutdown, .resetConfig, call (.malloc 24) 0x1000,
    call (.free 0x1000) 0, .init {}, call (.free 0x3000) 0, .shutdown, .resetConfig]

theorem twoSessions_run :
    (run Session.step Session.initial twoSessions).isSome := by
  decide

theorem twoSessions_handOverLive_iff :
    Throughout Session.step Session.HandsOverLive Session.initial twoSessions ↔
      Along Session.step Session.FreesTracked Session.initial twoSessions :=
  sessions_handOverLive_iff twoSessions
    (by simp [twoSessions, call, SessionEvent.NoRealloc])
    _ (Option.some_get twoSessions_run).symm

/-- The block of the first session is freed in the pause; the second `Shutdown`
hands its record over. -/
def freedInPause : List SessionEvent :=
  [.init tracking, call (.malloc 16) 0x1000, .shutdown, .resetConfig,
    call (.free 0x1000) 0, .init tracking, .shutdown]

theorem freedInPause_runs :
    (run Session.step Session.initial freedInPause).isSome := by
  decide

theorem freedInPause_stale :
    ¬ Throughout Session.step Session.HandsOverLive Session.initial freedInPause := by
  intro hall
  have hfinal := hall freedInPause (List.prefix_refl _) _
    (Option.some_get freedInPause_runs).symm
  have hrecord := hfinal ⟨0x1000, 16, false⟩ (by decide)
  exact absurd hrecord (by decide)

end SessionWitness

end Domovoy
