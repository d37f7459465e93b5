/-
The Linux allocation hooks under any number of threads.  A hook call is a sequence
of atomic steps: one call into the real allocator, one insertion into the map, one
erasure from it.
-/
import Domovoy.TrackerExact

namespace Domovoy

open WordAlign Transition

/-- The pointer that a call gives up: the application may not use it again. -/
def HookCall.released : HookCall → Option Word
  | .free ptr => if ptr = nullptr then none else some ptr
  | .realloc ptr _ => if ptr = nullptr then none else some ptr
  | _ => none

/-- Where a thread stands in its hook call. -/
inductive HookPc where
  | idle
  /-- The real function is next. -/
  | calling (call : HookCall)
  /-- `AddAllocation(ptr, size)` is next, then the hook returns. -/
  | adding (ptr size : Word)
  /-- In `realloc`: `RemoveAllocation(ptr)` is next. -/
  | erasing (ptr newPtr size : Word)
  /-- In `free`: `RemoveAllocation(ptr)` is next. -/
  | removing (ptr : Word)
  /-- In `free`: `real_free(ptr)` is next. -/
  | releasing (ptr : Word)
deriving DecidableEq, Repr

inductive HookMove where
  | call (call : HookCall)
  | real (answer : RealAnswer)
  | map
deriving DecidableEq, Repr

structure HookStep (Tid : Type) where
  thread : Tid
  move : HookMove

/-- The shared state, the pointers the application holds from completed calls, and
the position of every thread. -/
structure TrackerState (Tid : Type) where
  tracker : Tracker
  owned : Word → Bool
  pc : Tid → HookPc

def TrackerState.initial (Tid : Type) (config : DomovoyConfig) : TrackerState Tid where
  tracker := Tracker.initial config
  owned := fun _ => false
  pc := fun _ => .idle

/-- `free` erases before it releases; every other hook calls the real function
first. -/
def enterHook : HookCall → HookPc
  | .free ptr => .removing ptr
  | call => .calling call

/-- The call into the real allocator and what the hook does next. -/
def callReal (answer : RealAnswer) (call : HookCall) (heap : LibcHeap) :
    Option (HookPc × LibcHeap) :=
  match call with
  | .malloc size =>
      (realMalloc answer size.toNat heap).map fun (ptr, heap) =>
        (.adding ptr size, heap)
  | .free _ => none
  | .calloc nmemb size =>
      (realCalloc answer nmemb.toNat size.toNat heap).map fun (ptr, heap) =>
        (.adding ptr (nmemb * size), heap)
  | .realloc ptr size =>
      (realRealloc answer ptr size.toNat heap).map fun (newPtr, heap) =>
        (.erasing ptr newPtr size, heap)
  | .memalign alignment size =>
      (realMemalign answer alignment.toNat size.toNat heap).map fun (ptr, heap) =>
        (.adding ptr size, heap)
  | .posixMemalign memptr alignment size =>
      (realPosixMemalign answer memptr alignment.toNat size.toNat heap).map
        fun (res, memptr, heap) =>
          match memptr with
          | some ptr =>
              if res = 0 ∧ ptr ≠ nullptr then (.adding ptr size, heap)
              else (.idle, heap)
          | none => (.idle, heap)

variable {Tid : Type} [DecidableEq Tid]

/-- One atomic step.  The pool can grow, so an insertion finds room. -/
def TrackerState.step (s : TrackerState Tid) (label : HookStep Tid) :
    Option (TrackerState Tid) :=
  let setPc := Function.update s.pc label.thread
  match label.move, s.pc label.thread with
  | .call call, .idle =>
      match call.released with
      | none => some { s with pc := setPc (enterHook call) }
      | some ptr =>
          if s.owned ptr then
            some { s with
              owned := Function.update s.owned ptr false
              pc := setPc (enterHook call) }
          else none
  | .real answer, .calling call =>
      (callReal answer call s.tracker.heap).map fun (pc, heap) =>
        { s with tracker := { s.tracker with heap := heap }, pc := setPc pc }
  | .real _, .releasing ptr =>
      (realFree ptr s.tracker.heap).map fun heap =>
        { s with tracker := { s.tracker with heap := heap }, pc := setPc .idle }
  | .map, .erasing ptr newPtr size =>
      some { s with
        tracker := if ptr = nullptr then s.tracker else s.tracker.remove ptr
        pc := setPc (.adding newPtr size) }
  | .map, .removing ptr =>
      some { s with tracker := s.tracker.remove ptr, pc := setPc (.releasing ptr) }
  | .map, .adding ptr size =>
      some { s with
        tracker := (s.tracker.add true ptr size).2
        owned := if ptr = nullptr then s.owned else Function.update s.owned ptr true
        pc := setPc .idle }
  | _, _ => none

/-- The block that a real function returned, if it returned one. -/
def returned (ptr size : Word) : Option (Word × Nat) :=
  if ptr = nullptr then none else some (ptr, size.toNat)

/-- What a position means for the registry of blocks. -/
def HookPc.phase : HookPc → Registry.Phase Word Nat
  | .idle => .idle
  | .calling call =>
      match call.released with
      | none => .idle
      | some ptr => .retiring ptr
  | .adding ptr size => .afterDrop (returned ptr size)
  | .erasing ptr newPtr size =>
      if ptr = nullptr then .afterDrop (returned newPtr size)
      else .stale ptr (returned newPtr size)
  | .removing ptr => if ptr = nullptr then .idle else .retiring ptr
  | .releasing ptr => if ptr = nullptr then .idle else .unregistered ptr

/-- The registry that the allocator, the map and the threads make up. -/
def TrackerState.registry (s : TrackerState Tid) : Registry.State Tid Word Nat where
  live := s.tracker.heap.live
  table := s.tracker.recorded
  owned := s.owned
  phase := fun t => (s.pc t).phase

omit [DecidableEq Tid] in
theorem TrackerState.registry_phase (s : TrackerState Tid) (t : Tid) :
    s.registry.phase t = (s.pc t).phase :=
  rfl

/-- A `realloc` of a block to a non-zero size does not fail. -/
def TrackerState.ReallocSucceeds (s : TrackerState Tid) (label : HookStep Tid) : Prop :=
  ∀ ptr size, label.move = .real .refuse →
    s.pc label.thread = .calling (.realloc ptr size) →
      ptr = nullptr ∨ size.toNat = 0

/-- No record is made for an address that the `realloc` of some thread has given
back to the allocator and has yet to erase. -/
def TrackerState.AddsUnretired (s : TrackerState Tid) (label : HookStep Tid) : Prop :=
  ∀ ptr size, label.move = .map → s.pc label.thread = .adding ptr size →
    ptr ≠ nullptr → ∀ t newPtr newSize, s.pc t ≠ .erasing ptr newPtr newSize

/-- The condition under which the hooks are the registry's safe steps. -/
def TrackerState.Guarded (s : TrackerState Tid) (label : HookStep Tid) : Prop :=
  s.ReallocSucceeds label ∧ s.AddsUnretired label

theorem enterHook_phase (call : HookCall) :
    (enterHook call).phase = (HookPc.calling call).phase := by
  cases call with
  | free ptr =>
      by_cases hptr : ptr = nullptr <;>
        simp [enterHook, HookPc.phase, HookCall.released, hptr]
  | malloc | calloc | realloc | memalign | posixMemalign => rfl

/-- The registry after one thread has moved on. -/
theorem TrackerState.registry_move (s : TrackerState Tid) (t : Tid) (pc : HookPc)
    (tracker : Tracker) (owned : Word → Bool) :
    TrackerState.registry ⟨tracker, owned, Function.update s.pc t pc⟩ =
      ⟨tracker.heap.live, tracker.recorded, owned,
        Function.update s.registry.phase t pc.phase⟩ := by
  have hphase : (fun t' => (Function.update s.pc t pc t').phase) =
      Function.update s.registry.phase t pc.phase :=
    Function.comp_update HookPc.phase s.pc t pc
  rw [registry, hphase]

theorem returned_of_ne {ptr : Word} (size : Word) (hptr : ptr ≠ nullptr) :
    returned ptr size = some (ptr, size.toNat) := by
  simp [returned, hptr]

/-- An allocating real function returns null or a new block. -/
theorem realMalloc_phase {answer : RealAnswer} {size ptr : Word}
    {heap heap' : LibcHeap}
    (hreal : realMalloc answer size.toNat heap = some (ptr, heap')) :
    (HookPc.adding ptr size).phase = .idle ∧ heap' = heap ∨
      ∃ ptr' size', (HookPc.adding ptr size).phase = .acquired ptr' size' ∧
        heap.live ptr' = none ∧ heap' = heap.place ptr' size' := by
  rcases realMalloc_cases hreal with ⟨-, rfl, rfl⟩ | ⟨-, hfresh, rfl⟩
  · exact .inl ⟨rfl, rfl⟩
  · refine .inr ⟨ptr, size.toNat, ?_, hfresh.2, rfl⟩
    rw [HookPc.phase, returned_of_ne size hfresh.1, Registry.Phase.afterDrop]

/-- A call that gives nothing back: the real function returns null or a block. -/
theorem callReal_of_released_none {answer : RealAnswer} {call : HookCall}
    {heap heap' : LibcHeap} {pc : HookPc} (hreleased : call.released = none)
    (hreal : callReal answer call heap = some (pc, heap')) :
    pc.phase = .idle ∧ heap' = heap ∨
      ∃ ptr size, pc.phase = .acquired ptr size ∧ heap.live ptr = none ∧
        heap' = heap.place ptr size := by
  cases call with
  | malloc size =>
      obtain ⟨⟨ptr, after⟩, hmalloc, hpc⟩ := Option.map_eq_some_iff.mp hreal
      obtain ⟨rfl, rfl⟩ := Prod.mk.inj hpc
      exact realMalloc_phase hmalloc
  | free ptr => cases hreal
  | calloc nmemb size =>
      obtain ⟨⟨ptr, after⟩, hcalloc, hpc⟩ := Option.map_eq_some_iff.mp hreal
      obtain ⟨rfl, rfl⟩ := Prod.mk.inj hpc
      rw [realCalloc_eq] at hcalloc
      exact realMalloc_phase hcalloc
  | realloc ptr size =>
      have hptr : ptr = nullptr := by
        by_contra hptr
        simp [HookCall.released, hptr] at hreleased
      subst hptr
      obtain ⟨⟨newPtr, after⟩, hrealloc, hpc⟩ := Option.map_eq_some_iff.mp hreal
      obtain ⟨rfl, rfl⟩ := Prod.mk.inj hpc
      simp only [realRealloc, if_true] at hrealloc
      exact realMalloc_phase hrealloc
  | memalign alignment size =>
      obtain ⟨⟨ptr, after⟩, hmemalign, hpc⟩ := Option.map_eq_some_iff.mp hreal
      obtain ⟨rfl, rfl⟩ := Prod.mk.inj hpc
      exact realMalloc_phase hmemalign
  | posixMemalign memptr alignment size =>
      obtain ⟨⟨res, stored, after⟩, hposix, hpc⟩ := Option.map_eq_some_iff.mp hreal
      rcases realPosixMemalign_cases hposix with
        ⟨-, hres, rfl⟩ | ⟨ptr, rfl, rfl, hptr, hmalloc⟩
      · have hnothing : pc = .idle ∧ heap' = after := by
          cases stored <;> simp [hres] at hpc <;> exact ⟨hpc.1.symm, hpc.2.symm⟩
        obtain ⟨rfl, rfl⟩ := hnothing
        exact .inl ⟨rfl, rfl⟩
      · simp only [hptr, ne_eq, not_false_eq_true, and_self, if_true] at hpc
        obtain ⟨rfl, rfl⟩ := Prod.mk.inj hpc
        exact realMalloc_phase hmalloc

/-- A `realloc` that does not fail gives the old block back and may return one in
exchange. -/
theorem callReal_of_released_some {answer : RealAnswer} {call : HookCall}
    {heap heap' : LibcHeap} {pc : HookPc} {ptr : Word}
    (hreleased : call.released = some ptr)
    (hreal : callReal answer call heap = some (pc, heap'))
    (hsucceeds : ∀ size, answer = .refuse → call = .realloc ptr size → size.toNat = 0) :
    pc.phase = .stale ptr none ∧ heap' = heap.release ptr ∨
      ∃ new size, pc.phase = .stale ptr (some (new, size)) ∧
        (new = ptr ∨ heap.live new = none) ∧ heap' = (heap.release ptr).place new size := by
  cases call with
  | malloc | calloc | memalign | posixMemalign => cases hreleased
  | free ptr => cases hreal
  | realloc old size =>
      obtain ⟨hold, rfl⟩ : old ≠ nullptr ∧ old = ptr := by
        simpa [HookCall.released] using hreleased
      obtain ⟨⟨newPtr, after⟩, hrealloc, hpc⟩ := Option.map_eq_some_iff.mp hreal
      obtain ⟨rfl, rfl⟩ := Prod.mk.inj hpc
      have hphase : (HookPc.erasing old newPtr size).phase =
          .stale old (returned newPtr size) := by
        simp [HookPc.phase, hold]
      rw [hphase]
      cases hlive : heap.live old with
      | none => simp [realRealloc, hold, hlive] at hrealloc
      | some bytes =>
          by_cases hsize : size.toNat = 0
          · simp [realRealloc, hold, hlive, hsize] at hrealloc
            obtain ⟨rfl, rfl⟩ := hrealloc
            exact .inl ⟨rfl, rfl⟩
          · cases answer with
            | refuse => exact absurd (hsucceeds size rfl rfl) hsize
            | inPlace =>
                simp [realRealloc, hold, hlive, hsize] at hrealloc
                obtain ⟨rfl, rfl⟩ := hrealloc
                refine .inr ⟨old, size.toNat, ?_, .inl rfl, ?_⟩
                · rw [returned_of_ne size hold]
                · simp [LibcHeap.place, LibcHeap.release, Function.update_idem]
            | block address =>
                simp [realRealloc, hold, hlive, hsize] at hrealloc
                obtain ⟨hfresh, rfl, rfl⟩ := hrealloc
                refine .inr ⟨address, size.toNat, ?_, .inr hfresh.2, rfl⟩
                rw [returned_of_ne size hfresh.1]

variable {s s' : TrackerState Tid} {t : Tid}

/-- The registry reaches the one by safe steps from the other. -/
def TrackerState.Simulates (s s' : TrackerState Tid) : Prop :=
  ReachesAlong Registry.State.step Registry.State.Safe s.registry s'.registry

theorem TrackerState.simulates_of_eq (heq : s'.registry = s.registry) :
    s.Simulates s' := by
  rw [Simulates, heq]
  exact .refl _

theorem TrackerState.simulates_of_step (act : Registry.Act Word Nat)
    (hact : act ≠ .register)
    (hstep : Registry.State.step s.registry ⟨t, act⟩ = some s'.registry) :
    s.Simulates s' :=
  .single (Registry.State.safe_of_ne hact) hstep

/-- A step that only moves a thread between positions of one phase. -/
theorem TrackerState.simulates_of_phase {pc : HookPc}
    (hphase : s.registry.phase t = pc.phase) :
    s.Simulates { s with pc := Function.update s.pc t pc } := by
  apply simulates_of_eq
  rw [registry_move, ← hphase, Function.update_eq_self]
  rfl

/-- A call is made with a pointer that the application still holds. -/
theorem simulates_call {call : HookCall} (hpc : s.pc t = .idle)
    (hstep : s.step ⟨t, .call call⟩ = some s') : s.Simulates s' := by
  have hphase : s.registry.phase t = .idle := by
    simp [TrackerState.registry, hpc, HookPc.phase]
  simp only [TrackerState.step, hpc] at hstep
  cases hreleased : call.released with
  | none =>
      simp only [hreleased, Option.some.injEq] at hstep
      subst hstep
      apply TrackerState.simulates_of_phase
      rw [hphase, enterHook_phase, HookPc.phase, hreleased]
  | some ptr =>
      simp only [hreleased, Option.ite_none_right_eq_some, Option.some.injEq] at hstep
      obtain ⟨howned, rfl⟩ := hstep
      have hentered : (enterHook call).phase = .retiring ptr := by
        rw [enterHook_phase, HookPc.phase, hreleased]
      apply TrackerState.simulates_of_step (.retire ptr) nofun
      rw [Registry.State.step_retire hphase howned, TrackerState.registry_move, hentered]
      rfl

/-- The call into the real allocator. -/
theorem simulates_real {answer : RealAnswer} {call : HookCall}
    (hpc : s.pc t = .calling call)
    (hsucceeds : s.ReallocSucceeds ⟨t, .real answer⟩)
    (hstep : s.step ⟨t, .real answer⟩ = some s') : s.Simulates s' := by
  simp only [TrackerState.step, hpc, Option.map_eq_some_iff] at hstep
  obtain ⟨⟨pc, heap⟩, hreal, rfl⟩ := hstep
  cases hreleased : call.released with
  | none =>
      have hphase : s.registry.phase t = .idle := by
        simp [TrackerState.registry, hpc, HookPc.phase, hreleased]
      rcases callReal_of_released_none hreleased hreal with
        ⟨hnext, rfl⟩ | ⟨ptr, size, hnext, hfresh, rfl⟩
      · exact TrackerState.simulates_of_phase (hphase.trans hnext.symm)
      · apply TrackerState.simulates_of_step (.acquire ptr size) nofun
        rw [Registry.State.step_acquire size hphase hfresh, TrackerState.registry_move,
          hnext]
        rfl
  | some ptr =>
      have hphase : s.registry.phase t = .retiring ptr := by
        simp [TrackerState.registry, hpc, HookPc.phase, hreleased]
      have hptr : ptr ≠ nullptr := by
        rintro rfl
        cases call <;> simp [HookCall.released] at hreleased
      have hfull : ∀ size, answer = .refuse → call = .realloc ptr size →
          size.toNat = 0 := by
        rintro size rfl rfl
        exact (hsucceeds ptr size rfl hpc).resolve_left hptr
      rcases callReal_of_released_some hreleased hreal hfull with
        ⟨hnext, rfl⟩ | ⟨new, size, hnext, hnew, rfl⟩
      · apply TrackerState.simulates_of_step (.exchange none) nofun
        rw [Registry.State.step_giveBack hphase, TrackerState.registry_move, hnext]
        rfl
      · apply TrackerState.simulates_of_step (.exchange (some (new, size))) nofun
        rw [Registry.State.step_exchange size hphase hnew, TrackerState.registry_move,
          hnext]
        rfl

/-- `real_free`, after the record has been erased. -/
theorem simulates_release {answer : RealAnswer} {ptr : Word}
    (hpc : s.pc t = .releasing ptr)
    (hstep : s.step ⟨t, .real answer⟩ = some s') : s.Simulates s' := by
  simp only [TrackerState.step, hpc, Option.map_eq_some_iff] at hstep
  obtain ⟨heap, hreal, rfl⟩ := hstep
  by_cases hptr : ptr = nullptr
  · simp only [realFree, if_pos hptr, Option.some.injEq] at hreal
    subst hreal
    apply TrackerState.simulates_of_phase
    simp [TrackerState.registry, hpc, HookPc.phase, hptr]
  · have hphase : s.registry.phase t = .unregistered ptr := by
      simp [TrackerState.registry, hpc, HookPc.phase, hptr]
    simp only [realFree, if_neg hptr, Option.ite_none_right_eq_some,
      Option.some.injEq] at hreal
    obtain ⟨-, rfl⟩ := hreal
    apply TrackerState.simulates_of_step .release (by simp)
    rw [Registry.State.step_release hphase, TrackerState.registry_move]
    rfl

/-- `free` erases the record of the block. -/
theorem simulates_remove {ptr : Word} (htracking : s.tracker.Tracking)
    (hpc : s.pc t = .removing ptr) (hstep : s.step ⟨t, .map⟩ = some s') :
    s.Simulates s' := by
  simp only [TrackerState.step, hpc, Option.some.injEq] at hstep
  subst hstep
  by_cases hptr : ptr = nullptr
  · rw [hptr, Tracker.remove_null]
    apply TrackerState.simulates_of_phase
    simp [TrackerState.registry, hpc, HookPc.phase, hptr]
  · have hphase : s.registry.phase t = .retiring ptr := by
      simp [TrackerState.registry, hpc, HookPc.phase, hptr]
    have hnext : (HookPc.releasing ptr).phase = .unregistered ptr := by
      simp [HookPc.phase, hptr]
    apply TrackerState.simulates_of_step .unregister nofun
    rw [Registry.State.step_unregister hphase, TrackerState.registry_move, hnext,
      Tracker.remove_recorded htracking.enabled hptr]
    rfl

/-- `realloc` erases the record of what it has already given back. -/
theorem simulates_erase {ptr newPtr size : Word} (htracking : s.tracker.Tracking)
    (hpc : s.pc t = .erasing ptr newPtr size) (hstep : s.step ⟨t, .map⟩ = some s') :
    s.Simulates s' := by
  simp only [TrackerState.step, hpc, Option.some.injEq] at hstep
  subst hstep
  by_cases hptr : ptr = nullptr
  · rw [if_pos hptr]
    apply TrackerState.simulates_of_phase
    simp [TrackerState.registry, hpc, HookPc.phase, hptr]
  · have hphase : s.registry.phase t = .stale ptr (returned newPtr size) := by
      simp [TrackerState.registry, hpc, HookPc.phase, hptr]
    apply TrackerState.simulates_of_step .dropStale nofun
    rw [Registry.State.step_dropStale hphase, TrackerState.registry_move, if_neg hptr,
      Tracker.remove_recorded htracking.enabled hptr]
    rfl

/-- Only `realloc` leaves a record behind. -/
theorem HookPc.erasing_of_leftover {pc : HookPc} {ptr : Word}
    (hleft : pc.phase.leftover = some ptr) :
    ptr ≠ nullptr ∧ ∃ newPtr size, pc = .erasing ptr newPtr size := by
  cases pc with
  | idle => cases hleft
  | calling call =>
      cases hreleased : call.released <;>
        simp [HookPc.phase, hreleased, Registry.Phase.leftover] at hleft
  | adding ptr' size => simp [HookPc.phase] at hleft
  | erasing old newPtr size =>
      by_cases hold : old = nullptr
      · simp [HookPc.phase, hold] at hleft
      · simp only [HookPc.phase, hold, if_false, Registry.Phase.leftover,
          Option.some.injEq] at hleft
        subst hleft
        exact ⟨hold, newPtr, size, rfl⟩
  | removing ptr' =>
      by_cases hptr : ptr' = nullptr <;>
        simp [HookPc.phase, hptr, Registry.Phase.leftover] at hleft
  | releasing ptr' =>
      by_cases hptr : ptr' = nullptr <;>
        simp [HookPc.phase, hptr, Registry.Phase.leftover] at hleft

/-- `AddAllocation` makes the record and the hook returns. -/
theorem simulates_add {ptr size : Word} (htracking : s.tracker.Tracking)
    (hpc : s.pc t = .adding ptr size) (hguard : s.AddsUnretired ⟨t, .map⟩)
    (hstep : s.step ⟨t, .map⟩ = some s') : s.Simulates s' := by
  simp only [TrackerState.step, hpc, Option.some.injEq] at hstep
  subst hstep
  by_cases hptr : ptr = nullptr
  · rw [hptr, Tracker.add_null, if_pos rfl]
    apply TrackerState.simulates_of_phase
    simp [TrackerState.registry, hpc, HookPc.phase, hptr, returned,
      Registry.Phase.afterDrop]
  · have hphase : s.registry.phase t = .acquired ptr size.toNat := by
      simp [TrackerState.registry, hpc, HookPc.phase, returned_of_ne size hptr,
        Registry.Phase.afterDrop]
    obtain ⟨after, hadd, -, hheap, -, hrecorded⟩ :=
      Tracker.add_room htracking size hptr
    have hsafe : s.registry.Safe ⟨t, .register⟩ := by
      intro id info _ hacquired t' hleft
      rw [hphase] at hacquired
      obtain ⟨rfl, -⟩ := Registry.Phase.acquired.inj hacquired
      obtain ⟨-, newPtr, newSize, herasing⟩ := HookPc.erasing_of_leftover hleft
      exact hguard ptr size rfl hpc hptr t' newPtr newSize herasing
    apply ReachesAlong.single hsafe
    rw [Registry.State.step_register hphase, TrackerState.registry_move, if_neg hptr,
      hadd, hheap, hrecorded]
    rfl

/-- The step refines the registry's. -/
theorem TrackerState.step_simulates {label : HookStep Tid}
    (htracking : s.tracker.Tracking) (hguarded : s.Guarded label)
    (hstep : s.step label = some s') : s.Simulates s' := by
  rcases label with ⟨t, move⟩
  cases hpc : s.pc t with
  | idle =>
      cases move with
      | call call => exact simulates_call hpc hstep
      | real | map => simp [TrackerState.step, hpc] at hstep
  | calling call =>
      cases move with
      | real answer => exact simulates_real hpc hguarded.1 hstep
      | call | map => simp [TrackerState.step, hpc] at hstep
  | adding ptr size =>
      cases move with
      | map => exact simulates_add htracking hpc hguarded.2 hstep
      | call | real => simp [TrackerState.step, hpc] at hstep
  | erasing ptr newPtr size =>
      cases move with
      | map => exact simulates_erase htracking hpc hstep
      | call | real => simp [TrackerState.step, hpc] at hstep
  | removing ptr =>
      cases move with
      | map => exact simulates_remove htracking hpc hstep
      | call | real => simp [TrackerState.step, hpc] at hstep
  | releasing ptr =>
      cases move with
      | real answer => exact simulates_release hpc hstep
      | call | map => simp [TrackerState.step, hpc] at hstep

end Domovoy
