/-
Which blocks the leak reports owe their reader, over any sequence of sessions: those
obtained under leak detection and not given back since.
-/
import Domovoy.OptIn

namespace Domovoy

open WordAlign Transition

/-- Blocks by their address, each with its size. -/
abbrev Blocks := Word → Option Nat

def Blocks.give (ptr : Option Word) (blocks : Blocks) : Blocks :=
  ptr.elim blocks fun ptr => Function.update blocks ptr none

def Blocks.take (block : Option (Word × Nat)) (blocks : Blocks) : Blocks :=
  block.elim blocks fun block => Function.update blocks block.1 (some block.2)

/-- All of these blocks are among the others. -/
def Blocks.Within (blocks all : Blocks) : Prop :=
  ∀ address size, blocks address = some size → all address = some size

/-- The address of a block that the allocator hands out. -/
def RealAnswer.placed : RealAnswer → Option Word
  | .refuse => none
  | .block address => some address
  | .inPlace => none

/-- The block that a call obtains. -/
def HookEvent.obtained (event : HookEvent) : Option (Word × Nat) :=
  match event.call with
  | .malloc size => event.env.answer.placed.map fun address => (address, size.toNat)
  | .free _ => none
  | .calloc nmemb size =>
      if ProductFits nmemb.toNat size.toNat then
        event.env.answer.placed.map fun address => (address, (nmemb * size).toNat)
      else none
  | .realloc ptr size =>
      if ptr = nullptr then event.env.answer.placed.map fun address => (address, size.toNat)
      else if size.toNat = 0 then none
      else
        match event.env.answer with
        | .refuse => none
        | .block address => some (address, size.toNat)
        | .inPlace => some (ptr, size.toNat)
  | .memalign _ size => event.env.answer.placed.map fun address => (address, size.toNat)
  | .posixMemalign _ _ size =>
      event.env.answer.placed.map fun address => (address, size.toNat)

/-- The pointer that a hook drops from the map. -/
def HookEvent.forgotten (event : HookEvent) : Option Word :=
  match event.call with
  | .free ptr => if ptr = nullptr then none else some ptr
  | .realloc ptr _ => if ptr = nullptr then none else some ptr
  | _ => none

/-- The block that a call gives back; a `realloc` that fails keeps it. -/
def HookEvent.released (event : HookEvent) : Option Word :=
  match event.call with
  | .realloc _ size =>
      if size.toNat ≠ 0 ∧ event.env.answer = .refuse then none else event.forgotten
  | _ => event.forgotten

section Blocks

variable {blocks all : Blocks}

theorem Blocks.Within.none_of_none (hwithin : blocks.Within all) {address : Word}
    (hnone : all address = none) : blocks address = none := by
  cases hblock : blocks address with
  | none => rfl
  | some size =>
      rw [hwithin address size hblock] at hnone
      contradiction

theorem Blocks.Within.give (hwithin : blocks.Within all) (ptr : Option Word) :
    (blocks.give ptr).Within (all.give ptr) := by
  cases ptr with
  | none => exact hwithin
  | some ptr =>
      intro address size hblock
      simp only [Blocks.give, Option.elim_some] at hblock ⊢
      by_cases haddress : address = ptr
      · rw [haddress, Function.update_self] at hblock
        contradiction
      · rw [Function.update_of_ne haddress] at hblock ⊢
        exact hwithin address size hblock

theorem Blocks.Within.take (hwithin : blocks.Within all) (block : Option (Word × Nat)) :
    (blocks.take block).Within (all.take block) := by
  cases block with
  | none => exact hwithin
  | some block =>
      intro address size hblock
      simp only [Blocks.take, Option.elim_some] at hblock ⊢
      by_cases haddress : address = block.1
      · rw [haddress, Function.update_self] at hblock ⊢
        exact hblock
      · rw [Function.update_of_ne haddress] at hblock ⊢
        exact hwithin address size hblock

/-- A block that is new is no loss to the others. -/
theorem Blocks.Within.take_right (hwithin : blocks.Within all) {block : Option (Word × Nat)}
    (hfresh : ∀ address size, block = some (address, size) → all address = none) :
    blocks.Within (all.take block) := by
  cases block with
  | none => exact hwithin
  | some block =>
      intro address size hblock
      have hne : address ≠ block.1 := by
        intro haddress
        have hnone := hwithin.none_of_none (hfresh block.1 block.2 rfl)
        rw [haddress, hnone] at hblock
        contradiction
      simp only [Blocks.take, Option.elim_some, Function.update_of_ne hne]
      exact hwithin address size hblock

end Blocks

/-- What a call of a hook makes of the map and of the allocator behind it. -/
structure Tracker.Follows (event : HookEvent) (before after : Tracker) : Prop where
  config : after.config = before.config
  constructed : after.gAllocations.isSome
  live : after.heap.live =
    (Blocks.give event.released before.heap.live).take event.obtained
  fresh : ∀ address size, event.obtained = some (address, size) →
    address ≠ nullptr ∧ Blocks.give event.released before.heap.live address = none
  recorded : after.recorded =
    if before.config.enableLeakDetection then
      (Blocks.give event.forgotten before.recorded).take
        (if event.env.room then event.obtained else none)
    else before.recorded

section Follows

variable {tracker after : Tracker} {event : HookEvent}

/-- Recording a block that has no record. -/
theorem Tracker.add_follows (tracker : Tracker) (hconstructed : tracker.gAllocations.isSome)
    {ptr : Word} (hptr : ptr ≠ nullptr)
    (hnew : tracker.config.enableLeakDetection = true → tracker.recorded ptr = none)
    (room : Bool) (size : Word) :
    (tracker.add room ptr size).2.config = tracker.config ∧
      (tracker.add room ptr size).2.gAllocations.isSome ∧
      (tracker.add room ptr size).2.heap = tracker.heap ∧
      (tracker.add room ptr size).2.recorded =
        if tracker.config.enableLeakDetection then
          Blocks.take (if room then some (ptr, size.toNat) else none) tracker.recorded
        else tracker.recorded := by
  cases henabled : tracker.config.enableLeakDetection with
  | false =>
      simp [Tracker.add, addAllocation, henabled, hconstructed]
  | true =>
      have htracking : tracker.Tracking := ⟨henabled, hconstructed⟩
      cases room with
      | true =>
          obtain ⟨after, hadd, hafter, hheap, hconfig, hrecorded⟩ :=
            Tracker.add_room htracking size hptr
          rw [hadd]
          exact ⟨hconfig, hafter.constructed, hheap, hrecorded⟩
      | false =>
          rw [← Tracker.finish_snd, Tracker.finish_noRoom htracking hptr (hnew henabled)]
          exact ⟨rfl, hconstructed, rfl, rfl⟩

/-- A call that only obtains memory. -/
theorem Tracker.follows_of_realMalloc (hconstructed : tracker.gAllocations.isSome)
    (hwithin : Blocks.Within tracker.recorded tracker.heap.live) {answer : RealAnswer}
    {size ptr : Word} {heap : LibcHeap}
    (hreal : realMalloc answer size.toNat tracker.heap = some (ptr, heap))
    (hforgotten : event.forgotten = none) (hreleased : event.released = none)
    (hobtained : event.obtained = answer.placed.map fun address => (address, size.toNat)) :
    tracker.Follows event
      (({ tracker with heap := heap } : Tracker).add event.env.room ptr size).2 := by
  rcases realMalloc_cases hreal with ⟨rfl, rfl, rfl⟩ | ⟨hanswer, hfresh, rfl⟩
  · have hnone : event.obtained = none := hobtained
    rw [Tracker.add_null]
    refine ⟨rfl, hconstructed, ?_, ?_, ?_⟩
    · rw [hreleased, hnone]
      rfl
    · rw [hnone]
      simp
    · rw [hforgotten, hnone]
      simp [Blocks.give, Blocks.take]
  · have hplaced : answer.placed = some ptr := by
      cases answer with
      | refuse => exact absurd rfl hanswer
      | inPlace => simp [realMalloc] at hreal
      | block address =>
          simp only [realMalloc, Option.ite_none_right_eq_some, Option.some.injEq,
            Prod.mk.injEq] at hreal
          rw [RealAnswer.placed, hreal.2.1]
    have hsome : event.obtained = some (ptr, size.toNat) := by
      rw [hobtained, hplaced]
      rfl
    have hnew : ({ tracker with heap := tracker.heap.place ptr size.toNat } :
        Tracker).recorded ptr = none := hwithin.none_of_none hfresh.2
    obtain ⟨hconfig, hmap, hheap, hrecorded⟩ :=
      Tracker.add_follows { tracker with heap := tracker.heap.place ptr size.toNat }
        hconstructed hfresh.1 (fun _ => hnew) event.env.room size
    refine ⟨hconfig, hmap, ?_, ?_, ?_⟩
    · rw [hheap, hreleased, hsome]
      rfl
    · rw [hsome, hreleased]
      rintro address bytes ⟨rfl, rfl⟩
      exact hfresh
    · rw [hrecorded, hforgotten, hsome]
      rfl

/-- Dropping the record of a block. -/
theorem Tracker.remove_follows (tracker : Tracker) {ptr : Word} (hptr : ptr ≠ nullptr) :
    (tracker.remove ptr).recorded =
      if tracker.config.enableLeakDetection then
        Blocks.give (some ptr) tracker.recorded
      else tracker.recorded := by
  cases henabled : tracker.config.enableLeakDetection with
  | false => simp [Tracker.remove_disabled henabled]
  | true => simp [Tracker.remove_recorded henabled hptr, Blocks.give]

theorem Tracker.remove_constructed (hconstructed : tracker.gAllocations.isSome)
    (ptr : Word) : (tracker.remove ptr).gAllocations.isSome := by
  simp only [Tracker.remove, removeAllocation]
  split <;> simp [hconstructed]

theorem Tracker.free_follows (hconstructed : tracker.gAllocations.isSome) {ptr : Word}
    {env : HookEnv} (hstep : tracker.step ⟨.free ptr, env⟩ = some after) :
    tracker.Follows ⟨.free ptr, env⟩ after := by
  by_cases hptr : ptr = nullptr
  · subst hptr
    simp only [Tracker.step, free, realFree, Tracker.remove_null, if_true] at hstep
    obtain rfl := Option.some.inj hstep
    refine ⟨rfl, hconstructed, rfl, ?_, ?_⟩
    · simp [HookEvent.obtained]
    · simp [HookEvent.forgotten, HookEvent.obtained, Blocks.give, Blocks.take]
  · obtain ⟨-, rfl⟩ := free_eq_some hptr hstep
    have hforgotten : HookEvent.forgotten ⟨.free ptr, env⟩ = some ptr := by
      simp [HookEvent.forgotten, hptr]
    refine ⟨rfl, Tracker.remove_constructed hconstructed ptr, ?_, ?_, ?_⟩
    · rw [show HookEvent.released ⟨.free ptr, env⟩ = some ptr from hforgotten]
      rfl
    · simp [HookEvent.obtained]
    · rw [hforgotten]
      change (tracker.remove ptr).recorded = _
      rw [tracker.remove_follows hptr]
      simp [HookEvent.obtained, Blocks.take]

/-- Dropping the record of `ptr` and recording the block that replaces it, which may be
`ptr` itself. -/
theorem Tracker.rerecord_follows (tracker : Tracker)
    (hconstructed : tracker.gAllocations.isSome) {ptr newPtr : Word} (hptr : ptr ≠ nullptr)
    (hnewPtr : newPtr ≠ nullptr)
    (hnew : Blocks.give (some ptr) tracker.recorded newPtr = none) (room : Bool)
    (size : Word) :
    ((tracker.remove ptr).add room newPtr size).2.config = tracker.config ∧
      ((tracker.remove ptr).add room newPtr size).2.gAllocations.isSome ∧
      ((tracker.remove ptr).add room newPtr size).2.heap = tracker.heap ∧
      ((tracker.remove ptr).add room newPtr size).2.recorded =
        if tracker.config.enableLeakDetection then
          (Blocks.give (some ptr) tracker.recorded).take
            (if room then some (newPtr, size.toNat) else none)
        else tracker.recorded := by
  have hremoved := tracker.remove_follows hptr
  have hadd := Tracker.add_follows _ (Tracker.remove_constructed hconstructed ptr) hnewPtr
    (fun henabled => by
      change tracker.config.enableLeakDetection = true at henabled
      rw [hremoved, if_pos henabled]
      exact hnew) room size
  refine ⟨hadd.1, hadd.2.1, hadd.2.2.1, hadd.2.2.2.trans ?_⟩
  change (if tracker.config.enableLeakDetection = true then _ else _) = _
  rw [hremoved]
  split <;> rfl

/-- With no block returned the record is dropped and none is made. -/
theorem Tracker.follows_of_dropped (hconstructed : tracker.gAllocations.isSome) {ptr : Word}
    (hptr : ptr ≠ nullptr) (hforgotten : event.forgotten = some ptr)
    (hobtained : event.obtained = none) {heap : LibcHeap}
    (hlive : heap.live = Blocks.give event.released tracker.heap.live) (size : Word) :
    tracker.Follows event
      (({ tracker with heap := heap }.remove ptr).add event.env.room nullptr size).2 := by
  rw [Tracker.add_null]
  refine ⟨rfl, Tracker.remove_constructed hconstructed ptr, ?_, ?_, ?_⟩
  · rw [hobtained]
    exact hlive
  · rw [hobtained]
    exact nofun
  · rw [hobtained, hforgotten, ite_self]
    exact Tracker.remove_follows { tracker with heap := heap } hptr

theorem Tracker.follows_of_replaced (hconstructed : tracker.gAllocations.isSome)
    (hwithin : Blocks.Within tracker.recorded tracker.heap.live) {ptr newPtr size : Word}
    (hptr : ptr ≠ nullptr) (hnewPtr : newPtr ≠ nullptr)
    (hforgotten : event.forgotten = some ptr) (hreleased : event.released = some ptr)
    (hobtained : event.obtained = some (newPtr, size.toNat))
    (hunused : Blocks.give (some ptr) tracker.heap.live newPtr = none) {heap : LibcHeap}
    (hlive : heap.live =
      (Blocks.give (some ptr) tracker.heap.live).take (some (newPtr, size.toNat))) :
    tracker.Follows event
      (({ tracker with heap := heap }.remove ptr).add event.env.room newPtr size).2 := by
  obtain ⟨hconfig, hmap, hheap, hrecorded⟩ :=
    Tracker.rerecord_follows { tracker with heap := heap } hconstructed hptr
      hnewPtr ((hwithin.give (some ptr)).none_of_none hunused) event.env.room size
  refine ⟨hconfig, hmap, ?_, ?_, ?_⟩
  · rw [hheap, hreleased, hobtained]
    exact hlive
  · rw [hobtained, hreleased]
    rintro address bytes ⟨rfl, rfl⟩
    exact ⟨hnewPtr, hunused⟩
  · rw [hrecorded, hforgotten, hobtained]
    rfl

/-- A `realloc` of a block drops its record, then records what it returns. -/
theorem Tracker.realloc_follows (hconstructed : tracker.gAllocations.isSome)
    (hwithin : Blocks.Within tracker.recorded tracker.heap.live) {ptr size : Word}
    (hptr : ptr ≠ nullptr) {env : HookEnv}
    (hstep : tracker.step ⟨.realloc ptr size, env⟩ = some after) :
    tracker.Follows ⟨.realloc ptr size, env⟩ after := by
  have hforgotten : HookEvent.forgotten ⟨.realloc ptr size, env⟩ = some ptr := by
    simp [HookEvent.forgotten, hptr]
  obtain ⟨newPtr, heap, hreal, rfl⟩ : ∃ newPtr heap,
      realRealloc env.answer ptr size.toNat tracker.heap = some (newPtr, heap) ∧
        after = (({ tracker with heap := heap }.remove ptr).add env.room newPtr size).2 := by
    rw [Tracker.step] at hstep
    simp only [realloc, bind, Option.bind] at hstep
    split at hstep
    · contradiction
    · next result hreal =>
        refine ⟨result.1, result.2, hreal, ?_⟩
        rw [← Tracker.finish_snd]
        simpa [hptr] using hstep.symm
  unfold realRealloc at hreal
  rw [if_neg hptr] at hreal
  split_ifs at hreal with hlive hsize
  · obtain ⟨rfl, rfl⟩ := hreal
    apply Tracker.follows_of_dropped hconstructed hptr hforgotten
    · simp [HookEvent.obtained, hptr, hsize]
    · simp [HookEvent.released, hsize, hforgotten, Blocks.give, LibcHeap.release]
  · cases hanswer : env.answer with
    | refuse =>
        rw [hanswer] at hreal
        obtain ⟨rfl, rfl⟩ := hreal
        apply Tracker.follows_of_dropped hconstructed hptr hforgotten
        · simp [HookEvent.obtained, hptr, hsize, hanswer]
        · simp [HookEvent.released, hsize, hanswer, Blocks.give]
    | inPlace =>
        rw [hanswer] at hreal
        obtain ⟨rfl, rfl⟩ := hreal
        apply Tracker.follows_of_replaced hconstructed hwithin hptr hptr hforgotten
        · simp [HookEvent.released, hanswer, hforgotten]
        · simp [HookEvent.obtained, hptr, hsize, hanswer]
        · exact Function.update_self ..
        · exact (Function.update_idem _ _ _).symm
    | block address =>
        rw [hanswer] at hreal
        simp only [Option.ite_none_right_eq_some, Option.some.injEq, Prod.mk.injEq] at hreal
        obtain ⟨hfresh, rfl, rfl⟩ := hreal
        apply Tracker.follows_of_replaced hconstructed hwithin hptr hfresh.1 hforgotten
        · simp [HookEvent.released, hanswer, hforgotten]
        · simp [HookEvent.obtained, hptr, hsize, hanswer]
        · have hne : address ≠ ptr := by
            rintro rfl
            simp [hfresh.2] at hlive
          exact (Function.update_of_ne hne ..).trans hfresh.2
        · rfl

/-- Every call of a hook, whatever it is answered. -/
theorem Tracker.step_follows (hconstructed : tracker.gAllocations.isSome)
    (hwithin : Blocks.Within tracker.recorded tracker.heap.live)
    (hstep : tracker.step event = some after) : tracker.Follows event after := by
  rcases event with ⟨call, env⟩
  cases call with
  | malloc size =>
      obtain ⟨ptr, heap, hreal, rfl⟩ := malloc_cases hstep
      rw [Tracker.finish_snd]
      exact Tracker.follows_of_realMalloc hconstructed hwithin hreal rfl rfl rfl
  | free ptr => exact Tracker.free_follows hconstructed hstep
  | calloc nmemb size =>
      obtain ⟨ptr, heap, hreal, rfl⟩ := calloc_cases hstep
      rw [Tracker.finish_snd]
      apply Tracker.follows_of_realMalloc hconstructed hwithin hreal rfl rfl
      simp only [HookEvent.obtained]
      split_ifs <;> rfl
  | realloc ptr size =>
      by_cases hptr : ptr = nullptr
      · subst hptr
        obtain ⟨ptr, heap, hreal, rfl⟩ := realloc_nullptr_cases hstep
        rw [Tracker.finish_snd]
        apply Tracker.follows_of_realMalloc hconstructed hwithin hreal
        · simp [HookEvent.forgotten]
        · simp [HookEvent.released, HookEvent.forgotten]
        · simp [HookEvent.obtained]
      · exact Tracker.realloc_follows hconstructed hwithin hptr hstep
  | memalign alignment size =>
      obtain ⟨ptr, heap, hreal, rfl⟩ := memalign_cases hstep
      rw [Tracker.finish_snd]
      exact Tracker.follows_of_realMalloc hconstructed hwithin hreal rfl rfl rfl
  | posixMemalign memptr alignment size =>
      rcases posixMemalign_cases hstep with ⟨hrefuse, rfl⟩ | ⟨ptr, heap, -, hreal, rfl⟩
      · obtain ⟨answer, room⟩ := env
        obtain rfl : answer = .refuse := hrefuse
        have hnone : HookEvent.obtained
            ⟨.posixMemalign memptr alignment size, ⟨.refuse, room⟩⟩ = none := rfl
        refine ⟨rfl, hconstructed, rfl, nofun, ?_⟩
        rw [hnone, ite_self]
        exact (ite_self _).symm
      · exact Tracker.follows_of_realMalloc hconstructed hwithin hreal rfl rfl rfl

end Follows

/-- The framework next to the blocks that it owes a report. -/
structure Ledger where
  framework : Framework
  owed : Blocks

def Ledger.initial (actions : CrashSignal → SigAction) (altStack : Option AltStack)
    (disk : Disk) : Ledger where
  framework := Framework.initial actions altStack disk
  owed := fun _ => none

def Framework.tracks (f : Framework) : Bool :=
  f.process.core.config.enableLeakDetection

/-- A block that is obtained while leak detection is on is owed until it is given
back. -/
def Ledger.owedAfter (s : Ledger) : FrameworkEvent → Blocks
  | .hook event =>
      (s.owed.give event.released).take (if s.framework.tracks then event.obtained else none)
  | _ => s.owed

def Ledger.step (s : Ledger) (event : FrameworkEvent) : Option Ledger :=
  (s.framework.step event).map fun framework =>
    { framework := framework, owed := s.owedAfter event }

/-- The map of the hooks holds the blocks that are owed and no others. -/
def Ledger.MapExact (s : Ledger) : Prop :=
  s.framework.tracker.recorded = s.owed

/-- With leak detection on, no `realloc` of a block that is owed fails and the pool has
room for every record; with it off, no block that is owed is given back. -/
def Ledger.Keeps (s : Ledger) (event : FrameworkEvent) : Prop :=
  ∀ call, event = .hook call →
    if s.framework.tracks then
      (∀ ptr, call.forgotten = some ptr → call.released = none → s.owed ptr = none) ∧
        (call.obtained ≠ none → call.env.room = true)
    else ∀ ptr, call.released = some ptr → s.owed ptr = none

def Ledger.Within (s : Ledger) : Prop :=
  Blocks.Within s.owed s.framework.heap.live

section Ledger

variable {s next : Ledger} {event : FrameworkEvent}

/-- What a call gives back is what its hook drops, or nothing. -/
theorem HookEvent.released_cases (event : HookEvent) :
    event.released = event.forgotten ∨ event.released = none ∧ event.obtained = none := by
  rcases event with ⟨call, env⟩
  cases call with
  | realloc ptr size =>
      simp only [released]
      split_ifs with hfails
      · right
        refine ⟨rfl, ?_⟩
        simp [obtained, hfails.1, hfails.2, RealAnswer.placed]
      · exact Or.inl rfl
  | malloc | free | calloc | memalign | posixMemalign => exact Or.inl rfl

/-- Dropping one record and making another is right exactly when the record was to be
dropped and the other was made. -/
theorem HookEvent.records_eq_iff (call : HookEvent) {owed : Blocks}
    (hfresh : ∀ address size, call.obtained = some (address, size) →
      Blocks.give call.released owed address = none) :
    (owed.give call.forgotten).take (if call.env.room then call.obtained else none) =
        (owed.give call.released).take call.obtained ↔
      (∀ ptr, call.forgotten = some ptr → call.released = none → owed ptr = none) ∧
        (call.obtained ≠ none → call.env.room = true) := by
  rcases call.released_cases with hsame | ⟨hkept, hnone⟩
  · have hdropped : ∀ ptr, call.forgotten = some ptr → call.released = none →
        owed ptr = none := by
      intro ptr hforgotten hreleased
      rw [hsame, hforgotten] at hreleased
      contradiction
    rw [hsame] at hfresh ⊢
    cases hroom : call.env.room with
    | true => exact iff_of_true rfl ⟨hsame ▸ hdropped, fun _ => rfl⟩
    | false =>
        cases hobtained : call.obtained with
        | none =>
            exact iff_of_true rfl ⟨hsame ▸ hdropped, fun hne => absurd rfl hne⟩
        | some block =>
            refine iff_of_false ?_ fun hkeeps => ?_
            · intro heq
              have hat := congrFun heq block.1
              simp only [Bool.false_eq_true, if_false, Blocks.take, Option.elim_none,
                Option.elim_some, Function.update_self] at hat
              rw [hfresh block.1 block.2 hobtained] at hat
              contradiction
            · have hroom' := hkeeps.2 (Option.some_ne_none block)
              contradiction
  · rw [hkept, hnone, ite_self]
    cases hforgotten : call.forgotten with
    | none => exact iff_of_true rfl ⟨nofun, fun hne => absurd rfl hne⟩
    | some ptr =>
        change Function.update owed ptr none = owed ↔ _
        rw [Function.update_eq_self_iff]
        constructor
        · intro hptr
          refine ⟨?_, fun hne => absurd rfl hne⟩
          rintro _ ⟨rfl⟩ _
          exact hptr.symm
        · intro hkeeps
          exact (hkeeps.1 ptr rfl rfl).symm

/-- Nothing is dropped that was not owed. -/
theorem Blocks.give_eq_self_iff {owed : Blocks} {ptr : Option Word} :
    owed = owed.give ptr ↔ ∀ p, ptr = some p → owed p = none := by
  cases ptr with
  | none => exact iff_of_true rfl nofun
  | some ptr =>
      rw [eq_comm]
      change Function.update owed ptr none = owed ↔ _
      rw [Function.update_eq_self_iff, eq_comm]
      simp

/-- The memory of the process and the map, as the reports leave them. -/
def Framework.SameMemory (f f' : Framework) : Prop :=
  f'.heap = f.heap ∧ f'.tracker.recorded = f.tracker.recorded

theorem Framework.SameMemory.trans {f f' f'' : Framework} (hfirst : f.SameMemory f')
    (hsecond : f'.SameMemory f'') : f.SameMemory f'' :=
  ⟨hsecond.1.trans hfirst.1, hsecond.2.trans hfirst.2⟩

theorem Framework.report_memory (f : Framework) (method : ReporterMethod) (data : Json) :
    f.SameMemory (f.report method data) := by
  rw [report]
  split <;> exact ⟨rfl, rfl⟩

theorem Framework.reportScan_memory (trace : Word → List StackFrame) (reported : List Word)
    (f : Framework) : f.SameMemory (f.reportScan trace reported) := by
  induction reported generalizing f with
  | nil => exact ⟨rfl, rfl⟩
  | cons id reported ih =>
      exact (f.report_memory .reportHighCpu (highCpuJson id (trace id))).trans (ih _)

theorem Framework.reportLeftovers_memory (typeName : Word → Word → Bytes) (f : Framework) :
    f.SameMemory (f.reportLeftovers typeName) := by
  have hleaks : f.SameMemory
      ((f.leakReport typeName).elim f fun data => f.report .reportLeaks data) := by
    cases f.leakReport typeName with
    | none => exact ⟨rfl, rfl⟩
    | some data => exact f.report_memory .reportLeaks data
  rw [reportLeftovers]
  cases f.process.io.reportLeakedFds with
  | none => exact hleaks
  | some data => exact hleaks.trans (report_memory _ .reportIoLeak data)

/-- Only a call of a hook changes the memory. -/
theorem Framework.step_memory {f next : Framework} {event : FrameworkEvent}
    (hother : ∀ call, event ≠ .hook call) (hstep : f.step event = some next) :
    f.SameMemory next := by
  simp only [step] at hstep
  split at hstep
  · contradiction
  cases event with
  | init config memory sigstksz =>
      obtain rfl := Option.some.inj hstep
      exact ⟨rfl, f.tracker.ensureInit_recorded⟩
  | shutdown typeName leaksMs ioLeakMs =>
      dsimp only at hstep
      split at hstep
      · split at hstep
        · obtain rfl := Option.some.inj hstep
          exact f.reportLeftovers_memory typeName
        · contradiction
      · obtain rfl := Option.some.inj hstep
        exact ⟨rfl, rfl⟩
  | hook call => exact absurd rfl (hother call)
  | openFd call fd | closeFd fd | sigaction sig action =>
      obtain rfl := Option.some.inj hstep
      exact ⟨rfl, rfl⟩
  | scan sysconf samples trace =>
      dsimp only at hstep
      split at hstep
      · obtain rfl := Option.some.inj hstep
        exact f.reportScan_memory trace _
      · contradiction
  | crash sig trace =>
      dsimp only at hstep
      split at hstep
      · obtain rfl := Option.some.inj hstep
        exact f.report_memory .reportCrash _
      · obtain rfl := Option.some.inj hstep
        exact ⟨rfl, rfl⟩

theorem Framework.step_hook {f next : Framework} {call : HookEvent}
    (hstep : f.step (.hook call) = some next) :
    ∃ after, f.tracker.ensureInit.step call = some after ∧
      next = { f with gAllocations := after.gAllocations, heap := after.heap } := by
  simp only [step] at hstep
  split at hstep
  · contradiction
  · obtain ⟨after, hafter, rfl⟩ := Option.map_eq_some_iff.mp hstep
    exact ⟨after, hafter, rfl⟩

/-- What a call makes of the map and the memory of a framework whose map is exact. -/
theorem Ledger.hook_follows {call : HookEvent} (hwithin : s.Within) (hexact : s.MapExact)
    {framework : Framework} (hstep : s.framework.step (.hook call) = some framework) :
    Blocks.Within (s.owedAfter (.hook call)) framework.heap.live ∧
      (framework.tracker.recorded = s.owedAfter (.hook call) ↔ s.Keeps (.hook call)) := by
  obtain ⟨after, hafter, rfl⟩ := Framework.step_hook hstep
  have hrecorded : s.framework.tracker.ensureInit.recorded = s.owed :=
    s.framework.tracker.ensureInit_recorded.trans hexact
  have hbefore : Blocks.Within s.framework.tracker.ensureInit.recorded
      s.framework.tracker.ensureInit.heap.live := by
    rw [hrecorded]
    exact hwithin
  have hfollows := Tracker.step_follows rfl hbefore hafter
  have hfresh : ∀ address size, call.obtained = some (address, size) →
      Blocks.give call.released s.owed address = none := fun address size hobtained =>
    (hwithin.give call.released).none_of_none (hfollows.fresh address size hobtained).2
  have hlive : after.heap.live =
      (Blocks.give call.released s.framework.heap.live).take call.obtained := hfollows.live
  have hmap : after.recorded =
      if s.framework.tracks then
        (s.owed.give call.forgotten).take (if call.env.room then call.obtained else none)
      else s.owed := by
    rw [← hrecorded]
    exact hfollows.recorded
  have hkeeps : s.Keeps (.hook call) ↔
      if s.framework.tracks then
        (∀ ptr, call.forgotten = some ptr → call.released = none → s.owed ptr = none) ∧
          (call.obtained ≠ none → call.env.room = true)
      else ∀ ptr, call.released = some ptr → s.owed ptr = none := by
    constructor
    · intro h
      exact h call rfl
    · rintro h _ ⟨rfl⟩
      exact h
  change Blocks.Within ((s.owed.give call.released).take
      (if s.framework.tracks then call.obtained else none)) after.heap.live ∧
    (after.recorded = (s.owed.give call.released).take
      (if s.framework.tracks then call.obtained else none) ↔ _)
  rw [hkeeps, hmap, hlive]
  cases s.framework.tracks with
  | true => exact ⟨(hwithin.give _).take _, call.records_eq_iff hfresh⟩
  | false =>
      refine ⟨(hwithin.give _).take_right fun address size hobtained =>
        (hfollows.fresh address size hobtained).2, ?_⟩
      exact Blocks.give_eq_self_iff

/-- One event: the blocks that are owed stay allocated, and a map that is exact stays so
if and only if the event keeps it. -/
theorem Ledger.step_mapExact_iff (hwithin : s.Within) (hexact : s.MapExact)
    (hstep : s.step event = some next) : next.Within ∧ (next.MapExact ↔ s.Keeps event) := by
  obtain ⟨framework, hframework, rfl⟩ := Option.map_eq_some_iff.mp hstep
  by_cases hhook : ∃ call, event = .hook call
  · obtain ⟨call, rfl⟩ := hhook
    exact hook_follows hwithin hexact hframework
  · have hother : ∀ call, event ≠ .hook call := fun call heq => hhook ⟨call, heq⟩
    obtain ⟨hheap, hrecorded⟩ := Framework.step_memory hother hframework
    have howed : s.owedAfter event = s.owed := by
      cases event with
      | hook call => exact absurd rfl (hother call)
      | init | shutdown | openFd | closeFd | sigaction | scan | crash => rfl
    refine ⟨?_, iff_of_true ?_ fun call heq => absurd heq (hother call)⟩
    · rw [Within, howed, hheap]
      exact hwithin
    · rw [MapExact, howed, hrecorded]
      exact hexact

end Ledger

/-- Over any sequence of sessions and anything that the application does in them and
between them, one event after another with none that throws: the map always holds exactly
the blocks obtained under leak detection and not given back since if and only if every
call keeps it. -/
theorem leakMap_exact_iff (actions : CrashSignal → SigAction) (altStack : Option AltStack)
    (disk : Disk) (events : List FrameworkEvent) (final : Ledger)
    (hrun : run Ledger.step (Ledger.initial actions altStack disk) events = some final) :
    Throughout Ledger.step Ledger.MapExact (Ledger.initial actions altStack disk) events ↔
      Along Ledger.step Ledger.Keeps (Ledger.initial actions altStack disk) events := by
  have hwithin : (Ledger.initial actions altStack disk).Within := nofun
  have hexact : (Ledger.initial actions altStack disk).MapExact := rfl
  apply throughout_iff_along (fun s => s.Within ∧ s.MapExact) _ _ ⟨hwithin, hexact⟩ hexact
    along_true hrun
  · rintro s event next ⟨hwithin, hexact⟩ _ hkeeps hstep
    obtain ⟨hnext, hiff⟩ := Ledger.step_mapExact_iff hwithin hexact hstep
    exact ⟨hnext, hiff.mpr hkeeps⟩
  · rintro s event next ⟨hwithin, hexact⟩ _ hstep
    exact (Ledger.step_mapExact_iff hwithin hexact hstep).2

namespace LedgerWitness

open OptInWitness

def begin : Ledger :=
  Ledger.initial actions none { writable := true, files := ∅ }

/-- A block of each of two sessions with leak detection, one of them moved, and a block
of the session between them. -/
def threeSessions : List FrameworkEvent :=
  [.init leaking 0 0, .hook ⟨.malloc 24, ⟨.block 0x1000, true⟩⟩,
    .hook ⟨.realloc 0x1000 48, ⟨.block 0x2000, true⟩⟩, .shutdown noNames 10 10,
    .init {} 0 0, .hook ⟨.malloc 8, ⟨.block 0x1000, true⟩⟩, .shutdown noNames 20 20,
    .init leaking 0 0, .hook ⟨.calloc 2 8, ⟨.block 0x3000, true⟩⟩,
    .hook ⟨.realloc 0x1000 16, ⟨.refuse, true⟩⟩, .shutdown noNames 30 30]

theorem threeSessions_runs : (run Ledger.step begin threeSessions).isSome := by
  decide +kernel

theorem threeSessions_exact_iff :
    Throughout Ledger.step Ledger.MapExact begin threeSessions ↔
      Along Ledger.step Ledger.Keeps begin threeSessions :=
  leakMap_exact_iff actions none { writable := true, files := ∅ } threeSessions _
    (Option.some_get threeSessions_runs).symm

end LedgerWitness

end Domovoy
