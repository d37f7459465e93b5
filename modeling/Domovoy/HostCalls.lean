/-
The hooked calls of the host over the pool that keeps their records: what the host is
given back when the pool cannot supply the memory for a record.
-/
import Domovoy.Sessions
import Domovoy.IoHooks
import Domovoy.StlAllocator
import Domovoy.Transition

namespace Domovoy

open WordAlign Transition

/-- What a hooked function returns. -/
inductive HostResult where
  | pointer (ptr : Word)
  | status (res : Nat) (memptr : Option Word)
  | void
  | fd (fd : Int)
deriving DecidableEq

/-- The block that a call hands to the host. -/
def HostResult.address : HostResult → Word
  | .pointer ptr => ptr
  | .status res memptr => if res = 0 then memptr.getD nullptr else nullptr
  | .void => nullptr
  | .fd _ => nullptr

/-- The real function behind an allocation hook. -/
def HookCall.real (answer : RealAnswer) (call : HookCall) (heap : LibcHeap) :
    Option (HostResult × LibcHeap) :=
  match call with
  | .malloc size =>
      (realMalloc answer size.toNat heap).map fun (ptr, heap) => (.pointer ptr, heap)
  | .free ptr => (realFree ptr heap).map fun heap => (.void, heap)
  | .calloc nmemb size =>
      (realCalloc answer nmemb.toNat size.toNat heap).map
        fun (ptr, heap) => (.pointer ptr, heap)
  | .realloc ptr size =>
      (realRealloc answer ptr size.toNat heap).map
        fun (newPtr, heap) => (.pointer newPtr, heap)
  | .memalign alignment size =>
      (realMemalign answer alignment.toNat size.toNat heap).map
        fun (ptr, heap) => (.pointer ptr, heap)
  | .posixMemalign memptr alignment size =>
      (realPosixMemalign answer memptr alignment.toNat size.toNat heap).map
        fun (res, memptr, heap) => (.status res memptr, heap)

/-- An allocation hook with what it returns. -/
def Tracker.call (env : HookEnv) (call : HookCall) (tracker : Tracker) :
    Option (Except Thrown HostResult × Tracker) :=
  match call with
  | .malloc size =>
      (malloc env size tracker).map fun (result, tracker) =>
        (result.map .pointer, tracker)
  | .free ptr => (free ptr tracker).map fun tracker => (.ok .void, tracker)
  | .calloc nmemb size =>
      (calloc env nmemb size tracker).map fun (result, tracker) =>
        (result.map .pointer, tracker)
  | .realloc ptr size =>
      (realloc env ptr size tracker).map fun (result, tracker) =>
        (result.map .pointer, tracker)
  | .memalign alignment size =>
      (memalign env alignment size tracker).map fun (result, tracker) =>
        (result.map .pointer, tracker)
  | .posixMemalign memptr alignment size =>
      (posixMemalign env memptr alignment size tracker).map fun (result, tracker) =>
        (result.map fun (res, memptr) => .status res memptr, tracker)

theorem Tracker.step_eq_call (tracker : Tracker) (event : HookEvent) :
    tracker.step event = (tracker.call event.env event.call).map Prod.snd := by
  obtain ⟨call, env⟩ := event
  cases call <;> simp [step, call, Function.comp_def]

/-- The address whose record a hook drops. -/
def HookCall.erased : HookCall → Word
  | .free ptr => ptr
  | .realloc ptr _ => ptr
  | _ => nullptr

/-- The size that a hook records. -/
def HookCall.size : HookCall → Word
  | .malloc size => size
  | .free _ => 0
  | .calloc nmemb size => nmemb * size
  | .realloc _ size => size
  | .memalign _ size => size
  | .posixMemalign _ _ size => size

/-- What a hook does to the map once the real function has returned. -/
def Tracker.settle (room : Bool) (call : HookCall) (value : HostResult)
    (tracker : Tracker) : Except Thrown HostResult × Tracker :=
  let (result, tracker) := (tracker.remove call.erased).add room value.address call.size
  (result.map fun _ => value, tracker)

theorem Tracker.settle_of_kept (room : Bool) {call : HookCall} (value : HostResult)
    (tracker : Tracker) (herased : call.erased = nullptr) :
    tracker.settle room call value =
      ((tracker.add room value.address call.size).1.map fun _ => value,
        (tracker.add room value.address call.size).2) := by
  rw [settle, herased, remove_null]

theorem Tracker.finish_eq_settle (room : Bool) (call : HookCall) (ptr : Word)
    (tracker : Tracker) (herased : call.erased = nullptr) :
    ((tracker.finish room ptr call.size).1.map HostResult.pointer,
        (tracker.finish room ptr call.size).2) =
      tracker.settle room call (.pointer ptr) := by
  rw [settle_of_kept room _ tracker herased, finish, HostResult.address]
  rcases tracker.add room ptr call.size with ⟨result, after⟩
  cases result <;> rfl

/-- `malloc`, `calloc` and `memalign` record the pointer and return it. -/
theorem Tracker.map_finish_eq (room : Bool) (call : HookCall) (tracker : Tracker)
    (herased : call.erased = nullptr) (answered : Option (Word × LibcHeap)) :
    ((answered.bind fun (ptr, heap) =>
        some (Tracker.finish room ptr call.size { tracker with heap := heap })).map
          fun (result, tracker) => (result.map HostResult.pointer, tracker)) =
      (answered.map fun (ptr, heap) => (HostResult.pointer ptr, heap)).map
        fun (value, heap) =>
          Tracker.settle room call value { tracker with heap := heap } := by
  cases answered with
  | none => rfl
  | some pair => exact congrArg some (finish_eq_settle room call pair.1 _ herased)

theorem Tracker.finish_eq_settle_realloc (tracker : Tracker) (room : Bool)
    (ptr newPtr size : Word) :
    (((if ptr = nullptr then tracker else tracker.remove ptr).finish
          room newPtr size).1.map HostResult.pointer,
        ((if ptr = nullptr then tracker else tracker.remove ptr).finish
          room newPtr size).2) =
      tracker.settle room (.realloc ptr size) (.pointer newPtr) := by
  have hremove : (if ptr = nullptr then tracker else tracker.remove ptr) =
      tracker.remove ptr := by
    split
    · next hnull => rw [hnull, remove_null]
    · rfl
  rw [hremove, settle, finish, HostResult.address, HookCall.erased, HookCall.size]
  rcases (tracker.remove ptr).add room newPtr size with ⟨result, after⟩
  cases result <;> rfl

/-- Every allocation hook calls its real function and then settles the map. -/
theorem Tracker.call_eq (env : HookEnv) (call : HookCall) (tracker : Tracker) :
    tracker.call env call =
      (call.real env.answer tracker.heap).map fun (value, heap) =>
        Tracker.settle env.room call value { tracker with heap := heap } := by
  cases call with
  | malloc size => exact map_finish_eq env.room (.malloc size) tracker rfl _
  | free ptr =>
      rw [Tracker.call, free, HookCall.real]
      change (((realFree ptr tracker.heap).bind _).map _) = _
      cases realFree ptr tracker.heap with
      | none => rfl
      | some heap =>
          simp only [Option.map_some, Option.bind_some, settle,
            HostResult.address, HookCall.erased, add_null]
          rfl
  | calloc nmemb size => exact map_finish_eq env.room (.calloc nmemb size) tracker rfl _
  | realloc ptr size =>
      rw [Tracker.call, realloc, HookCall.real]
      cases realRealloc env.answer ptr size.toNat tracker.heap with
      | none => rfl
      | some pair =>
          exact congrArg some (finish_eq_settle_realloc _ env.room ptr pair.1 size)
  | memalign alignment size =>
      exact map_finish_eq env.room (.memalign alignment size) tracker rfl _
  | posixMemalign memptr alignment size =>
      rw [Tracker.call, posixMemalign, HookCall.real]
      cases realPosixMemalign env.answer memptr alignment.toNat size.toNat
        tracker.heap with
      | none => rfl
      | some triple =>
          obtain ⟨res, stored, heap⟩ := triple
          let after : Tracker := { tracker with heap := heap }
          have hsettle := after.settle_of_kept env.room (.status res stored)
            (show HookCall.erased (.posixMemalign memptr alignment size) = nullptr from rfl)
          rw [HookCall.size] at hsettle
          simp only [Option.map_some]
          rw [hsettle]
          cases stored with
          | none => simp [HostResult.address, add_null, Except.map, after]
          | some ptr =>
              by_cases hrecord : res = 0 ∧ ptr ≠ nullptr
              · rcases hadd : after.add env.room ptr size with ⟨result, last⟩
                cases result <;>
                  simp [HostResult.address, hrecord, hadd, Except.map, after]
              · have haddress : HostResult.address (.status res (some ptr)) = nullptr := by
                  simpa [HostResult.address] using hrecord
                simp [haddress, hrecord, add_null, Except.map, after]

/-- Settling a call needs a map entry that is not there yet. -/
def Tracker.needsEntry (call : HookCall) (value : HostResult) (tracker : Tracker) : Bool :=
  value.address ≠ nullptr && tracker.config.enableLeakDetection &&
    (tracker.remove call.erased).gAllocations.any
      fun allocations => decide (value.address ∉ allocations)

/-- The only way in which a record can fail. -/
theorem Tracker.add_fst (room : Bool) (ptr size : Word) (tracker : Tracker) :
    (tracker.add room ptr size).1 =
      if room = false ∧ ptr ≠ nullptr ∧ tracker.config.enableLeakDetection = true ∧
        ∃ allocations ∈ tracker.gAllocations, ptr ∉ allocations then .error .badAlloc
      else .ok () := by
  by_cases hptr : ptr = nullptr
  · simp [add, addAllocation, hptr]
  · cases hconfig : tracker.config.enableLeakDetection with
    | false => simp [add, addAllocation, hconfig]
    | true =>
        cases hmap : tracker.gAllocations with
        | none => simp [add, addAllocation, hptr, hconfig, hmap]
        | some allocations =>
            by_cases hmem : ptr ∈ allocations <;> cases room <;>
              simp [add, addAllocation, hptr, hconfig, hmap, insertOrAssign, hmem,
                Except.map]

theorem Tracker.settle_fst (room : Bool) (call : HookCall) (value : HostResult)
    (tracker : Tracker) :
    (tracker.settle room call value).1 =
      if room = false ∧ tracker.needsEntry call value = true then .error .badAlloc
      else .ok value := by
  have hneeds : tracker.needsEntry call value = true ↔
      value.address ≠ nullptr ∧
        (tracker.remove call.erased).config.enableLeakDetection = true ∧
          ∃ allocations ∈ (tracker.remove call.erased).gAllocations,
            value.address ∉ allocations := by
    simp [needsEntry, remove, Option.any_eq_true, and_assoc]
  simp only [settle, add_fst, hneeds]
  split <;> rfl

theorem Tracker.settle_heap (room : Bool) (call : HookCall) (value : HostResult)
    (tracker : Tracker) : (tracker.settle room call value).2.heap = tracker.heap :=
  ((tracker.remove call.erased).add_effect room value.address call.size).1

theorem Tracker.remove_recorded_of_ne (tracker : Tracker) {ptr address : Word}
    (hne : address ≠ ptr) :
    (tracker.remove ptr).recorded address = tracker.recorded address := by
  by_cases hptr : ptr = nullptr
  · rw [hptr, remove_null]
  · cases hconfig : tracker.config.enableLeakDetection with
    | false => rw [remove_disabled hconfig]
    | true => rw [remove_recorded hconfig hptr, Function.update_of_ne hne]

/-- The records of other blocks are as before. -/
theorem Tracker.settle_recorded (room : Bool) (call : HookCall) (value : HostResult)
    (tracker : Tracker) {address : Word} (herased : address ≠ call.erased)
    (hvalue : address ≠ value.address) :
    (tracker.settle room call value).2.recorded address = tracker.recorded address := by
  have hadd := ((tracker.remove call.erased).add_effect room value.address call.size).2
  rw [← tracker.remove_recorded_of_ne herased, settle]
  rcases hadd with hsame | hupdated
  · exact congrFun hsame address
  · rw [hupdated, Function.update_of_ne hvalue]

variable {Fs : Type}

/-- What the hooks and the real functions behind them work on. -/
structure HostState (Fs : Type) where
  tracker : Tracker
  io : IoWorld Fs

/-- The hooked functions that keep a record, and `free`; an allocation with what the
real allocator answers. -/
inductive HostCall where
  | alloc (call : HookCall) (answer : RealAnswer)
  | open (call : OpenCall)
  | socket (domain type protocol : Int)
deriving DecidableEq

/-- What the real function returns to the hook, and the state behind it then. -/
def HostCall.real (libc : LibcIo Fs) (call : HostCall) (s : HostState Fs) :
    Option (HostResult × HostState Fs) :=
  match call with
  | .alloc call answer =>
      (call.real answer s.tracker.heap).map fun (value, heap) =>
        (value, { s with tracker := { s.tracker with heap := heap } })
  | .open call =>
      let (fd, fs) :=
        openAnswer (libc.function call.function) call.path call.oflag call.mode s.io
      some (.fd fd, { s with io := { s.io with fs := fs } })
  | .socket domain type protocol =>
      let (fd, fs) := libc.socketFn domain type protocol s.io.fs
      some (.fd fd, { s with io := { s.io with fs := fs } })

/-- The hook, with room in the pool for one record or without. -/
def HostCall.hooked (libc : LibcIo Fs) (room : Bool) (call : HostCall)
    (s : HostState Fs) : Option (Except Thrown HostResult × HostState Fs) :=
  match call with
  | .alloc call answer =>
      (s.tracker.call ⟨answer, room⟩ call).map fun (result, tracker) =>
        (result, { s with tracker := tracker })
  | .open call =>
      let (result, io) := call.hooked (initIoHooks libc) room s.io
      some (result.map .fd, { s with io := io })
  | .socket domain type protocol =>
      let (result, io) := hookedSocket (initIoHooks libc) room domain type protocol s.io
      some (result.map .fd, { s with io := io })

/-- The record of the call needs memory from the pool. -/
def HostCall.needsEntry (call : HostCall) (value : HostResult) (s : HostState Fs) : Bool :=
  match call, value with
  | .alloc call _, value => s.tracker.needsEntry call value
  | _, .fd fd => s.io.monitor.needsEntry fd
  | _, _ => false

/-- What a hook does once the real function has returned. -/
def HostState.settle (room : Bool) (call : HostCall) (value : HostResult)
    (s : HostState Fs) : Except Thrown HostResult × HostState Fs :=
  match call, value with
  | .alloc call _, value =>
      let (result, tracker) := s.tracker.settle room call value
      (result, { s with tracker := tracker })
  | .open call, .fd fd =>
      let (result, io) := s.io.finish fd (IoMonitor.tryOnOpen room fd call.path)
      (result.map .fd, { s with io := io })
  | .socket _ _ _, .fd fd =>
      let (result, io) := s.io.finish fd (IoMonitor.tryOnSocket room fd)
      (result.map .fd, { s with io := io })
  | _, value => (.ok value, s)

/-- Each hook is the call of its real function and what is done after it. -/
theorem HostCall.hooked_eq (libc : LibcIo Fs) (room : Bool) (call : HostCall)
    (s : HostState Fs) :
    call.hooked libc room s =
      (call.real libc s).map fun (value, s) => s.settle room call value := by
  cases call with
  | alloc call answer =>
      rw [hooked, real, Tracker.call_eq, Option.map_map, Option.map_map]
      rfl
  | «open» call =>
      rw [hooked, OpenCall.hooked_resolved]
      rfl
  | socket domain type protocol => rfl

theorem IoWorld.finish_tryRecord_fst (room : Bool) (fd : Int) (info : FdInfo)
    (world : IoWorld Fs) :
    (world.finish fd (IoMonitor.tryRecord room fd info)).1.map HostResult.fd =
      if room = false ∧ world.monitor.needsEntry fd = true then .error .badAlloc
      else .ok (.fd fd) := by
  rw [finish]
  split
  · simp only [IoMonitor.tryRecord_fst]
    by_cases hfails : room = false ∧ world.monitor.needsEntry fd = true
    · simp only [hfails, and_self, if_true, Except.map]
    · simp only [if_neg hfails, Except.map]
  · next hnegative => simp [IoMonitor.needsEntry, hnegative, Except.map]

theorem IoWorld.finish_tryRecord_lookup (room : Bool) (fd : Int) (info : FdInfo)
    (world : IoWorld Fs) {fd' : Int} (hne : fd' ≠ fd) :
    (world.finish fd (IoMonitor.tryRecord room fd info)).2.monitor.openFds.lookup fd' =
      world.monitor.openFds.lookup fd' := by
  rw [finish]
  split
  · exact IoMonitor.tryRecord_lookup room fd info world.monitor hne
  · rfl

/-- A hook returns the value of its real function unless it needs an entry and has no
room for it. -/
theorem HostState.settle_fst (room : Bool) (call : HostCall) (value : HostResult)
    (s : HostState Fs) :
    (s.settle room call value).1 =
      if room = false ∧ call.needsEntry value s = true then .error .badAlloc
      else .ok value := by
  cases call with
  | alloc call answer => exact Tracker.settle_fst room call value s.tracker
  | «open» call =>
      cases value with
      | fd fd => exact IoWorld.finish_tryRecord_fst room fd (FdInfo.ofPath call.path) s.io
      | pointer | status | void => simp [settle, HostCall.needsEntry]
  | socket domain type protocol =>
      cases value with
      | fd fd => exact IoWorld.finish_tryRecord_fst room fd FdInfo.ofSocket s.io
      | pointer | status | void => simp [settle, HostCall.needsEntry]

/-- The address whose record a call drops. -/
def HostCall.erased : HostCall → Word
  | .alloc call _ => call.erased
  | _ => nullptr

/-- Nothing but the records of the call's own block or descriptor has changed. -/
structure HostState.OthersKept (call : HostCall) (value : HostResult)
    (before after : HostState Fs) : Prop where
  heap : after.tracker.heap = before.tracker.heap
  fs : after.io.fs = before.io.fs
  blocks : ∀ address, address ≠ call.erased → address ≠ value.address →
    after.tracker.recorded address = before.tracker.recorded address
  descriptors : ∀ fd, value ≠ .fd fd →
    after.io.monitor.openFds.lookup fd = before.io.monitor.openFds.lookup fd

theorem HostState.OthersKept.refl (call : HostCall) (value : HostResult)
    (s : HostState Fs) : s.OthersKept call value s :=
  ⟨rfl, rfl, fun _ _ _ => rfl, fun _ _ => rfl⟩

theorem HostState.OthersKept.of_finish (call : HostCall) (room : Bool) (fd : Int)
    (info : FdInfo) (s : HostState Fs) :
    s.OthersKept call (.fd fd)
      { s with io := (s.io.finish fd (IoMonitor.tryRecord room fd info)).2 } := by
  refine ⟨rfl, s.io.finish_fs fd _, fun _ _ _ => rfl, fun fd' hne => ?_⟩
  have hother : fd' ≠ fd := fun heq => hne (congrArg HostResult.fd heq.symm)
  exact s.io.finish_tryRecord_lookup room fd info hother

/-- Whether the hook returns or throws, only its own record is touched. -/
theorem HostState.settle_othersKept (room : Bool) (call : HostCall) (value : HostResult)
    (s : HostState Fs) : s.OthersKept call value (s.settle room call value).2 := by
  cases call with
  | alloc call answer =>
      refine ⟨s.tracker.settle_heap room call value, rfl, ?_, fun _ _ => rfl⟩
      intro address herased hvalue
      exact s.tracker.settle_recorded room call value herased hvalue
  | «open» call =>
      cases value with
      | fd fd => exact OthersKept.of_finish _ room fd (FdInfo.ofPath call.path) s
      | pointer | status | void => exact OthersKept.refl _ _ s
  | socket domain type protocol =>
      cases value with
      | fd fd => exact OthersKept.of_finish _ room fd FdInfo.ofSocket s
      | pointer | status | void => exact OthersKept.refl _ _ s

/-- The process: what the hooks work on, and the pool of their records. -/
structure Host (Fs : Type) where
  state : HostState Fs
  pool : Pool

/-- Whether the pool meets the requests that a container makes for one entry; `none` when
its block list is broken. -/
def Pool.room (os : Mmap) (requests : List StlRequest) (pool : Pool) :
    Option (Bool × Pool) :=
  match stlAllocateAll os requests pool with
  | (.ok (), pool) => some (true, pool)
  | (.error .badAlloc, pool) => some (false, pool)
  | (.error _, _) => none

/-- The pool is asked only for an entry that is not there yet. -/
def Pool.entryRoom (os : Mmap) (requests : List StlRequest) (needed : Bool)
    (pool : Pool) : Option (Bool × Pool) :=
  if needed then pool.room os requests else some (true, pool)

/-- How a hooked call ends; one that waits for a mutex of its own never returns. -/
inductive HostOutcome where
  | returns (value : HostResult)
  | throws (thrown : Thrown)
  | hangs

/-- A `throw` asks the hooked `malloc` for the memory of its exception, still under the
mutexes of the refused request. `waits`: the record of that memory needs one of them. -/
inductive ThrowPath where
  | leaves
  | waits
deriving DecidableEq

/-- The hooks keep a record of the memory of an exception, too. -/
def Tracker.tracks (tracker : Tracker) : Bool :=
  tracker.config.enableLeakDetection && tracker.gAllocations.isSome

/-- An exception leaves the hook, unless its own memory holds it up. -/
def HostOutcome.of (tracks : Bool) (path : ThrowPath) :
    Except Thrown HostResult → HostOutcome
  | .ok value => .returns value
  | .error thrown => if tracks ∧ path = .waits then .hangs else .throws thrown

/-- A hooked call: the real function, then the entry, if one is needed. The memory of an
exception that leaves is a `malloc` of its own. -/
def Host.call (os : Mmap) (libc : LibcIo Fs) (requests : List StlRequest)
    (path : ThrowPath) (call : HostCall) (host : Host Fs) :
    Option (HostOutcome × Host Fs) := do
  let (value, real) ← call.real libc host.state
  let (room, pool) ← host.pool.entryRoom os requests (call.needsEntry value real)
  let (result, state) ← call.hooked libc room host.state
  return (.of host.state.tracker.tracks path result, ⟨state, pool⟩)

/-- What happens in the process: the hooked calls, each with what its container asks of
the pool, and everything else that changes the state they work on. -/
inductive HostStep (Fs : Type) where
  | call (call : HostCall) (requests : List StlRequest) (path : ThrowPath)
  | close (fd : Int)
  | enable
  | disable
  | configure (config : DomovoyConfig)
  | pool (call : PoolCall)
  | kernel (fs : Fs)

/-- Nothing follows a call that hangs. -/
def Host.step (os : Mmap) (libc : LibcIo Fs) (host : Host Fs) :
    HostStep Fs → Option (Host Fs)
  | .call call requests path =>
      match host.call os libc requests path call with
      | some (.hangs, _) => none
      | some (_, after) => some after
      | none => none
  | .close fd =>
      let io := (hookedClose (initIoHooks libc) fd host.state.io).2
      some { host with state := { host.state with io := io } }
  | .enable =>
      let io := { host.state.io with monitor := host.state.io.monitor.enable }
      some { host with state := { host.state with io := io } }
  | .disable =>
      let io := { host.state.io with monitor := host.state.io.monitor.disable }
      some { host with state := { host.state with io := io } }
  | .configure config =>
      let tracker := { host.state.tracker with config := config }
      some { host with state := { host.state with tracker := tracker } }
  | .pool call => some { host with pool := (PoolHistory.call os ⟨host.pool, []⟩ call).pool }
  | .kernel fs =>
      some { host with state := { host.state with io := { host.state.io with fs := fs } } }

/-- The arguments of a call are ones that its real function takes, and the block list of
the pool is whole. -/
def Host.Possible (os : Mmap) (libc : LibcIo Fs) (host : Host Fs) :
    HostStep Fs → Prop
  | .call call requests path => (host.call os libc requests path call).isSome
  | _ => True

/-- The host gets exactly what the real function returned, and beside it at most the
record of this call is made or missing. -/
def Host.Unbroken (os : Mmap) (libc : LibcIo Fs) (host : Host Fs) :
    HostStep Fs → Prop
  | .call call requests path =>
      ∀ outcome after, host.call os libc requests path call = some (outcome, after) →
        ∃ value real, call.real libc host.state = some (value, real) ∧
          outcome = .returns value ∧ real.OthersKept call value after.state
  | _ => True

/-- If the call needs a new map entry, the pool has memory for it. -/
def Host.Supplied (os : Mmap) (libc : LibcIo Fs) (host : Host Fs) :
    HostStep Fs → Prop
  | .call call requests _ =>
      ∀ value real, call.real libc host.state = some (value, real) →
        call.needsEntry value real = true → host.pool.Supplies os requests
  | _ => True

theorem Pool.room_eq_some_iff {os : Mmap} {requests : List StlRequest} {pool after : Pool}
    {room : Bool} (hroom : pool.room os requests = some (room, after)) :
    room = true ↔ pool.Supplies os requests := by
  rw [← stlAllocateAll_ok_iff]
  rw [Pool.room] at hroom
  rcases hasked : stlAllocateAll os requests pool with ⟨result, last⟩
  rw [hasked] at hroom
  cases result with
  | ok =>
      simp only [Option.some.injEq, Prod.mk.injEq] at hroom
      exact iff_of_true hroom.1.symm rfl
  | error error =>
      cases error with
      | badAlloc =>
          simp only [Option.some.injEq, Prod.mk.injEq] at hroom
          simp [← hroom.1]
      | fault | diverges => simp at hroom

/-- What one hooked call does: the real function answers, and the hook settles with the
room that the pool has. -/
theorem Host.call_cases {os : Mmap} {libc : LibcIo Fs} {host after : Host Fs}
    {call : HostCall} {requests : List StlRequest} {path : ThrowPath}
    {outcome : HostOutcome}
    (hcall : host.call os libc requests path call = some (outcome, after)) :
    ∃ value real room, call.real libc host.state = some (value, real) ∧
      (call.needsEntry value real = true →
        (room = true ↔ host.pool.Supplies os requests)) ∧
      outcome = .of host.state.tracker.tracks path (real.settle room call value).1 ∧
      after.state = (real.settle room call value).2 := by
  simp only [Host.call, Option.bind_eq_bind, Option.bind_eq_some_iff] at hcall
  obtain ⟨⟨value, real⟩, hreal, ⟨room, pool⟩, hroom, ⟨result', state⟩, hhooked, hresult⟩ :=
    hcall
  rw [HostCall.hooked_eq, hreal, Option.map_some, Option.some.injEq] at hhooked
  obtain ⟨rfl, rfl⟩ := Prod.mk.inj (Option.some.inj hresult)
  refine ⟨value, real, room, hreal, fun hneeds => ?_, ?_, ?_⟩
  · rw [hneeds] at hroom
    exact Pool.room_eq_some_iff hroom
  · exact congrArg (HostOutcome.of _ path) (congrArg Prod.fst hhooked).symm
  · exact (congrArg Prod.snd hhooked).symm

/-- Only a result is returned. -/
theorem HostOutcome.of_eq_returns {tracks : Bool} {path : ThrowPath}
    {result : Except Thrown HostResult} {value : HostResult} :
    HostOutcome.of tracks path result = .returns value ↔ result = .ok value := by
  cases result with
  | ok value' => simp [of]
  | error thrown =>
      by_cases hhangs : tracks = true ∧ path = .waits
      · simp [of, hhangs]
      · simp [of, hhangs]

/-- One hooked call, in any state of the process. -/
theorem Host.call_unbroken_iff {os : Mmap} {libc : LibcIo Fs} {host : Host Fs}
    {call : HostCall} {requests : List StlRequest} {path : ThrowPath}
    (hpossible : host.Possible os libc (.call call requests path)) :
    host.Unbroken os libc (.call call requests path) ↔
      host.Supplied os libc (.call call requests path) := by
  obtain ⟨⟨outcome, after⟩, hcall⟩ := Option.isSome_iff_exists.mp hpossible
  obtain ⟨value, real, room, hreal, hroom, houtcome, hstate⟩ := Host.call_cases hcall
  constructor
  · intro hunbroken value' real' hreal' hneeds
    obtain ⟨rfl, rfl⟩ := Prod.mk.inj (Option.some.inj (hreal.symm.trans hreal'))
    obtain ⟨value', real', hreal', hreturns, -⟩ := hunbroken outcome after hcall
    rw [houtcome, HostOutcome.of_eq_returns, HostState.settle_fst] at hreturns
    apply (hroom hneeds).mp
    by_contra hnone
    rw [if_pos ⟨Bool.eq_false_of_not_eq_true hnone, hneeds⟩] at hreturns
    contradiction
  · intro hsupplied outcome' after' hcall'
    obtain ⟨rfl, rfl⟩ := Prod.mk.inj (Option.some.inj (hcall.symm.trans hcall'))
    refine ⟨value, real, hreal, ?_, ?_⟩
    · rw [houtcome, HostOutcome.of_eq_returns, HostState.settle_fst, if_neg]
      rintro ⟨hnone, hneeds⟩
      rw [(hroom hneeds).mpr (hsupplied value real hreal hneeds)] at hnone
      contradiction
    · rw [hstate]
      exact real.settle_othersKept room call value

/-- A run in which every call comes to an end is one of possible calls. -/
theorem Host.possible_of_run {os : Mmap} {libc : LibcIo Fs} {start final : Host Fs}
    {steps : List (HostStep Fs)}
    (hrun : run (Host.step os libc) start steps = some final) :
    Along (Host.step os libc) (Host.Possible os libc) start steps := by
  apply Along.imp (fun _ _ _ _ _ _ => trivial) _ trivial (along_enabled hrun)
  rintro host step - ⟨next, hnext⟩
  cases step with
  | call call requests path =>
      by_contra hnone
      rw [Possible, Option.not_isSome_iff_eq_none] at hnone
      simp [Host.step, hnone] at hnext
  | close | enable | disable | configure | pool | kernel => trivial

/-- In every run of the process, whatever the operating system answers to the pool: each
hooked call returns to the host what its real function returned if and only if each that
needs a new map entry finds memory for it. -/
theorem hosts_unbroken_iff (os : Mmap) (libc : LibcIo Fs) (start : Host Fs)
    (steps : List (HostStep Fs))
    (hpossible : Along (Host.step os libc) (Host.Possible os libc) start steps) :
    Along (Host.step os libc) (Host.Unbroken os libc) start steps ↔
      Along (Host.step os libc) (Host.Supplied os libc) start steps := by
  apply along_congr (fun _ => True) (fun _ _ _ _ _ _ => trivial) _ trivial hpossible
  intro host step _ hpossible
  cases step with
  | call call requests path => exact Host.call_unbroken_iff hpossible
  | close | enable | disable | configure | pool | kernel => exact Iff.rfl

namespace HostWitness

/-- The operating system maps one block and then has no memory left. -/
def oneBlock : Mmap := fun call _ _ => if call = 0 then some 0x10000000000 else none

/-- Leak detection is on and nothing is recorded. -/
def start : Host KernelTrace where
  state :=
    { tracker :=
        { config := { enableLeakDetection := true }
          gAllocations := some ∅
          heap := LibcHeap.initial }
      io := { monitor := IoMonitor.initial, fs := { nextFd := 3, calls := [] } } }
  pool := Pool.initial

/-- A map with no slots yet makes its first sixteen. -/
def firstSlots : List StlRequest := [{ n := 272, sizeofT := 1, alignofT := 8 }]

def mallocStep : HostStep KernelTrace :=
  .call (.alloc (.malloc 16) (.block 0x5000)) firstSlots .leaves

def openStep : HostStep KernelTrace :=
  .call (.open { function := .open, path := none, oflag := 0, mode := 0 }) firstSlots
    .leaves

/-- The pool serves the record of a block and then that of a descriptor. -/
def served : List (HostStep KernelTrace) :=
  [.pool (.initializePool 0), mallocStep, .enable, openStep, .close 3]

theorem served_unbroken_iff :
    Along (Host.step oneBlock traceLibc) (Host.Unbroken oneBlock traceLibc) start served ↔
      Along (Host.step oneBlock traceLibc) (Host.Supplied oneBlock traceLibc) start
        served :=
  hosts_unbroken_iff oneBlock traceLibc start served (Host.possible_of_run rfl)

/-- Leak detection is off, and another client has taken the whole block. -/
def exhausted : List (HostStep KernelTrace) :=
  [.configure {}, .pool (.initializePool 0), .pool (.allocate 0x200000 8), .enable,
    openStep]

/-- The file is open as descriptor 3, but `open` throws `bad_alloc`. -/
theorem exhausted_not_unbroken :
    ¬ Along (Host.step oneBlock traceLibc) (Host.Unbroken oneBlock traceLibc) start
      exhausted := by
  intro hall
  have hopen := ((((hall.2 _ rfl).2 _ rfl).2 _ rfl).2 _ rfl).1
  obtain ⟨value, real, -, hreturns, -⟩ := hopen _ _ rfl
  contradiction

end HostWitness

end Domovoy
