/-
The Linux allocation hooks after their initialisation: every real function is
resolved and the allocation map has been constructed.  A hook calls the real
function and keeps the map in step with it.
-/
import Mathlib.Data.List.AList
import Domovoy.LibcHeap

namespace Domovoy

open WordAlign

/-- `g_allocations`: the byte size recorded for each tracked address. -/
abbrev AllocMap := AList fun _ : Word => Word

/-- What the surroundings decide during one hook call: the real allocator's
answer, and whether the isolated pool can supply a new map entry. -/
structure HookEnv where
  answer : RealAnswer
  room : Bool
deriving DecidableEq, Repr

/-- A new entry needs memory from the pool; without it the map is unchanged and
`bad_alloc` is thrown. -/
def insertOrAssign (room : Bool) (ptr size : Word) (allocations : AllocMap) :
    Except Thrown AllocMap :=
  if room ∨ ptr ∈ allocations then .ok (allocations.insert ptr size)
  else .error .badAlloc

def addAllocation (config : DomovoyConfig) (room : Bool) (ptr size : Word)
    (gAllocations : Option AllocMap) : Except Thrown (Option AllocMap) :=
  if ptr = nullptr ∨ config.enableLeakDetection = false then .ok gAllocations
  else
    match gAllocations with
    | none => .ok none
    | some allocations => (insertOrAssign room ptr size allocations).map some

def removeAllocation (config : DomovoyConfig) (ptr : Word)
    (gAllocations : Option AllocMap) : Option AllocMap :=
  if ptr = nullptr ∨ config.enableLeakDetection = false then gAllocations
  else gAllocations.map fun allocations => allocations.erase ptr

/-- The state that the hooks read and write, next to the allocator behind
them. -/
structure Tracker where
  config : DomovoyConfig
  gAllocations : Option AllocMap
  heap : LibcHeap

def Tracker.add (room : Bool) (ptr size : Word) (tracker : Tracker) :
    Except Thrown Unit × Tracker :=
  match addAllocation tracker.config room ptr size tracker.gAllocations with
  | .ok gAllocations => (.ok (), { tracker with gAllocations := gAllocations })
  | .error thrown => (.error thrown, tracker)

def Tracker.remove (ptr : Word) (tracker : Tracker) : Tracker :=
  { tracker with
    gAllocations := removeAllocation tracker.config ptr tracker.gAllocations }

/-- Record what the real function returned, then return it. -/
def Tracker.finish (room : Bool) (ptr size : Word) (tracker : Tracker) :
    Except Thrown Word × Tracker :=
  match tracker.add room ptr size with
  | (.ok (), tracker) => (.ok ptr, tracker)
  | (.error thrown, tracker) => (.error thrown, tracker)

def malloc (env : HookEnv) (size : Word) (tracker : Tracker) :
    Option (Except Thrown Word × Tracker) := do
  let (ptr, heap) ← realMalloc env.answer size.toNat tracker.heap
  return { tracker with heap := heap }.finish env.room ptr size

def free (ptr : Word) (tracker : Tracker) : Option Tracker := do
  let tracker := tracker.remove ptr
  let heap ← realFree ptr tracker.heap
  return { tracker with heap := heap }

def calloc (env : HookEnv) (nmemb size : Word) (tracker : Tracker) :
    Option (Except Thrown Word × Tracker) := do
  let (ptr, heap) ← realCalloc env.answer nmemb.toNat size.toNat tracker.heap
  return { tracker with heap := heap }.finish env.room ptr (nmemb * size)

/-- The record of `ptr` is dropped after the real call, whatever it returned. -/
def realloc (env : HookEnv) (ptr size : Word) (tracker : Tracker) :
    Option (Except Thrown Word × Tracker) := do
  let (newPtr, heap) ← realRealloc env.answer ptr size.toNat tracker.heap
  let tracker := { tracker with heap := heap }
  let tracker := if ptr = nullptr then tracker else tracker.remove ptr
  return tracker.finish env.room newPtr size

def memalign (env : HookEnv) (alignment size : Word) (tracker : Tracker) :
    Option (Except Thrown Word × Tracker) := do
  let (ptr, heap) ←
    realMemalign env.answer alignment.toNat size.toNat tracker.heap
  return { tracker with heap := heap }.finish env.room ptr size

def posixMemalign (env : HookEnv) (memptr : Option Word) (alignment size : Word)
    (tracker : Tracker) : Option (Except Thrown (Nat × Option Word) × Tracker) := do
  let (res, memptr, heap) ←
    realPosixMemalign env.answer memptr alignment.toNat size.toNat tracker.heap
  let tracker := { tracker with heap := heap }
  match memptr with
  | some ptr =>
      if res = 0 ∧ ptr ≠ nullptr then
        match tracker.add env.room ptr size with
        | (.ok (), tracker) => return (.ok (res, memptr), tracker)
        | (.error thrown, tracker) => return (.error thrown, tracker)
      else return (.ok (res, memptr), tracker)
  | none => return (.ok (res, memptr), tracker)

/-- The hooked functions. -/
inductive HookCall where
  | malloc (size : Word)
  | free (ptr : Word)
  | calloc (nmemb size : Word)
  | realloc (ptr size : Word)
  | memalign (alignment size : Word)
  | posixMemalign (memptr : Option Word) (alignment size : Word)
deriving DecidableEq, Repr

/-- One call of the application with what its surroundings decide. -/
structure HookEvent where
  call : HookCall
  env : HookEnv
deriving DecidableEq, Repr

/-- The state after one complete call, whether it returned or threw; `none` when
the application may not make it or the allocator may not answer so. -/
def Tracker.step (tracker : Tracker) (event : HookEvent) : Option Tracker :=
  match event.call with
  | .malloc size => (Domovoy.malloc event.env size tracker).map Prod.snd
  | .free ptr => Domovoy.free ptr tracker
  | .calloc nmemb size => (Domovoy.calloc event.env nmemb size tracker).map Prod.snd
  | .realloc ptr size => (Domovoy.realloc event.env ptr size tracker).map Prod.snd
  | .memalign alignment size =>
      (Domovoy.memalign event.env alignment size tracker).map Prod.snd
  | .posixMemalign memptr alignment size =>
      (Domovoy.posixMemalign event.env memptr alignment size tracker).map Prod.snd

end Domovoy
