/-
Leak detection where it enumerates the whole heap of the process, on macOS and Windows,
next to Linux: what a shutdown reports there, whatever the configuration asks for.
-/
import Domovoy.LeakDelivery

namespace Domovoy

open WordAlign

/-- `vm_range_t`. -/
structure VmRange where
  address : Word
  size : Word
deriving DecidableEq

/-- `malloc_introspection_t`: the ranges in use that the enumerator hands to the recorder,
call by call; `none` for a null enumerator. -/
structure MallocIntrospection where
  enumerator : Option (List (List VmRange))

/-- `malloc_zone_t`, with null for no introspection. -/
structure MallocZone where
  introspect : Option MallocIntrospection

/-- The recorder that the enumerators call. -/
def blockEnumerator (allocations : List AllocationRecord) (ranges : List VmRange) :
    List AllocationRecord :=
  ranges.foldl (fun allocations range => allocations ++ [⟨range.address, range.size, false⟩])
    allocations

/-- One turn of the loop over the zones; a zone that is null or cannot be enumerated is
passed over. -/
def enumerateZone (allocations : List AllocationRecord) (zone : Option MallocZone) :
    List AllocationRecord :=
  match zone.bind fun zone => zone.introspect.bind MallocIntrospection.enumerator with
  | some calls => calls.foldl blockEnumerator allocations
  | none => allocations

/-- `PROCESS_HEAP_ENTRY`. -/
structure ProcessHeapEntry where
  lpData : Word
  cbData : BitVec 32
  wFlags : BitVec 16
deriving DecidableEq

/-- `PROCESS_HEAP_ENTRY_BUSY`. -/
def ProcessHeapEntry.Busy (entry : ProcessHeapEntry) : Prop :=
  entry.wFlags &&& 0x0004 ≠ 0

instance (entry : ProcessHeapEntry) : Decidable entry.Busy :=
  inferInstanceAs (Decidable (_ ≠ _))

/-- One turn of the loop over the heaps; `HeapWalk` shows the entries one by one. -/
def walkHeap (allocations : List AllocationRecord) (heap : List ProcessHeapEntry) :
    List AllocationRecord :=
  heap.foldl
    (fun allocations entry =>
      if entry.Busy then allocations ++ [⟨entry.lpData, entry.cbData.setWidth 64, false⟩]
      else allocations)
    allocations

/-- The heaps of a Windows process; one of them is that of `operator new`, whose next block
will be at `newBlock`. -/
structure WindowsHeaps where
  heaps : List (List ProcessHeapEntry)
  processHeap : Nat
  newBlock : Word

/-- `std::vector<HANDLE> heaps(numHeaps)`. -/
def WindowsHeaps.vectorOfHandles (w : WindowsHeaps) : List (List ProcessHeapEntry) :=
  w.heaps.modify w.processHeap fun heap =>
    ⟨w.newBlock, BitVec.ofNat 32 (8 * w.heaps.length), 0x0004⟩ :: heap

/-- Where leak detection finds the blocks. -/
inductive HeapSource where
  | linux (gAllocations : Option AllocMap)
  /-- `none` when the zones cannot be had. -/
  | apple (zoneArray : Option (List (Option MallocZone)))
  | windows (w : WindowsHeaps)

def enumerateHeap : HeapSource → List AllocationRecord
  | .linux gAllocations => getLinuxTrackedAllocations gAllocations
  | .apple zoneArray =>
      match zoneArray with
      | some zones => zones.foldl enumerateZone []
      | none => []
  | .windows w => if 0 < w.heaps.length then w.vectorOfHandles.foldl walkHeap [] else []

/-- The blocks in use, as the map, the zones or the heaps have them. -/
def HeapSource.InUse (address : Word) (size : Nat) : HeapSource → Prop
  | .linux gAllocations => recordedIn gAllocations address = some size
  | .apple zoneArray =>
      ∃ zones zone introspection calls ranges range, zoneArray = some zones ∧
        some zone ∈ zones ∧ zone.introspect = some introspection ∧
          introspection.enumerator = some calls ∧ ranges ∈ calls ∧ range ∈ ranges ∧
            range.address = address ∧ range.size.toNat = size
  | .windows w =>
      ∃ heap ∈ w.vectorOfHandles, ∃ entry ∈ heap, entry.Busy ∧ entry.lpData = address ∧
        entry.cbData.toNat = size

/-- No two blocks in use have the same address. -/
def HeapSource.Apart (source : HeapSource) : Prop :=
  ((enumerateHeap source).map AllocationRecord.address).Nodup

instance (source : HeapSource) : Decidable source.Apart :=
  inferInstanceAs (Decidable (List.Nodup _))

def VmRange.record (range : VmRange) : AllocationRecord :=
  ⟨range.address, range.size, false⟩

def ProcessHeapEntry.record (entry : ProcessHeapEntry) : AllocationRecord :=
  ⟨entry.lpData, entry.cbData.setWidth 64, false⟩

/-- The calls of the recorder for one zone. -/
def zoneCalls (zone : Option MallocZone) : List (List VmRange) :=
  (zone.bind fun zone => zone.introspect.bind MallocIntrospection.enumerator).getD []

/-- A loop whose turns append. -/
theorem foldl_of_append {α β : Type} {f : List β → α → List β} {g : α → List β}
    (happend : ∀ acc x, f acc x = acc ++ g x) (acc : List β) (xs : List α) :
    xs.foldl f acc = acc ++ xs.flatMap g := by
  have hf : f = fun acc x => acc ++ g x := funext fun acc => funext (happend acc)
  rw [hf, List.foldl_append_eq_append, List.flatMap_def]

theorem blockEnumerator_eq (allocations : List AllocationRecord) (ranges : List VmRange) :
    blockEnumerator allocations ranges =
      allocations ++ ranges.flatMap fun range => [range.record] :=
  foldl_of_append (fun _ _ => rfl) allocations ranges

theorem enumerateZone_eq (allocations : List AllocationRecord) (zone : Option MallocZone) :
    enumerateZone allocations zone =
      allocations ++ (zoneCalls zone).flatMap fun ranges =>
        ranges.flatMap fun range => [range.record] := by
  rw [enumerateZone, zoneCalls]
  cases zone.bind fun zone => zone.introspect.bind MallocIntrospection.enumerator with
  | none => exact (List.append_nil allocations).symm
  | some calls => exact foldl_of_append blockEnumerator_eq allocations calls

theorem walkHeap_eq (allocations : List AllocationRecord) (heap : List ProcessHeapEntry) :
    walkHeap allocations heap =
      allocations ++ heap.flatMap fun entry => if entry.Busy then [entry.record] else [] := by
  apply foldl_of_append
  intro allocations entry
  by_cases hbusy : entry.Busy
  · simp only [hbusy, if_true]
    rfl
  · simp only [hbusy, if_false, List.append_nil]

theorem mem_zoneCalls_iff {zone : Option MallocZone} {ranges : List VmRange} :
    ranges ∈ zoneCalls zone ↔ ∃ z introspection calls, zone = some z ∧
      z.introspect = some introspection ∧ introspection.enumerator = some calls ∧
        ranges ∈ calls := by
  cases zone with
  | none => simp [zoneCalls]
  | some z =>
      rcases hintrospect : z.introspect with _ | ⟨_ | calls⟩ <;> simp [zoneCalls, hintrospect]

theorem enumerateHeap_apple (zones : List (Option MallocZone)) :
    enumerateHeap (.apple (some zones)) = zones.flatMap fun zone =>
      (zoneCalls zone).flatMap fun ranges => ranges.flatMap fun range => [range.record] := by
  rw [enumerateHeap, foldl_of_append enumerateZone_eq, List.nil_append]

theorem enumerateHeap_windows (w : WindowsHeaps) :
    enumerateHeap (.windows w) = w.vectorOfHandles.flatMap fun heap =>
      heap.flatMap fun entry => if entry.Busy then [entry.record] else [] := by
  rw [enumerateHeap, foldl_of_append walkHeap_eq, List.nil_append]
  split
  · rfl
  next hnone =>
    have hempty : w.heaps = [] := List.length_eq_zero_iff.mp (Nat.eq_zero_of_not_pos hnone)
    rw [WindowsHeaps.vectorOfHandles, hempty]
    simp

theorem ProcessHeapEntry.toNat_record_size (entry : ProcessHeapEntry) :
    entry.record.size.toNat = entry.cbData.toNat := by
  have hlt := entry.cbData.isLt
  simp only [record, BitVec.toNat_setWidth]
  omega

/-- A record for each block in use, and no other. -/
theorem mem_enumerateHeap_iff (source : HeapSource) (address : Word) (size : Nat) :
    (∃ alloc ∈ enumerateHeap source, alloc.address = address ∧ alloc.size.toNat = size) ↔
      source.InUse address size := by
  cases source with
  | linux gAllocations => exact ((recordedIn_lists gAllocations).eq_some_iff _ _).symm
  | apple zoneArray =>
      cases zoneArray with
      | none => simp [enumerateHeap, HeapSource.InUse]
      | some zones =>
          simp only [enumerateHeap_apple, HeapSource.InUse, List.mem_flatMap,
            List.mem_singleton, mem_zoneCalls_iff]
          constructor
          · rintro ⟨_, ⟨_, hzone, ranges, ⟨zone, introspection, calls, rfl, hintrospect,
              hcalls, hranges⟩, range, hrange, rfl⟩, rfl, rfl⟩
            exact ⟨zones, zone, introspection, calls, ranges, range, rfl, hzone, hintrospect,
              hcalls, hranges, hrange, rfl, rfl⟩
          · rintro ⟨_, zone, introspection, calls, ranges, range, ⟨rfl⟩, hzone, hintrospect,
              hcalls, hranges, hrange, rfl, rfl⟩
            exact ⟨range.record, ⟨some zone, hzone, ranges, ⟨zone, introspection, calls, rfl,
              hintrospect, hcalls, hranges⟩, range, hrange, rfl⟩, rfl, rfl⟩
  | windows w =>
      simp only [enumerateHeap_windows, HeapSource.InUse, List.mem_flatMap]
      constructor
      · rintro ⟨alloc, ⟨heap, hheap, entry, hentry, halloc⟩, rfl, rfl⟩
        by_cases hbusy : entry.Busy
        · rw [if_pos hbusy, List.mem_singleton] at halloc
          subst halloc
          exact ⟨heap, hheap, entry, hentry, hbusy, rfl, entry.toNat_record_size.symm⟩
        · rw [if_neg hbusy] at halloc
          exact absurd halloc List.not_mem_nil
      · rintro ⟨heap, hheap, entry, hentry, hbusy, rfl, rfl⟩
        refine ⟨entry.record, ⟨heap, hheap, entry, hentry, ?_⟩, rfl, entry.toNat_record_size⟩
        rw [if_pos hbusy]
        exact List.mem_singleton_self _

theorem enumerateHeap_unmarked (source : HeapSource) :
    ∀ alloc ∈ enumerateHeap source, alloc.marked = false := by
  intro alloc halloc
  cases source with
  | linux gAllocations => exact (recordedIn_lists gAllocations).unmarked alloc halloc
  | apple zoneArray =>
      cases zoneArray with
      | none => exact absurd halloc List.not_mem_nil
      | some zones =>
          simp only [enumerateHeap_apple, List.mem_flatMap, List.mem_singleton] at halloc
          obtain ⟨zone, -, ranges, -, range, -, rfl⟩ := halloc
          rfl
  | windows w =>
      simp only [enumerateHeap_windows, List.mem_flatMap] at halloc
      obtain ⟨heap, -, entry, -, hentry⟩ := halloc
      split at hentry
      · rw [List.mem_singleton.mp hentry]
        rfl
      · exact absurd hentry List.not_mem_nil

theorem enumerateHeap_lists {source : HeapSource} (hapart : source.Apart) {blocks : Blocks}
    (hblocks : ∀ address size, blocks address = some size ↔ source.InUse address size) :
    ListsBlocks blocks (enumerateHeap source) where
  unmarked := enumerateHeap_unmarked source
  distinct := hapart
  eq_some_iff := fun address size =>
    (hblocks address size).trans (mem_enumerateHeap_iff source address size).symm

/-- The handles of the heaps are themselves a block in use. -/
theorem WindowsHeaps.handles_inUse (w : WindowsHeaps) (hheap : w.processHeap < w.heaps.length) :
    ∃ size, (HeapSource.windows w).InUse w.newBlock size := by
  let handles : ProcessHeapEntry :=
    ⟨w.newBlock, BitVec.ofNat 32 (8 * w.heaps.length), 0x0004⟩
  have hmem : handles :: w.heaps[w.processHeap] ∈ w.vectorOfHandles := by
    rw [vectorOfHandles, List.mem_iff_getElem]
    exact ⟨w.processHeap, by simpa using hheap, by simp [handles]⟩
  have hbusy : handles.Busy := by
    change (0x0004 : BitVec 16) &&& 0x0004 ≠ 0
    decide
  exact ⟨_, _, hmem, handles, List.mem_cons_self, hbusy, rfl, rfl⟩

/-- A shutdown that returns, on any of the three systems, with any configuration and with a
directory that can be written to, leaves a report in the file for leaks that is about
exactly the blocks in use, if there is one, and otherwise leaves the file as it is; on
Windows there always is a block in use. -/
theorem platformLeakFile_exact (source : HeapSource) (hapart : source.Apart) (blocks : Blocks)
    (hblocks : ∀ address size, blocks address = some size ↔ source.InUse address size)
    (typeName : Word → Word → Bytes) (p q : Process) (reporter : JsonFileReporter)
    (hsession : p.InSession reporter) (leaksMs ioLeakMs : Nat)
    (hshutdown : p.shutdown
      { leakReport := runLeakDetection p.core.config typeName (enumerateHeap source),
        leaksMs := leaksMs, ioLeakMs := ioLeakMs } = (.ok (), q)) :
    ((∃ address, blocks address ≠ none) → ∃ data,
        q.disk.files.lookup (reportFile reporter.outputDir "domovoy_leaks" leaksMs) =
            some (some data) ∧
          ReportOfBlocks p.core.config blocks data) ∧
      ((∀ address, blocks address = none) →
        q.disk.files.lookup (reportFile reporter.outputDir "domovoy_leaks" leaksMs) =
          p.disk.files.lookup (reportFile reporter.outputDir "domovoy_leaks" leaksMs)) ∧
      ∀ w, source = .windows w → w.processHeap < w.heaps.length →
        ∃ address, blocks address ≠ none := by
  have hlists := enumerateHeap_lists hapart hblocks
  have hfile := (Process.shutdown_leaksFile hsession hshutdown).2
  have htotal : (leakTotals (enumerateHeap source)).totalLeaks =
      ((enumerateHeap source).filter fun alloc => !alloc.marked).length := by
    rw [leakTotals_eq]
  refine ⟨?_, ?_, ?_⟩
  · rintro ⟨address, hblock⟩
    have hleaks : ((enumerateHeap source).filter fun alloc => !alloc.marked) ≠ [] :=
      fun hnil => hblock (hlists.leaks_eq_nil_iff.mp hnil address)
    refine ⟨_, ?_, hlists.leakReport_ofBlocks p.core.config typeName⟩
    rw [hfile, runLeakDetection, htotal, if_pos (List.length_pos_iff.mpr hleaks)]
    rfl
  · intro hnone
    rw [hfile, runLeakDetection, htotal, hlists.leaks_eq_nil_iff.mpr hnone]
    rfl
  · rintro w rfl hheap
    obtain ⟨size, hinUse⟩ := w.handles_inUse hheap
    refine ⟨w.newBlock, ?_⟩
    rw [(hblocks w.newBlock size).mpr hinUse]
    exact Option.some_ne_none size

namespace EnumerationWitness

open ShutdownWitness

/-- A null zone, one that cannot be enumerated, and one with a block. -/
def oneBlock : HeapSource :=
  .apple (some [none, some ⟨none⟩, some ⟨some ⟨some [[⟨0x1000, 32⟩], []]⟩⟩])

def oneBlockOnly : Blocks :=
  Function.update (fun _ => none) 0x1000 (some 32)

theorem oneBlock_inUse_iff (address : Word) (size : Nat) :
    oneBlockOnly address = some size ↔ oneBlock.InUse address size := by
  have hlist : enumerateHeap oneBlock = [⟨0x1000, 32, false⟩] := rfl
  rw [← mem_enumerateHeap_iff, hlist]
  by_cases haddress : address = 0x1000
  · subst haddress
    simp [oneBlockOnly]
  · have hnone : oneBlockOnly address = none := Function.update_of_ne haddress _ _
    simp only [hnone, List.mem_singleton, exists_eq_left, Ne.symm haddress, false_and]
    exact iff_of_false (Option.some_ne_none size).symm id

/-- A session that has not asked for leak detection. -/
def leakless : Process :=
  session IoMonitor.initial

def oneBlockEnv : ShutdownEnv where
  leakReport := runLeakDetection leakless.core.config (fun _ _ => []) (enumerateHeap oneBlock)
  leaksMs := 1000
  ioLeakMs := 1001

theorem leakless_returns : (leakless.shutdown oneBlockEnv).1 = .ok () := by
  decide +kernel

theorem oneBlock_leakFile :
    ((∃ address, oneBlockOnly address ≠ none) → ∃ data,
        (leakless.shutdown oneBlockEnv).2.disk.files.lookup
            (reportFile reporter.outputDir "domovoy_leaks" 1000) = some (some data) ∧
          ReportOfBlocks leakless.core.config oneBlockOnly data) ∧
      ((∀ address, oneBlockOnly address = none) →
        (leakless.shutdown oneBlockEnv).2.disk.files.lookup
            (reportFile reporter.outputDir "domovoy_leaks" 1000) =
          leakless.disk.files.lookup (reportFile reporter.outputDir "domovoy_leaks" 1000)) ∧
      ∀ w, oneBlock = .windows w → w.processHeap < w.heaps.length →
        ∃ address, oneBlockOnly address ≠ none :=
  platformLeakFile_exact oneBlock (by decide) oneBlockOnly oneBlock_inUse_iff (fun _ _ => [])
    leakless _ reporter (session_inSession _) 1000 1001 (Prod.ext leakless_returns rfl)

end EnumerationWitness

end Domovoy
