/-
The report of `RunLeakDetection`: the leaked records, their sort, and the loop that builds
the summary and the detailed groups side by side.
-/
import Mathlib.Data.List.Sort
import Domovoy.Json
import Domovoy.KeyRuns
import Domovoy.Sessions

namespace Domovoy

open WordAlign KeyRuns

/-- What the first loop collects; the number of leaks is bounded by the memory that the
list itself takes. -/
structure LeakTotals where
  leakedAllocations : List AllocationRecord
  totalLeaks : Nat
  totalLeakedBytes : Word

def LeakTotals.visit (totals : LeakTotals) (alloc : AllocationRecord) : LeakTotals :=
  if alloc.marked then totals
  else
    { leakedAllocations := totals.leakedAllocations ++ [alloc]
      totalLeaks := totals.totalLeaks + 1
      totalLeakedBytes := totals.totalLeakedBytes + alloc.size }

def leakTotals (allocations : List AllocationRecord) : LeakTotals :=
  allocations.foldl LeakTotals.visit ⟨[], 0, 0⟩

/-- The comparator that the leaks are sorted with. -/
def AllocationRecord.Before (a b : AllocationRecord) : Prop :=
  if a.size ≠ b.size then b.size < a.size else a.address < b.address

instance (a b : AllocationRecord) : Decidable (a.Before b) :=
  inferInstanceAs
    (Decidable (if a.size ≠ b.size then b.size < a.size else a.address < b.address))

/-- `std::sort`. -/
def sortLeaks (leaks : List AllocationRecord) : List AllocationRecord :=
  leaks.insertionSort fun a b => ¬ b.Before a

def hexText (n : Nat) : Bytes :=
  (Nat.toDigits 16 n).map fun digit => UInt8.ofNat digit.toNat

/-- `snprintf` with "0x%zx". -/
def addressText (address : Word) : Bytes :=
  literal "0x" ++ hexText address.toNat

def addressJson (address : Word) : Json :=
  .string (addressText address)

/-- `leak_detail`, which names a type only when there is a name. -/
def leakDetailJson (alloc : AllocationRecord) (typeName : Bytes) : Json :=
  .object (("address", addressJson alloc.address) ::
    if typeName = [] then [] else [("type", .string typeName)])

/-- `current_leak_group`; null before any of its fields is set. -/
structure LeakGroup where
  size : Option Word
  addresses : List Json

def LeakGroup.json (group : LeakGroup) : Json :=
  .object (("addresses", .array group.addresses) ::
    match group.size with
    | some size => [("size", .number size.toNat)]
    | none => [])

/-- The variables of the second loop, and the two arrays of the report that it fills. -/
structure LeakLoop where
  currentSize : Word
  currentCount : Nat
  currentSampleAddresses : List Bytes
  currentLeakGroup : LeakGroup
  bySize : List Json
  leaksBySize : List Json

def LeakLoop.initial : LeakLoop where
  currentSize := 0
  currentCount := 0
  currentSampleAddresses := []
  currentLeakGroup := { size := none, addresses := [] }
  bySize := []
  leaksBySize := []

/-- `summary_item`. -/
def LeakLoop.summaryItem (s : LeakLoop) : Json :=
  .object [("count", .number s.currentCount),
    ("sample_addresses", .array (s.currentSampleAddresses.map .string)),
    ("size", .number s.currentSize.toNat)]

def LeakLoop.flushGroup (config : DomovoyConfig) (s : LeakLoop) : LeakLoop :=
  if 0 < s.currentCount then
    { s with
      bySize :=
        if config.enableLeakReportSummary then s.bySize ++ [s.summaryItem] else s.bySize
      leaksBySize :=
        if config.enableLeakReportDetails then s.leaksBySize ++ [s.currentLeakGroup.json]
        else s.leaksBySize }
  else s

/-- The start of a group, after the one before it has been flushed. -/
def LeakLoop.startGroup (config : DomovoyConfig) (size : Word) (s : LeakLoop) : LeakLoop :=
  { s with
    currentSize := size
    currentCount := 0
    currentSampleAddresses := []
    currentLeakGroup :=
      if config.enableLeakReportDetails then { size := some size, addresses := [] }
      else s.currentLeakGroup }

/-- What is done with every leak; `typeName` is what `resolve_type` returns. -/
def LeakLoop.addLeak (config : DomovoyConfig) (typeName : Word → Word → Bytes)
    (alloc : AllocationRecord) (s : LeakLoop) : LeakLoop :=
  { s with
    currentCount := s.currentCount + 1
    currentSampleAddresses :=
      if s.currentSampleAddresses.length < 100 then
        s.currentSampleAddresses ++ [addressText alloc.address]
      else s.currentSampleAddresses
    currentLeakGroup :=
      if config.enableLeakReportDetails then
        { s.currentLeakGroup with
          addresses := s.currentLeakGroup.addresses ++
            [leakDetailJson alloc (typeName alloc.address alloc.size)] }
      else s.currentLeakGroup }

def LeakLoop.visit (config : DomovoyConfig) (typeName : Word → Word → Bytes)
    (s : LeakLoop) (alloc : AllocationRecord) : LeakLoop :=
  let s :=
    if alloc.size ≠ s.currentSize then (s.flushGroup config).startGroup config alloc.size
    else s
  s.addLeak config typeName alloc

def leakLoop (config : DomovoyConfig) (typeName : Word → Word → Bytes)
    (leaks : List AllocationRecord) : LeakLoop :=
  (leaks.foldl (LeakLoop.visit config typeName) LeakLoop.initial).flushGroup config

/-- `report`, with the fields that the configuration asks for. -/
def leakReport (config : DomovoyConfig) (typeName : Word → Word → Bytes)
    (allocations : List AllocationRecord) : Json :=
  let totals := leakTotals allocations
  let loop := leakLoop config typeName (sortLeaks totals.leakedAllocations)
  .object
    ((if config.enableLeakReportDetails then [("leaks_by_size", .array loop.leaksBySize)]
      else []) ++
    (if config.enableLeakReportSummary then
      [("summary", .object [("by_size", .array loop.bySize),
        ("total_leaked_bytes", .number totals.totalLeakedBytes.toNat),
        ("total_leaks", .number totals.totalLeaks)])]
      else []) ++
    [("type", .string (literal "memory_leaks"))])

/-- What `RunLeakDetection` hands to the reporter. -/
def runLeakDetection (config : DomovoyConfig) (typeName : Word → Word → Bytes)
    (allocations : List AllocationRecord) : Option Json :=
  if 0 < (leakTotals allocations).totalLeaks then
    some (leakReport config typeName allocations)
  else none

/-- A field of an object. -/
def Json.field (name : String) : Json → Option Json
  | .object fields => fields.lookup name
  | _ => none

/-- The leaks of `allocations` that have this size. -/
def leaksOfSize (allocations : List AllocationRecord) (size : Word) :
    List AllocationRecord :=
  allocations.filter fun alloc => !alloc.marked && alloc.size == size

theorem leakTotals_eq (allocations : List AllocationRecord) :
    leakTotals allocations =
      { leakedAllocations := allocations.filter fun alloc => !alloc.marked
        totalLeaks := (allocations.filter fun alloc => !alloc.marked).length
        totalLeakedBytes :=
          ((allocations.filter fun alloc => !alloc.marked).map AllocationRecord.size).sum } := by
  induction allocations using List.reverseRecOn with
  | nil => rfl
  | append_singleton allocations alloc ih =>
      rw [leakTotals] at ih
      rw [leakTotals, List.foldl_append, ih, List.foldl_cons, List.foldl_nil,
        LeakTotals.visit]
      cases hmarked : alloc.marked with
      | true => simp [hmarked]
      | false => simp [hmarked]

theorem AllocationRecord.not_before_iff (a b : AllocationRecord) :
    ¬ b.Before a ↔ b.size < a.size ∨ a.size = b.size ∧ a.address ≤ b.address := by
  rw [Before]
  by_cases hsize : b.size = a.size
  · simp [hsize, BitVec.not_lt, BitVec.lt_irrefl]
  · have hne : ¬ a.size = b.size := fun h => hsize h.symm
    simp only [ne_eq, hsize, not_false_eq_true, if_true, hne, false_and, or_false]
    rw [BitVec.not_lt, BitVec.le_def, BitVec.lt_def]
    have hnat : b.size.toNat ≠ a.size.toNat := fun h => hsize (BitVec.eq_of_toNat_eq h)
    omega

instance : Std.Total fun a b : AllocationRecord => ¬ b.Before a where
  total a b := by
    simp only [AllocationRecord.not_before_iff, BitVec.le_def, BitVec.lt_def,
      ← BitVec.toNat_inj]
    omega

instance : IsTrans AllocationRecord fun a b => ¬ b.Before a where
  trans a b c := by
    simp only [AllocationRecord.not_before_iff, BitVec.le_def, BitVec.lt_def,
      ← BitVec.toNat_inj]
    omega

instance : IsTrans Word (· > ·) where
  trans a b c := by
    simp only [GT.gt, BitVec.lt_def]
    omega

instance : Std.Irrefl fun a b : Word => a > b where
  irrefl a := BitVec.lt_irrefl a

theorem perm_sortLeaks (leaks : List AllocationRecord) : (sortLeaks leaks).Perm leaks :=
  List.perm_insertionSort _ leaks

/-- The sorted leaks are sorted by size, and by address where the sizes agree. -/
theorem pairwise_sortLeaks (leaks : List AllocationRecord) :
    (sortLeaks leaks).Pairwise fun a b =>
      b.size < a.size ∨ a.size = b.size ∧ a.address ≤ b.address := by
  have hsorted := List.pairwise_insertionSort
    (fun a b : AllocationRecord => ¬ b.Before a) leaks
  exact hsorted.imp fun h => (AllocationRecord.not_before_iff _ _).mp h

/-- Leaks that compare equal are the same record, so that every sort gives this list. -/
theorem eq_sortLeaks {leaks sorted : List AllocationRecord}
    (hunmarked : ∀ alloc ∈ leaks, alloc.marked = false) (hperm : sorted.Perm leaks)
    (hsorted : sorted.Pairwise fun a b => ¬ b.Before a) : sorted = sortLeaks leaks := by
  refine List.Perm.eq_of_pairwise ?_ hsorted (List.pairwise_insertionSort _ leaks)
    (hperm.trans (perm_sortLeaks leaks).symm)
  intro a b ha hb hab hba
  have hmarked : a.marked = b.marked :=
    (hunmarked a (hperm.mem_iff.mp ha)).trans
      (hunmarked b ((perm_sortLeaks leaks).mem_iff.mp hb)).symm
  rw [AllocationRecord.not_before_iff, BitVec.lt_def, BitVec.le_def] at hab hba
  have hsize : a.size = b.size := by
    rcases hab with hab | ⟨hsize, -⟩
    · rcases hba with hba | ⟨hsize, -⟩
      · omega
      · exact hsize.symm
    · exact hsize
  have haddress : a.address.toNat = b.address.toNat := by
    rw [hsize] at hab hba
    omega
  rcases a with ⟨address, size, marked⟩
  rcases b with ⟨address', size', marked'⟩
  obtain rfl := hsize
  obtain rfl := hmarked
  obtain rfl := BitVec.eq_of_toNat_eq haddress
  rfl

/-- `summary_item` of a finished run. -/
def runItem (run : Word × List AllocationRecord) : Json :=
  .object [("count", .number run.2.length),
    ("sample_addresses",
      .array ((run.2.take 100).map fun alloc => addressJson alloc.address)),
    ("size", .number run.1.toNat)]

/-- `current_leak_group` of a run: the first of them has its size only where the size is not
the one that the loop starts with. -/
def runGroup (typeName : Word → Word → Bytes) (index : Nat)
    (run : Word × List AllocationRecord) : LeakGroup where
  size := if index = 0 ∧ run.1 = 0 then none else some run.1
  addresses := run.2.map fun alloc =>
    leakDetailJson alloc (typeName alloc.address alloc.size)

/-- What the variables of the loop hold after these finished runs and this part of the
next one. -/
structure LeakLoop.Holds (config : DomovoyConfig) (typeName : Word → Word → Bytes)
    (finished : List (Word × List AllocationRecord))
    (current : Word × List AllocationRecord) (s : LeakLoop) : Prop where
  size : s.currentSize = current.1
  count : s.currentCount = current.2.length
  samples : s.currentSampleAddresses =
    (current.2.take 100).map fun alloc => addressText alloc.address
  group : config.enableLeakReportDetails = true →
    s.currentLeakGroup = runGroup typeName finished.length current
  bySize : config.enableLeakReportSummary = true → s.bySize = finished.map runItem
  leaksBySize : config.enableLeakReportDetails = true →
    s.leaksBySize = finished.mapIdx fun index run => (runGroup typeName index run).json

section

variable {config : DomovoyConfig} {typeName : Word → Word → Bytes}
  {finished : List (Word × List AllocationRecord)}
  {current : Word × List AllocationRecord} {s : LeakLoop}

theorem LeakLoop.holds_initial :
    LeakLoop.initial.Holds config typeName [] (0, []) where
  size := rfl
  count := rfl
  samples := rfl
  group := fun _ => rfl
  bySize := fun _ => rfl
  leaksBySize := fun _ => rfl

/-- A flush finishes the current run. -/
theorem LeakLoop.Holds.flush (h : s.Holds config typeName finished current)
    (hcurrent : current.2 ≠ []) :
    (config.enableLeakReportSummary = true →
        (s.flushGroup config).bySize = (finished ++ [current]).map runItem) ∧
      (config.enableLeakReportDetails = true →
        (s.flushGroup config).leaksBySize = (finished ++ [current]).mapIdx
          fun index run => (runGroup typeName index run).json) := by
  have hcount : 0 < s.currentCount := by
    rw [h.count]
    exact List.length_pos_iff.mpr hcurrent
  rw [flushGroup, if_pos hcount]
  constructor
  · intro hsummary
    simp [hsummary, h.bySize hsummary, summaryItem, runItem, addressJson, h.count, h.samples,
      h.size, Function.comp_def]
  · intro hdetails
    simp [hdetails, h.leaksBySize hdetails, h.group hdetails, List.mapIdx_concat]

theorem take_append_singleton {α : Type} (n : Nat) (xs : List α) (x : α) :
    (xs ++ [x]).take n =
      if (xs.take n).length < n then xs.take n ++ [x] else xs.take n := by
  rw [List.length_take]
  by_cases hlength : xs.length < n
  · rw [if_pos (by omega), List.take_of_length_le (by simp; omega),
      List.take_of_length_le (by omega)]
  · rw [if_neg (by omega), List.take_append_of_le_length (by omega)]

/-- A leak goes into the current run. -/
theorem LeakLoop.Holds.addLeak (h : s.Holds config typeName finished current)
    (alloc : AllocationRecord) :
    (s.addLeak config typeName alloc).Holds config typeName finished
      (current.1, current.2 ++ [alloc]) where
  size := h.size
  count := by simp [LeakLoop.addLeak, h.count]
  samples := by
    rw [take_append_singleton, apply_ite (List.map _), List.map_append]
    simp only [LeakLoop.addLeak, h.samples, List.length_map, List.map_cons, List.map_nil]
  group := by
    intro hdetails
    simp [LeakLoop.addLeak, hdetails, h.group hdetails, runGroup]
  bySize := h.bySize
  leaksBySize := h.leaksBySize

/-- A leak of another size starts a run. -/
theorem LeakLoop.Holds.startGroup (h : s.Holds config typeName finished current)
    (hcurrent : current.2 ≠ []) (size : Word) :
    ((s.flushGroup config).startGroup config size).Holds config typeName
      (finished ++ [current]) (size, []) where
  size := rfl
  count := rfl
  samples := rfl
  group := by
    intro hdetails
    simp [LeakLoop.startGroup, hdetails, runGroup]
  bySize := (h.flush hcurrent).1
  leaksBySize := (h.flush hcurrent).2

theorem LeakLoop.startGroup_initial {size : Word} (hsize : size ≠ 0) :
    ((LeakLoop.initial.flushGroup config).startGroup config size).Holds config typeName []
      (size, []) where
  size := rfl
  count := rfl
  samples := rfl
  group := by
    intro hdetails
    have hnamed : ¬ (([] : List (Word × List AllocationRecord)).length = 0 ∧ size = 0) :=
      fun h => hsize h.2
    rw [LeakLoop.startGroup, if_pos hdetails, runGroup, if_neg hnamed]
    rfl
  bySize := fun _ => rfl
  leaksBySize := fun _ => rfl

/-- The loop invariant: the variables hold the runs of the leaks that have been visited. -/
def LeakLoop.Visited (config : DomovoyConfig) (typeName : Word → Word → Bytes)
    (leaks : List AllocationRecord) (s : LeakLoop) : Prop :=
  (leaks = [] ∧ s = LeakLoop.initial) ∨
    ∃ finished current, s.Holds config typeName finished current ∧
      IsRuns AllocationRecord.size (finished ++ [current]) leaks

theorem LeakLoop.Visited.visit {leaks : List AllocationRecord}
    (h : s.Visited config typeName leaks) (alloc : AllocationRecord) :
    (s.visit config typeName alloc).Visited config typeName (leaks ++ [alloc]) := by
  right
  rcases h with ⟨rfl, rfl⟩ | ⟨finished, ⟨size, members⟩, hholds, hruns⟩
  · have hsingle : IsRuns AllocationRecord.size [(alloc.size, [alloc])] [alloc] :=
      isRuns_single alloc
    have hstart : LeakLoop.initial.currentSize = 0 := rfl
    refine ⟨[], (alloc.size, [alloc]), ?_, hsingle⟩
    rw [LeakLoop.visit, hstart]
    by_cases hsize : alloc.size = 0
    · rw [if_neg (not_not.mpr hsize), hsize]
      exact LeakLoop.holds_initial.addLeak alloc
    · rw [if_pos hsize]
      exact (LeakLoop.startGroup_initial hsize).addLeak alloc
  · rw [LeakLoop.visit, hholds.size]
    by_cases hsize : alloc.size = size
    · rw [if_neg (not_not.mpr hsize)]
      exact ⟨finished, _, hholds.addLeak alloc, hruns.extend hsize⟩
    · rw [if_pos hsize]
      have hmembers : members ≠ [] :=
        hruns.nonempty (size, members) (List.mem_append_right _ List.mem_cons_self)
      exact ⟨finished ++ [(size, members)], _,
        (hholds.startGroup hmembers alloc.size).addLeak alloc, hruns.start hsize⟩

end

/-- The two arrays that the loop fills are those of the runs of the leaks. -/
theorem leakLoop_runs (config : DomovoyConfig) (typeName : Word → Word → Bytes)
    (leaks : List AllocationRecord) :
    ∃ runs, IsRuns AllocationRecord.size runs leaks ∧
      (config.enableLeakReportSummary = true →
        (leakLoop config typeName leaks).bySize = runs.map runItem) ∧
      (config.enableLeakReportDetails = true →
        (leakLoop config typeName leaks).leaksBySize =
          runs.mapIdx fun index run => (runGroup typeName index run).json) := by
  have hvisited : (leaks.foldl (LeakLoop.visit config typeName) LeakLoop.initial).Visited
      config typeName leaks := by
    induction leaks using List.reverseRecOn with
    | nil => exact Or.inl ⟨rfl, rfl⟩
    | append_singleton leaks alloc ih =>
        rw [List.foldl_append, List.foldl_cons, List.foldl_nil]
        exact ih.visit alloc
  rw [leakLoop]
  rcases hvisited with ⟨rfl, hinitial⟩ | ⟨finished, current, hholds, hruns⟩
  · exact ⟨[], isRuns_nil, fun _ => rfl, fun _ => rfl⟩
  · have hcurrent : current.2 ≠ [] :=
      hruns.nonempty current (List.mem_append_right _ List.mem_cons_self)
    exact ⟨finished ++ [current], hruns, hholds.flush hcurrent⟩

end Domovoy
