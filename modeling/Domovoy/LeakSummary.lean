/-
What the leak report says: the summary partitions the leaks by size, and the detailed
groups agree with it unless every leak has size zero.
-/
import Mathlib.Algebra.BigOperators.Group.List.Basic
import Domovoy.LeakReport
import Domovoy.OptIn

namespace Domovoy

open WordAlign KeyRuns

/-- A summary item as a reader takes it. -/
structure SummaryItem where
  size : Word
  count : Nat
  sampleAddresses : List Word
deriving DecidableEq, Repr

def SummaryItem.json (item : SummaryItem) : Json :=
  .object [("count", .number item.count),
    ("sample_addresses", .array (item.sampleAddresses.map addressJson)),
    ("size", .number item.size.toNat)]

/-- The count is that of the leaks of this size, and the samples are the least of their
addresses, in increasing order and a hundred at most. -/
structure SummaryItem.Exact (allocations : List AllocationRecord) (item : SummaryItem) :
    Prop where
  count : item.count = (leaksOfSize allocations item.size).length
  length : item.sampleAddresses.length = min 100 item.count
  increasing : item.sampleAddresses.Pairwise (· < ·)
  sound : ∀ address ∈ item.sampleAddresses,
    ∃ alloc ∈ leaksOfSize allocations item.size, alloc.address = address
  least : ∀ alloc ∈ leaksOfSize allocations item.size,
    alloc.address ∉ item.sampleAddresses →
      ∀ address ∈ item.sampleAddresses, address < alloc.address

/-- One item for each size that a leak has, in decreasing order. -/
structure SummaryExact (allocations : List AllocationRecord) (items : List SummaryItem) :
    Prop where
  decreasing : (items.map SummaryItem.size).Pairwise (· > ·)
  sizes : ∀ size, (∃ item ∈ items, item.size = size) ↔
    ∃ alloc ∈ allocations, alloc.marked = false ∧ alloc.size = size
  exact : ∀ item ∈ items, item.Exact allocations

def SummaryItem.ofRun (run : Word × List AllocationRecord) : SummaryItem where
  size := run.1
  count := run.2.length
  sampleAddresses := (run.2.take 100).map AllocationRecord.address

theorem runItem_eq (run : Word × List AllocationRecord) :
    runItem run = (SummaryItem.ofRun run).json := by
  simp [runItem, SummaryItem.ofRun, SummaryItem.json, Function.comp_def]

/-- The leaks in the order in which the loop visits them. -/
def sortedLeaks (allocations : List AllocationRecord) : List AllocationRecord :=
  sortLeaks (allocations.filter fun alloc => !alloc.marked)

theorem mem_sortedLeaks {allocations : List AllocationRecord} {alloc : AllocationRecord} :
    alloc ∈ sortedLeaks allocations ↔ alloc ∈ allocations ∧ alloc.marked = false := by
  rw [sortedLeaks, (perm_sortLeaks _).mem_iff]
  simp

/-- The order of the enumeration does not matter. -/
theorem sortedLeaks_perm {allocations allocations' : List AllocationRecord}
    (hperm : allocations.Perm allocations') :
    sortedLeaks allocations = sortedLeaks allocations' := by
  apply eq_sortLeaks
  · intro alloc halloc
    simpa using List.of_mem_filter halloc
  · exact (perm_sortLeaks _).trans (hperm.filter _)
  · exact List.pairwise_insertionSort _ _

section

variable {allocations : List AllocationRecord}
  {runs : List (Word × List AllocationRecord)} {run : Word × List AllocationRecord}

theorem sortedLeaks_by_size (allocations : List AllocationRecord) :
    (sortedLeaks allocations).Pairwise fun a b => a.size = b.size ∨ a.size > b.size := by
  refine (pairwise_sortLeaks _).imp fun h => ?_
  rcases h with hsize | ⟨hsize, -⟩
  · exact Or.inr hsize
  · exact Or.inl hsize

/-- A run holds the leaks of its size. -/
theorem run_perm (hruns : IsRuns AllocationRecord.size runs (sortedLeaks allocations))
    (hrun : run ∈ runs) : run.2.Perm (leaksOfSize allocations run.1) := by
  rw [hruns.eq_filter (sortedLeaks_by_size allocations) hrun]
  refine ((perm_sortLeaks _).filter _).trans ?_
  rw [List.filter_filter, leaksOfSize]
  apply List.Perm.of_eq
  apply List.filter_congr
  intro alloc _
  rw [Bool.and_comm]
  congr 1

/-- Distinct addresses increase strictly within a run. -/
theorem run_increasing (hdistinct : (allocations.map AllocationRecord.address).Nodup)
    (hruns : IsRuns AllocationRecord.size runs (sortedLeaks allocations))
    (hrun : run ∈ runs) : (run.2.map AllocationRecord.address).Pairwise (· < ·) := by
  have hsub : run.2.Sublist (sortedLeaks allocations) := by
    rw [hruns.eq_filter (sortedLeaks_by_size allocations) hrun]
    exact List.filter_sublist
  have hnodup : (run.2.map AllocationRecord.address).Nodup := by
    have hleaks : ((sortedLeaks allocations).map AllocationRecord.address).Nodup := by
      rw [sortedLeaks, ((perm_sortLeaks _).map _).nodup_iff]
      exact hdistinct.sublist (List.filter_sublist.map _)
    exact hleaks.sublist (hsub.map _)
  rw [List.pairwise_map]
  have hle := (pairwise_sortLeaks _).sublist hsub
  have hne := List.pairwise_map.mp hnodup
  refine (hle.and hne).imp_of_mem fun {a b} ha hb hab => ?_
  obtain ⟨hle, hne⟩ := hab
  have hsize : a.size = b.size :=
    (hruns.keyed run hrun a ha).trans (hruns.keyed run hrun b hb).symm
  rcases hle with hlt | ⟨-, hle⟩
  · rw [hsize] at hlt
    exact absurd hlt (BitVec.lt_irrefl _)
  · rw [BitVec.lt_def]
    rw [BitVec.le_def] at hle
    have hnat : a.address.toNat ≠ b.address.toNat := fun h => hne (BitVec.eq_of_toNat_eq h)
    omega

theorem ofRun_exact (hdistinct : (allocations.map AllocationRecord.address).Nodup)
    (hruns : IsRuns AllocationRecord.size runs (sortedLeaks allocations))
    (hrun : run ∈ runs) : (SummaryItem.ofRun run).Exact allocations := by
  have hperm := run_perm hruns hrun
  have hincreasing := run_increasing hdistinct hruns hrun
  have hsplit : run.2.map AllocationRecord.address =
      (SummaryItem.ofRun run).sampleAddresses ++
        (run.2.drop 100).map AllocationRecord.address := by
    rw [SummaryItem.ofRun, ← List.map_append, List.take_append_drop]
  rw [hsplit, List.pairwise_append] at hincreasing
  constructor
  · exact hperm.length_eq
  · simp [SummaryItem.ofRun]
  · exact hincreasing.1
  · intro address haddress
    obtain ⟨alloc, halloc, rfl⟩ := List.mem_map.mp haddress
    exact ⟨alloc, hperm.mem_iff.mp (List.mem_of_mem_take halloc), rfl⟩
  · intro alloc halloc hnot address haddress
    have hmem : alloc.address ∈ run.2.map AllocationRecord.address :=
      List.mem_map_of_mem (hperm.mem_iff.mpr halloc)
    rw [hsplit, List.mem_append] at hmem
    exact hincreasing.2.2 address haddress _ (hmem.resolve_left hnot)

theorem runs_summaryExact (hdistinct : (allocations.map AllocationRecord.address).Nodup)
    (hruns : IsRuns AllocationRecord.size runs (sortedLeaks allocations)) :
    SummaryExact allocations (runs.map SummaryItem.ofRun) where
  decreasing := by
    rw [List.map_map]
    exact hruns.pairwise_keys (sortedLeaks_by_size allocations)
  sizes := by
    intro size
    simp only [List.mem_map, exists_exists_and_eq_and]
    change (∃ run ∈ runs, run.1 = size) ↔ _
    rw [hruns.exists_run_iff]
    simp only [mem_sortedLeaks, and_assoc]
  exact := by
    intro item hitem
    obtain ⟨run, hrun, rfl⟩ := List.mem_map.mp hitem
    exact ofRun_exact hdistinct hruns hrun

theorem runs_totalLeaks (hruns : IsRuns AllocationRecord.size runs (sortedLeaks allocations)) :
    (leakTotals allocations).totalLeaks =
      ((runs.map SummaryItem.ofRun).map SummaryItem.count).sum := by
  have hlength : (sortedLeaks allocations).length = (leakTotals allocations).totalLeaks := by
    rw [leakTotals_eq]
    exact (perm_sortLeaks _).length_eq
  rw [← hlength, ← hruns.flatten, List.length_flatMap, List.map_map]
  rfl

/-- The counter of the bytes wraps like the sum it stands for. -/
theorem toNat_sum_word (sizes : List Word) :
    sizes.sum.toNat = (sizes.map BitVec.toNat).sum % 2 ^ 64 := by
  induction sizes with
  | nil => rfl
  | cons size sizes ih =>
      rw [List.sum_cons, BitVec.toNat_add, ih, List.map_cons, List.sum_cons, Nat.add_mod_mod]

theorem runs_totalLeakedBytes
    (hruns : IsRuns AllocationRecord.size runs (sortedLeaks allocations)) :
    (leakTotals allocations).totalLeakedBytes.toNat =
      ((runs.map SummaryItem.ofRun).map fun item => item.size.toNat * item.count).sum %
        2 ^ 64 := by
  have hruns' : ∀ run ∈ runs, (run.2.map fun alloc => alloc.size.toNat).sum =
      run.1.toNat * run.2.length := by
    intro run hrun
    have hconst : run.2.map (fun alloc => alloc.size.toNat) =
        List.replicate run.2.length run.1.toNat := by
      rw [List.map_eq_replicate_iff]
      intro alloc halloc
      rw [hruns.keyed run hrun alloc halloc]
    rw [hconst, List.sum_const_nat, Nat.mul_comm]
  have hsorted : ((allocations.filter fun alloc => !alloc.marked).map
      fun alloc => alloc.size.toNat).sum =
        ((sortedLeaks allocations).map fun alloc => alloc.size.toNat).sum :=
    ((perm_sortLeaks _).map _).sum_eq.symm
  rw [leakTotals_eq, toNat_sum_word, List.map_map]
  congr 1
  refine hsorted.trans ?_
  rw [← hruns.flatten, List.map_flatMap, List.flatMap_def, List.sum_flatten, List.map_map,
    List.map_map]
  exact congrArg List.sum (List.map_congr_left hruns')

end

theorem leakReport_eq (config : DomovoyConfig) (typeName : Word → Word → Bytes)
    (allocations : List AllocationRecord) :
    leakReport config typeName allocations = .object
      ((if config.enableLeakReportDetails then [("leaks_by_size",
          .array (leakLoop config typeName (sortedLeaks allocations)).leaksBySize)]
        else []) ++
      (if config.enableLeakReportSummary then
        [("summary", .object
          [("by_size", .array (leakLoop config typeName (sortedLeaks allocations)).bySize),
            ("total_leaked_bytes",
              .number (leakTotals allocations).totalLeakedBytes.toNat),
            ("total_leaks", .number (leakTotals allocations).totalLeaks)])]
        else []) ++
      [("type", .string (literal "memory_leaks"))]) := by
  have hleaks : (leakTotals allocations).leakedAllocations =
      allocations.filter fun alloc => !alloc.marked := by
    rw [leakTotals_eq]
  rw [leakReport, hleaks]
  rfl

/-- The records of the hooks have distinct addresses. -/
theorem getLinuxTrackedAllocations_distinct (gAllocations : Option AllocMap) :
    ((getLinuxTrackedAllocations gAllocations).map AllocationRecord.address).Nodup := by
  cases gAllocations with
  | none => exact List.nodup_nil
  | some allocations =>
      rw [getLinuxTrackedAllocations, List.map_map]
      exact allocations.nodupKeys

/-- What is reported does not depend on the order in which the records are enumerated. -/
theorem runLeakDetection_perm (config : DomovoyConfig) (typeName : Word → Word → Bytes)
    {allocations allocations' : List AllocationRecord}
    (hperm : allocations.Perm allocations') :
    runLeakDetection config typeName allocations =
      runLeakDetection config typeName allocations' := by
  have hleaks : (allocations.filter fun alloc => !alloc.marked).Perm
      (allocations'.filter fun alloc => !alloc.marked) := hperm.filter _
  have htotal : (leakTotals allocations).totalLeaks =
      (leakTotals allocations').totalLeaks := by
    rw [leakTotals_eq, leakTotals_eq]
    exact hleaks.length_eq
  have hbytes : (leakTotals allocations).totalLeakedBytes.toNat =
      (leakTotals allocations').totalLeakedBytes.toNat := by
    rw [leakTotals_eq, leakTotals_eq, toNat_sum_word, toNat_sum_word]
    exact congrArg (· % 2 ^ 64) ((hleaks.map _).map _).sum_eq
  rw [runLeakDetection, runLeakDetection, leakReport_eq, leakReport_eq,
    sortedLeaks_perm hperm, htotal, hbytes]

/-- The summary is an exact partition of the leaks by size, whatever the order in which the
records are enumerated. -/
theorem leak_summary_exact (config : DomovoyConfig) (typeName : Word → Word → Bytes)
    (allocations : List AllocationRecord) (hsummary : config.enableLeakReportSummary = true)
    (hdistinct : (allocations.map AllocationRecord.address).Nodup) :
    ∃ items, SummaryExact allocations items ∧
      (leakReport config typeName allocations).field "summary" = some (.object
        [("by_size", .array (items.map SummaryItem.json)),
          ("total_leaked_bytes", .number
            ((items.map fun item => item.size.toNat * item.count).sum % 2 ^ 64 : Nat)),
          ("total_leaks", .number (items.map SummaryItem.count).sum)]) := by
  obtain ⟨runs, hruns, hbySize, -⟩ :=
    leakLoop_runs config typeName (sortedLeaks allocations)
  refine ⟨runs.map SummaryItem.ofRun, runs_summaryExact hdistinct hruns, ?_⟩
  have hitems : (leakLoop config typeName (sortedLeaks allocations)).bySize =
      (runs.map SummaryItem.ofRun).map SummaryItem.json := by
    rw [hbySize hsummary, List.map_map]
    exact List.map_congr_left fun run _ => runItem_eq run
  rw [← hitems, ← runs_totalLeaks hruns, ← runs_totalLeakedBytes hruns]
  rw [leakReport_eq, hsummary]
  cases config.enableLeakReportDetails <;> rfl

/-- A group of the details next to the summary item with the same index. -/
structure GroupAgrees (item : SummaryItem) (group : Json) : Prop where
  size : group.field "size" = some (.number item.size.toNat)
  addresses : ∃ details, group.field "addresses" = some (.array details) ∧
    details.length = item.count ∧
      (details.take (min 100 item.count)).map (Json.field "address") =
        item.sampleAddresses.map fun address => some (addressJson address)

/-- The group has an entry with this address. -/
def Json.ListsAddress (address : Word) (group : Json) : Prop :=
  ∃ details, group.field "addresses" = some (.array details) ∧
    ∃ detail ∈ details, detail.field "address" = some (addressJson address)

/-- The two sections of the report agree, and every leak is in exactly one group. -/
def DetailsAgree (allocations : List AllocationRecord) (report : Json) : Prop :=
  ∃ (items : List SummaryItem) (groups : List Json),
    (report.field "summary").bind (Json.field "by_size") =
        some (.array (items.map SummaryItem.json)) ∧
      report.field "leaks_by_size" = some (.array groups) ∧
      groups.length = items.length ∧
      (∀ (index : Nat) item group, items[index]? = some item →
        groups[index]? = some group → GroupAgrees item group) ∧
      ∀ alloc ∈ allocations, alloc.marked = false →
        ∃! index : Nat, ∃ group : Json, groups[index]? = some group ∧
          group.ListsAddress alloc.address

/-- There is no leak, or one that is not of size zero. -/
def SomeSizeNonzero (allocations : List AllocationRecord) : Prop :=
  (∃ alloc ∈ allocations, alloc.marked = false) →
    ∃ alloc ∈ allocations, alloc.marked = false ∧ alloc.size ≠ 0

/-- A digit as `snprintf` writes it. -/
def hexDigit (digit : Nat) : UInt8 :=
  UInt8.ofNat (Nat.digitChar digit).toNat

theorem hexText_eq (n : Nat) :
    hexText n = if n < 16 then [hexDigit n] else hexText (n / 16) ++ [hexDigit (n % 16)] := by
  rw [hexText, Nat.toDigits_eq_if (by decide)]
  split
  · rfl
  · rw [List.map_append]
    rfl

theorem hexText_ne_nil (n : Nat) : hexText n ≠ [] := by
  simp [hexText, Nat.toDigits_ne_nil]

theorem hexDigit_inj {m n : Nat} (hm : m < 16) (hn : n < 16)
    (hdigit : hexDigit m = hexDigit n) : m = n := by
  have hall : ∀ m < 16, ∀ n < 16, hexDigit m = hexDigit n → m = n := by decide
  exact hall m hm n hn hdigit

/-- Two addresses are never written the same. -/
theorem hexText_inj {m n : Nat} (htext : hexText m = hexText n) : m = n := by
  induction m using Nat.strongRecOn generalizing n with
  | ind m ih =>
      rw [hexText_eq m, hexText_eq n] at htext
      by_cases hm : m < 16
      · by_cases hn : n < 16
        · rw [if_pos hm, if_pos hn] at htext
          exact hexDigit_inj hm hn (List.singleton_inj.mp htext)
        · rw [if_pos hm, if_neg hn] at htext
          rw [← List.nil_append [hexDigit m]] at htext
          exact absurd (List.append_inj' htext rfl).1.symm (hexText_ne_nil _)
      · by_cases hn : n < 16
        · rw [if_neg hm, if_pos hn] at htext
          rw [← List.nil_append [hexDigit n]] at htext
          exact absurd (List.append_inj' htext rfl).1 (hexText_ne_nil _)
        · rw [if_neg hm, if_neg hn] at htext
          obtain ⟨hhigh, hlow⟩ := List.append_inj' htext rfl
          have hdiv := ih (m / 16) (by omega) hhigh
          have hmod := hexDigit_inj (Nat.mod_lt m (by decide)) (Nat.mod_lt n (by decide))
            (List.singleton_inj.mp hlow)
          omega

theorem addressJson_inj {a b : Word} (hjson : addressJson a = addressJson b) : a = b := by
  have htext := List.append_cancel_left (Json.string.inj hjson)
  exact BitVec.eq_of_toNat_eq (hexText_inj htext)

section

variable {allocations : List AllocationRecord}
  {runs : List (Word × List AllocationRecord)} {run : Word × List AllocationRecord}

/-- The keys of the runs decrease, so that a first key of zero is the only one. -/
theorem runs_named (hruns : IsRuns AllocationRecord.size runs (sortedLeaks allocations))
    (hnonzero : SomeSizeNonzero allocations) {index : Nat}
    (hindex : runs[index]? = some run) : ¬ (index = 0 ∧ run.1 = 0) := by
  rintro ⟨rfl, hzero⟩
  cases runs with
  | nil => simp at hindex
  | cons first rest =>
      obtain rfl := Option.some.inj hindex
      have hkeys := hruns.pairwise_keys (sortedLeaks_by_size allocations)
      rw [List.map_cons, List.pairwise_cons] at hkeys
      obtain ⟨leak, hleak⟩ := List.exists_mem_of_ne_nil _ (hruns.nonempty _ List.mem_cons_self)
      have hsome : leak ∈ sortedLeaks allocations := by
        rw [← hruns.flatten]
        exact List.mem_flatMap.mpr ⟨_, List.mem_cons_self, hleak⟩
      obtain ⟨alloc, halloc, hmarked, hsize⟩ := hnonzero ⟨leak, mem_sortedLeaks.mp hsome⟩
      obtain ⟨run, hrun, hkey⟩ :=
        hruns.exists_run_iff.mpr ⟨alloc, mem_sortedLeaks.mpr ⟨halloc, hmarked⟩, rfl⟩
      rcases List.mem_cons.mp hrun with rfl | hrun
      · exact hsize (hkey.symm.trans hzero)
      · have habove := hkeys.1 run.1 (List.mem_map_of_mem hrun)
        rw [hzero, GT.gt, BitVec.lt_def] at habove
        exact absurd habove (Nat.not_lt_zero _)

/-- Where all leaks are of size zero, the first run is that of the size that the loop starts
with. -/
theorem exists_unnamed_run
    (hruns : IsRuns AllocationRecord.size runs (sortedLeaks allocations))
    {leak : AllocationRecord} (hleak : leak ∈ allocations) (hmarked : leak.marked = false)
    (hzero : ¬ ∃ alloc ∈ allocations, alloc.marked = false ∧ alloc.size ≠ 0) :
    ∃ first, runs[0]? = some first ∧ first.1 = 0 := by
  cases runs with
  | nil =>
      have hempty : leak ∈ ([] : List (Word × List AllocationRecord)).flatMap Prod.snd := by
        rw [hruns.flatten]
        exact mem_sortedLeaks.mpr ⟨hleak, hmarked⟩
      exact absurd hempty List.not_mem_nil
  | cons first rest =>
      refine ⟨first, rfl, ?_⟩
      obtain ⟨alloc, halloc, hkey⟩ :=
        hruns.exists_run_iff.mp ⟨first, List.mem_cons_self, rfl⟩
      obtain ⟨hmem, hleaked⟩ := mem_sortedLeaks.mp halloc
      by_contra hfirst
      exact hzero ⟨alloc, hmem, hleaked, fun hsize => hfirst (hkey.symm.trans hsize)⟩

theorem groupAgrees (typeName : Word → Word → Bytes) {index : Nat}
    (hnamed : ¬ (index = 0 ∧ run.1 = 0)) :
    GroupAgrees (SummaryItem.ofRun run) (runGroup typeName index run).json where
  size := by
    rw [runGroup, if_neg hnamed]
    rfl
  addresses := by
    refine ⟨run.2.map fun alloc =>
      leakDetailJson alloc (typeName alloc.address alloc.size), ?_, ?_, ?_⟩
    · rw [runGroup, if_neg hnamed]
      rfl
    · exact List.length_map _
    · have htake : run.2.take (min 100 run.2.length) = run.2.take 100 := by
        rw [List.take_eq_take_iff]
        omega
      rw [← List.map_take, List.map_map, SummaryItem.ofRun, htake, List.map_map]
      rfl

theorem runGroup_listsAddress_iff (typeName : Word → Word → Bytes) {index : Nat}
    {address : Word} :
    (runGroup typeName index run).json.ListsAddress address ↔
      ∃ alloc ∈ run.2, alloc.address = address := by
  have haddresses : (runGroup typeName index run).json.field "addresses" =
      some (.array (runGroup typeName index run).addresses) := rfl
  constructor
  · rintro ⟨details, hdetails, detail, hdetail, haddress⟩
    rw [haddresses] at hdetails
    obtain rfl := Json.array.inj (Option.some.inj hdetails)
    obtain ⟨alloc, halloc, rfl⟩ := List.mem_map.mp hdetail
    exact ⟨alloc, halloc, addressJson_inj (Option.some.inj haddress)⟩
  · rintro ⟨alloc, halloc, rfl⟩
    exact ⟨_, haddresses, _, List.mem_map_of_mem halloc, rfl⟩

/-- A leak is in the group of its size and in no other. -/
theorem existsUnique_group (typeName : Word → Word → Bytes)
    (hdistinct : (allocations.map AllocationRecord.address).Nodup)
    (hruns : IsRuns AllocationRecord.size runs (sortedLeaks allocations))
    {alloc : AllocationRecord} (halloc : alloc ∈ sortedLeaks allocations) :
    ∃! index : Nat, ∃ group : Json,
      (runs.mapIdx fun index run => (runGroup typeName index run).json)[index]? =
          some group ∧
        group.ListsAddress alloc.address := by
  have hlists : ∀ index : Nat, (∃ group : Json,
      (runs.mapIdx fun index run => (runGroup typeName index run).json)[index]? =
          some group ∧ group.ListsAddress alloc.address) ↔
        ∃ run, runs[index]? = some run ∧ alloc ∈ run.2 := by
    intro index
    simp only [List.getElem?_mapIdx, Option.map_eq_some_iff]
    constructor
    · rintro ⟨_, ⟨run, hrun, rfl⟩, hgroup⟩
      obtain ⟨other, hother, haddress⟩ := (runGroup_listsAddress_iff typeName).mp hgroup
      have hmem : other ∈ sortedLeaks allocations := by
        rw [← hruns.flatten]
        exact List.mem_flatMap.mpr ⟨run, List.mem_of_getElem? hrun, hother⟩
      have hsame : other = alloc :=
        List.inj_on_of_nodup_map hdistinct (mem_sortedLeaks.mp hmem).1
          (mem_sortedLeaks.mp halloc).1 haddress
      exact ⟨run, hrun, hsame ▸ hother⟩
    · rintro ⟨run, hrun, hmem⟩
      exact ⟨_, ⟨run, hrun, rfl⟩, (runGroup_listsAddress_iff typeName).mpr ⟨alloc, hmem, rfl⟩⟩
  simp only [hlists]
  have hkeys : (runs.map Prod.fst).Nodup :=
    (hruns.pairwise_keys (sortedLeaks_by_size allocations)).imp fun h => by
      rintro rfl
      exact BitVec.lt_irrefl _ h
  rw [← hruns.flatten] at halloc
  obtain ⟨run, hrun, hmem⟩ := List.mem_flatMap.mp halloc
  obtain ⟨index, hindex⟩ := List.mem_iff_getElem?.mp hrun
  refine ⟨index, ⟨run, hindex, hmem⟩, ?_⟩
  rintro other ⟨run', hother, hmem'⟩
  have hkey : run'.1 = run.1 :=
    (hruns.keyed run' (List.mem_of_getElem? hother) alloc hmem').symm.trans
      (hruns.keyed run hrun alloc hmem)
  have hlength : other < (runs.map Prod.fst).length := by
    rw [List.length_map]
    exact (List.getElem?_eq_some_iff.mp hother).1
  refine (List.getElem?_inj hlength hkeys).mp ?_
  rw [List.getElem?_map, List.getElem?_map, hother, hindex, Option.map_some, Option.map_some,
    hkey]

end

/-- With both sections in the report, they agree exactly when there is no leak or one that
is not of size zero. -/
theorem leak_details_agree_iff (config : DomovoyConfig) (typeName : Word → Word → Bytes)
    (allocations : List AllocationRecord) (hsummary : config.enableLeakReportSummary = true)
    (hdetails : config.enableLeakReportDetails = true)
    (hdistinct : (allocations.map AllocationRecord.address).Nodup) :
    DetailsAgree allocations (leakReport config typeName allocations) ↔
      SomeSizeNonzero allocations := by
  obtain ⟨runs, hruns, hbySize, hleaksBySize⟩ :=
    leakLoop_runs config typeName (sortedLeaks allocations)
  have hreported : ((leakReport config typeName allocations).field "summary").bind
      (Json.field "by_size") = some (.array (runs.map runItem)) := by
    rw [← hbySize hsummary, leakReport_eq, hsummary, hdetails]
    rfl
  have hgroups : (leakReport config typeName allocations).field "leaks_by_size" =
      some (.array (runs.mapIdx fun index run => (runGroup typeName index run).json)) := by
    rw [← hleaksBySize hdetails, leakReport_eq, hsummary, hdetails]
    rfl
  constructor
  · rintro ⟨items, groups, -, hsame, hlength, hagree, -⟩ ⟨leak, hleak, hmarked⟩
    rw [hgroups] at hsame
    obtain rfl := Json.array.inj (Option.some.inj hsame)
    by_contra hzero
    obtain ⟨first, hfirst, hfirstZero⟩ := exists_unnamed_run hruns hleak hmarked hzero
    have hgroup : (runs.mapIdx fun index run => (runGroup typeName index run).json)[0]? =
        some (runGroup typeName 0 first).json := by
      rw [List.getElem?_mapIdx, hfirst, Option.map_some]
    have hitem : 0 < items.length := by
      rw [← hlength]
      exact (List.getElem?_eq_some_iff.mp hgroup).1
    have hsize := (hagree 0 items[0] _ (List.getElem?_eq_getElem hitem) hgroup).size
    rw [runGroup, if_pos ⟨rfl, hfirstZero⟩] at hsize
    cases hsize
  · intro hnonzero
    refine ⟨runs.map SummaryItem.ofRun, _, ?_, hgroups, ?_, ?_, ?_⟩
    · rw [hreported, List.map_map]
      congr 2
      exact List.map_congr_left fun run _ => runItem_eq run
    · simp
    · intro index item group hitem hgroup
      rw [List.getElem?_map, Option.map_eq_some_iff] at hitem
      obtain ⟨run, hrun, rfl⟩ := hitem
      rw [List.getElem?_mapIdx, hrun, Option.map_some] at hgroup
      obtain rfl := Option.some.inj hgroup
      exact groupAgrees typeName (runs_named hruns hnonzero hrun)
    · intro alloc halloc hmarked
      exact existsUnique_group typeName hdistinct hruns
        (mem_sortedLeaks.mpr ⟨halloc, hmarked⟩)

namespace LeakWitness

/-- No type is found. -/
def noName : Word → Word → Bytes :=
  fun _ _ => []

/-- Two leaks of one size, one of size zero, and a record that is reachable. -/
def mixed : List AllocationRecord :=
  [⟨0x3000, 16, false⟩, ⟨0x1000, 0, false⟩, ⟨0x4000, 16, true⟩, ⟨0x2000, 16, false⟩]

theorem mixed_summary_exact :
    ∃ items, SummaryExact mixed items ∧
      (leakReport {} noName mixed).field "summary" = some (.object
        [("by_size", .array (items.map SummaryItem.json)),
          ("total_leaked_bytes", .number
            ((items.map fun item => item.size.toNat * item.count).sum % 2 ^ 64 : Nat)),
          ("total_leaks", .number (items.map SummaryItem.count).sum)]) :=
  leak_summary_exact {} noName mixed rfl (by decide)

theorem mixed_agree_iff :
    DetailsAgree mixed (leakReport {} noName mixed) ↔ SomeSizeNonzero mixed :=
  leak_details_agree_iff {} noName mixed rfl rfl (by decide)

/-- A single `malloc(0)`. -/
def zeroOnly : List AllocationRecord :=
  [⟨0x1000, 0, false⟩]

/-- Its group has no "size". -/
theorem zeroOnly_not_agree : ¬ DetailsAgree zeroOnly (leakReport {} noName zeroOnly) := by
  rintro ⟨items, groups, -, hgroups, hlength, hagree, -⟩
  have hreport : (leakReport {} noName zeroOnly).field "leaks_by_size" = some (.array
      [(LeakGroup.mk none [leakDetailJson ⟨0x1000, 0, false⟩ []]).json]) := rfl
  rw [hreport] at hgroups
  obtain rfl := Json.array.inj (Option.some.inj hgroups)
  have hitem : 0 < items.length := by
    rw [← hlength]
    exact Nat.one_pos
  have hsize := (hagree 0 items[0] _ (List.getElem?_eq_getElem hitem) rfl).size
  cases hsize

end LeakWitness

end Domovoy
