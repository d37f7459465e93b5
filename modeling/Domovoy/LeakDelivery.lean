/-
What a shutdown puts on the disk about leaks: a report on exactly the blocks that are
owed one, or none where no block is.
-/
import Mathlib.Data.Set.Card
import Domovoy.LeakLedger
import Domovoy.LeakSummary
import Domovoy.ReportFiles

namespace Domovoy

open WordAlign KeyRuns Transition

/-- An item against the blocks: it counts those of its size, and its samples are the
least of their addresses, in increasing order and a hundred at most. -/
structure SummaryItem.OfBlocks (blocks : Blocks) (item : SummaryItem) : Prop where
  count : item.count = {address | blocks address = some item.size.toNat}.ncard
  length : item.sampleAddresses.length = min 100 item.count
  increasing : item.sampleAddresses.Pairwise (· < ·)
  sound : ∀ address ∈ item.sampleAddresses, blocks address = some item.size.toNat
  least : ∀ address, blocks address = some item.size.toNat →
    address ∉ item.sampleAddresses → ∀ sample ∈ item.sampleAddresses, sample < address

/-- One item for each size that a block has, in decreasing order. -/
structure SummaryOfBlocks (blocks : Blocks) (items : List SummaryItem) : Prop where
  decreasing : (items.map SummaryItem.size).Pairwise (· > ·)
  sizes : ∀ size : Word, (∃ item ∈ items, item.size = size) ↔
    ∃ address, blocks address = some size.toNat
  items : ∀ item ∈ items, item.OfBlocks blocks

/-- The object with the totals. -/
def summaryJson (items : List SummaryItem) : Json :=
  .object [("by_size", .array (items.map SummaryItem.json)),
    ("total_leaked_bytes", .number
      ((items.map fun item => item.size.toNat * item.count).sum % 2 ^ 64 : Nat)),
    ("total_leaks", .number (items.map SummaryItem.count).sum)]

/-- The addresses in the groups of the details. -/
def groupAddresses (group : Json) : List (Option Json) :=
  match group.field "addresses" with
  | some (.array details) => details.map (Json.field "address")
  | _ => []

/-- Each section that the configuration asks for is about these blocks and no others;
the details have an entry for each. -/
structure ReportOfBlocks (config : DomovoyConfig) (blocks : Blocks) (report : Json) :
    Prop where
  summary : config.enableLeakReportSummary = true →
    ∃ items, SummaryOfBlocks blocks items ∧
      report.field "summary" = some (summaryJson items)
  details : config.enableLeakReportDetails = true →
    ∃ (groups : List Json) (addresses : List Word),
      report.field "leaks_by_size" = some (.array groups) ∧
        groups.flatMap groupAddresses =
          addresses.map (fun address => some (addressJson address)) ∧
        addresses.Nodup ∧ ∀ address, address ∈ addresses ↔ blocks address ≠ none

/-- A list with one record for each of the blocks, as leak detection starts from. -/
structure ListsBlocks (blocks : Blocks) (allocations : List AllocationRecord) : Prop where
  unmarked : ∀ alloc ∈ allocations, alloc.marked = false
  distinct : (allocations.map AllocationRecord.address).Nodup
  eq_some_iff : ∀ address size, blocks address = some size ↔
    ∃ alloc ∈ allocations, alloc.address = address ∧ alloc.size.toNat = size

section Records

variable {blocks : Blocks} {allocations : List AllocationRecord}

theorem ListsBlocks.ne_none_iff (hlists : ListsBlocks blocks allocations) {address : Word} :
    blocks address ≠ none ↔ ∃ alloc ∈ allocations, alloc.address = address := by
  rw [Option.ne_none_iff_exists']
  constructor
  · rintro ⟨size, hsize⟩
    obtain ⟨alloc, halloc, haddress, -⟩ := (hlists.eq_some_iff address size).mp hsize
    exact ⟨alloc, halloc, haddress⟩
  · rintro ⟨alloc, halloc, rfl⟩
    exact ⟨_, (hlists.eq_some_iff _ _).mpr ⟨alloc, halloc, rfl, rfl⟩⟩

/-- The leaks of a size, as blocks. -/
theorem ListsBlocks.mem_leaksOfSize_iff (hlists : ListsBlocks blocks allocations)
    {address size : Word} :
    (∃ alloc ∈ leaksOfSize allocations size, alloc.address = address) ↔
      blocks address = some size.toNat := by
  rw [hlists.eq_some_iff]
  constructor
  · rintro ⟨alloc, halloc, rfl⟩
    obtain ⟨hmem, hsize⟩ := List.mem_filter.mp halloc
    simp only [Bool.and_eq_true, beq_iff_eq] at hsize
    exact ⟨alloc, hmem, rfl, congrArg BitVec.toNat hsize.2⟩
  · rintro ⟨alloc, halloc, rfl, hsize⟩
    refine ⟨alloc, List.mem_filter.mpr ⟨halloc, ?_⟩, rfl⟩
    simp [hlists.unmarked alloc halloc, BitVec.eq_of_toNat_eq hsize]

theorem ListsBlocks.length_leaksOfSize (hlists : ListsBlocks blocks allocations)
    (size : Word) :
    (leaksOfSize allocations size).length =
      {address | blocks address = some size.toNat}.ncard := by
  have hset : {address | blocks address = some size.toNat} =
      {address | address ∈ (leaksOfSize allocations size).map AllocationRecord.address} := by
    ext address
    rw [Set.mem_ofPred_eq, ← hlists.mem_leaksOfSize_iff, Set.mem_ofPred_eq, List.mem_map]
  have hnodup : ((leaksOfSize allocations size).map AllocationRecord.address).Nodup :=
    hlists.distinct.sublist (List.filter_sublist.map _)
  rw [hset, ← List.coe_toFinset, Set.ncard_coe_finset, List.toFinset_card_of_nodup hnodup,
    List.length_map]

/-- A summary of the records is one of the blocks. -/
theorem SummaryExact.ofBlocks {items : List SummaryItem}
    (hexact : SummaryExact allocations items) (hlists : ListsBlocks blocks allocations) :
    SummaryOfBlocks blocks items where
  decreasing := hexact.decreasing
  sizes := by
    intro size
    rw [hexact.sizes]
    simp only [hlists.eq_some_iff]
    constructor
    · rintro ⟨alloc, halloc, -, rfl⟩
      exact ⟨alloc.address, alloc, halloc, rfl, rfl⟩
    · rintro ⟨address, alloc, halloc, -, hsize⟩
      exact ⟨alloc, halloc, hlists.unmarked alloc halloc, BitVec.eq_of_toNat_eq hsize⟩
  items := by
    intro item hitem
    have hitemExact := hexact.exact item hitem
    refine ⟨hitemExact.count.trans (hlists.length_leaksOfSize item.size), hitemExact.length,
      hitemExact.increasing, ?_, ?_⟩
    · intro address haddress
      exact hlists.mem_leaksOfSize_iff.mp (hitemExact.sound address haddress)
    · intro address hblock hnot
      obtain ⟨alloc, halloc, rfl⟩ := hlists.mem_leaksOfSize_iff.mpr hblock
      exact hitemExact.least alloc halloc hnot

theorem groupAddresses_runGroup (typeName : Word → Word → Bytes) (index : Nat)
    (run : Word × List AllocationRecord) :
    groupAddresses (runGroup typeName index run).json =
      run.2.map fun alloc => some (addressJson alloc.address) := by
  simp [groupAddresses, runGroup, LeakGroup.json, Json.field, leakDetailJson,
    Function.comp_def]

/-- Which group stands at which index makes no difference to what is listed. -/
theorem flatMap_mapIdx {α β γ : Type} {f : Nat → α → β} {g : β → List γ} {h : α → List γ}
    (hsame : ∀ index x, g (f index x) = h x) (xs : List α) :
    (xs.mapIdx f).flatMap g = xs.flatMap h := by
  induction xs generalizing f with
  | nil => rfl
  | cons x xs ih =>
      rw [List.mapIdx_cons, List.flatMap_cons, List.flatMap_cons, hsame,
        ih fun index => hsame (index + 1)]

/-- The report that is built from the list is about the blocks. -/
theorem ListsBlocks.leakReport_ofBlocks (hlists : ListsBlocks blocks allocations)
    (config : DomovoyConfig) (typeName : Word → Word → Bytes) :
    ReportOfBlocks config blocks (leakReport config typeName allocations) := by
  obtain ⟨runs, hruns, hbySize, hgroups⟩ :=
    leakLoop_runs config typeName (sortedLeaks allocations)
  refine ⟨fun hsummary => ?_, fun hdetails => ?_⟩
  · refine ⟨runs.map SummaryItem.ofRun,
      (runs_summaryExact hlists.distinct hruns).ofBlocks hlists, ?_⟩
    have hitems : runs.map runItem = (runs.map SummaryItem.ofRun).map SummaryItem.json := by
      rw [List.map_map]
      exact List.map_congr_left fun run _ => runItem_eq run
    rw [leakReport_eq, hbySize hsummary, hitems, runs_totalLeaks hruns,
      runs_totalLeakedBytes hruns, hsummary]
    cases config.enableLeakReportDetails <;> rfl
  · refine ⟨runs.mapIdx fun index run => (runGroup typeName index run).json,
      (sortedLeaks allocations).map AllocationRecord.address, ?_, ?_, ?_, ?_⟩
    · rw [leakReport_eq, hdetails, hgroups hdetails]
      rfl
    · rw [flatMap_mapIdx (groupAddresses_runGroup typeName), List.map_map, ← hruns.flatten,
        List.map_flatMap]
      rfl
    · have hperm := perm_sortLeaks (allocations.filter fun alloc => !alloc.marked)
      rw [sortedLeaks, (hperm.map _).nodup_iff]
      exact hlists.distinct.sublist (List.filter_sublist.map _)
    · intro address
      rw [hlists.ne_none_iff, List.mem_map]
      simp only [mem_sortedLeaks, and_assoc]
      apply exists_congr
      intro alloc
      apply and_congr_right
      intro halloc
      rw [hlists.unmarked alloc halloc]
      simp

/-- A report is made exactly when there is a block. -/
theorem ListsBlocks.leaks_eq_nil_iff (hlists : ListsBlocks blocks allocations) :
    (allocations.filter fun alloc => !alloc.marked) = [] ↔
      ∀ address, blocks address = none := by
  rw [List.filter_eq_nil_iff]
  constructor
  · intro hempty address
    by_contra hblock
    obtain ⟨alloc, halloc, -⟩ := hlists.ne_none_iff.mp hblock
    have hmarked := hempty alloc halloc
    rw [hlists.unmarked alloc halloc] at hmarked
    exact hmarked rfl
  · intro hnone alloc halloc
    exact absurd (hnone alloc.address) (hlists.ne_none_iff.mpr ⟨alloc, halloc, rfl⟩)

/-- The map of the hooks, as leak detection starts from it on Linux. -/
theorem recordedIn_lists (gAllocations : Option AllocMap) :
    ListsBlocks (recordedIn gAllocations) (getLinuxTrackedAllocations gAllocations) where
  unmarked := by
    intro alloc halloc
    cases gAllocations with
    | none => exact absurd halloc List.not_mem_nil
    | some allocations =>
        obtain ⟨entry, -, rfl⟩ := List.mem_map.mp halloc
        rfl
  distinct := getLinuxTrackedAllocations_distinct gAllocations
  eq_some_iff := by
    intro address size
    cases gAllocations with
    | none => simp [recordedIn, getLinuxTrackedAllocations]
    | some allocations =>
        simp only [recordedIn, getLinuxTrackedAllocations, Option.bind_some,
          Option.map_eq_some_iff]
        constructor
        · rintro ⟨bytes, hlookup, rfl⟩
          exact ⟨⟨address, bytes, false⟩,
            List.mem_map.mpr ⟨⟨address, bytes⟩, AList.mem_lookup_iff.mp hlookup, rfl⟩, rfl, rfl⟩
        · rintro ⟨alloc, halloc, rfl, rfl⟩
          obtain ⟨entry, hentry, rfl⟩ := List.mem_map.mp halloc
          exact ⟨entry.2, AList.mem_lookup_iff.mpr hentry, rfl⟩

end Records

/-- Writing one file leaves the others. -/
theorem JsonFileReporter.writeToFile_frame (reporter : JsonFileReporter) (name : String)
    (ms : Nat) (data : Json) (disk : Disk) :
    (reporter.writeToFile name ms data disk).2.writable = disk.writable ∧
      ∀ file, file ≠ reportFile reporter.outputDir name ms →
        (reporter.writeToFile name ms data disk).2.files.lookup file =
          disk.files.lookup file := by
  rw [writeToFile]
  split
  · split
    · exact ⟨rfl, fun file hne => AList.lookup_insert_ne hne⟩
    · exact ⟨rfl, fun file hne => AList.lookup_insert_ne hne⟩
  · exact ⟨rfl, fun _ _ => rfl⟩

/-- The report on descriptors leaves what the report on leaks has written. -/
theorem Process.InSession.reportLeakedFds_leaksFile {p : Process}
    {reporter : JsonFileReporter} (hsession : p.InSession reporter) (env : ShutdownEnv) :
    (p.reportLeakedFds env).2.disk.writable = true ∧
      (p.reportLeakedFds env).2.disk.files.lookup
          (reportFile reporter.outputDir "domovoy_leaks" env.leaksMs) =
        p.disk.files.lookup (reportFile reporter.outputDir "domovoy_leaks" env.leaksMs) := by
  have hother : reportFile reporter.outputDir "domovoy_leaks" env.leaksMs ≠
      reportFile reporter.outputDir "domovoy_io_leak" env.ioLeakMs := by
    intro heq
    change reportFile _ ReporterMethod.reportLeaks.name _ =
      reportFile _ ReporterMethod.reportIoLeak.name _ at heq
    have hmethod := ((reportFile_inj reporter.outputDir).mp heq).1
    contradiction
  rw [Process.reportLeakedFds]
  cases p.io.reportLeakedFds with
  | none => exact ⟨hsession.writable, rfl⟩
  | some data =>
      rw [report_some hsession]
      have hframe := reporter.writeToFile_frame "domovoy_io_leak" env.ioLeakMs data p.disk
      exact ⟨hframe.1.trans hsession.writable, hframe.2 _ hother⟩

/-- What a teardown that returns leaves in the file for leaks. -/
theorem Process.shutdown_leaksFile {p q : Process} {reporter : JsonFileReporter}
    (hsession : p.InSession reporter) {env : ShutdownEnv}
    (hshutdown : p.shutdown env = (.ok (), q)) :
    q.disk.writable = true ∧
      q.disk.files.lookup (reportFile reporter.outputDir "domovoy_leaks" env.leaksMs) =
        env.leakReport.elim
          (p.disk.files.lookup (reportFile reporter.outputDir "domovoy_leaks" env.leaksMs))
          fun data => some (some data) := by
  have hquieted : p.quieted.InSession reporter :=
    ⟨hsession.initialized, hsession.reporter, hsession.writable⟩
  rcases hleaks : p.quieted.runLeakDetection env with ⟨_ | _, p'⟩
  · rw [shutdown_of_leaksThrow hsession.initialized hleaks] at hshutdown
    cases hshutdown
  obtain ⟨result, disk, hreport, hwritable, hok, hfile⟩ :=
    report_writeToFile hquieted "domovoy_leaks" env.leaksMs env.leakReport
  obtain ⟨rfl, rfl⟩ := Prod.mk.inj (hleaks.symm.trans hreport)
  have hreported : Process.InSession { p.quieted with disk := disk } reporter :=
    ⟨hsession.initialized, hsession.reporter, hwritable⟩
  rcases hio : Process.reportLeakedFds env { p.quieted with disk := disk } with ⟨_ | _, p''⟩
  · rw [shutdown_of_ioLeakThrow hsession.initialized hleaks hio] at hshutdown
    cases hshutdown
  rw [shutdown_of_ok hsession.initialized hleaks hio] at hshutdown
  obtain ⟨-, rfl⟩ := Prod.mk.inj hshutdown
  have hafter := hreported.reportLeakedFds_leaksFile env
  rw [hio] at hafter
  refine ⟨hafter.1, hafter.2.trans ?_⟩
  cases hdata : env.leakReport with
  | some data => exact hfile rfl data hdata
  | none =>
      have hsame : p.quieted.runLeakDetection env = (.ok (), p.quieted) := by
        rw [Process.runLeakDetection, hdata]
        rfl
      have hdisk := congrArg (fun result => result.2.disk) (hsame.symm.trans hleaks)
      change p.quieted.disk = disk at hdisk
      rw [← hdisk]
      rfl

/-- The output directory can be written to, and a session has its reporter. -/
structure Framework.CanReport (f : Framework) : Prop where
  writable : f.process.disk.writable = true
  reporter : f.process.core.initialized = true →
    f.process.core.reporter = some { outputDir := f.process.core.config.outputDir }

section Delivery

variable {f next : Framework} {event : FrameworkEvent}

theorem Framework.CanReport.inSession (hcan : f.CanReport)
    (hup : f.process.core.initialized = true) :
    f.process.InSession { outputDir := f.process.core.config.outputDir } where
  initialized := hup
  reporter := hcan.reporter hup
  writable := hcan.writable

/-- A shutdown of a session, taken apart. -/
theorem Framework.step_shutdown {typeName : Word → Word → Bytes} {leaksMs ioLeakMs : Nat}
    (hup : f.process.core.initialized = true)
    (hstep : f.step (.shutdown typeName leaksMs ioLeakMs) = some next) :
    ∃ process, f.process.shutdown
        { leakReport := f.leakReport typeName, leaksMs := leaksMs, ioLeakMs := ioLeakMs } =
          (.ok (), process) ∧ next.process = process := by
  simp only [step, hup, if_true] at hstep
  split at hstep
  · contradiction
  · split at hstep
    · next process hshutdown =>
        obtain rfl := Option.some.inj hstep
        exact ⟨process, hshutdown, rfl⟩
    · contradiction

theorem Framework.CanReport.congr (hcan : f.CanReport)
    (hcore : next.process.core = f.process.core) (hdisk : next.process.disk = f.process.disk) :
    next.CanReport := by
  refine ⟨?_, ?_⟩
  · rw [hdisk]
    exact hcan.writable
  · rw [hcore]
    exact hcan.reporter

theorem Framework.CanReport.step (hcan : f.CanReport) (hgated : f.process.Gated)
    (hstep : f.step event = some next) : next.CanReport := by
  have halive : f.alive = true := by
    by_contra hdead
    simp [Framework.step, hdead] at hstep
  have hlive := hstep
  simp only [Framework.step, halive, Bool.true_eq_false, if_false] at hlive
  cases event with
  | shutdown typeName leaksMs ioLeakMs =>
      cases hup : f.process.core.initialized with
      | true =>
          obtain ⟨process, hshutdown, hprocess⟩ := step_shutdown hup hstep
          have hfile := Process.shutdown_leaksFile (hcan.inSession hup) hshutdown
          obtain ⟨disk, rfl⟩ := Process.shutdown_ok hup hshutdown
          rw [← hprocess] at hfile
          refine ⟨hfile.1, fun hinitialized => ?_⟩
          rw [hprocess] at hinitialized
          exact absurd hinitialized Bool.false_ne_true
      | false =>
          simp only [hup, Bool.false_eq_true, if_false, Option.some.injEq] at hlive
          subst hlive
          exact hcan
  | init config memory sigstksz =>
      obtain rfl := Option.some.inj hlive
      cases hup : f.process.core.initialized with
      | true =>
          rw [Process.init_of_initialized hup]
          exact hcan.congr rfl rfl
      | false =>
          rw [hgated.init_eq hup]
          exact ⟨hcan.writable, fun _ => rfl⟩
  | hook call =>
      obtain ⟨after, -, rfl⟩ := step_hook hstep
      exact hcan.congr rfl rfl
  | openFd call fd | closeFd fd | sigaction sig action =>
      obtain rfl := Option.some.inj hlive
      exact hcan.congr rfl rfl
  | scan sysconf samples trace =>
      obtain ⟨-, hafter⟩ := Option.ite_none_right_eq_some.mp hlive
      obtain rfl := Option.some.inj hafter
      exact hcan.congr rfl rfl
  | crash sig trace =>
      dsimp only at hlive
      split at hlive
      · obtain rfl := Option.some.inj hlive
        exact hcan.congr (by rw [report_process]) (by rw [report_process])
      · obtain rfl := Option.some.inj hlive
        exact hcan.congr rfl rfl

end Delivery

section Ledger

/-- The file for leaks after a shutdown: a report on the blocks that are owed, or
nothing new. -/
structure Ledger.Delivers (s next : Ledger) (leaksMs : Nat) : Prop where
  report : (∃ address, s.owed address ≠ none) →
    ∃ data, next.framework.process.disk.files.lookup
        (reportFile s.framework.process.core.config.outputDir "domovoy_leaks" leaksMs) =
          some (some data) ∧
      ReportOfBlocks s.framework.process.core.config s.owed data
  quiet : (∀ address, s.owed address = none) →
    next.framework.process.disk.files.lookup
        (reportFile s.framework.process.core.config.outputDir "domovoy_leaks" leaksMs) =
      s.framework.process.disk.files.lookup
        (reportFile s.framework.process.core.config.outputDir "domovoy_leaks" leaksMs)

/-- Every shutdown of a session that returns delivers. -/
def Ledger.ShutdownDelivers (s : Ledger) (event : FrameworkEvent) : Prop :=
  ∀ typeName leaksMs ioLeakMs next, event = .shutdown typeName leaksMs ioLeakMs →
    s.framework.process.core.initialized = true → s.step event = some next →
      s.Delivers next leaksMs

theorem Ledger.shutdownDelivers {s : Ledger} {event : FrameworkEvent}
    (hexact : s.MapExact) (hcan : s.framework.CanReport) : s.ShutdownDelivers event := by
  rintro typeName leaksMs ioLeakMs next rfl hup hstep
  obtain ⟨framework, hframework, rfl⟩ := Option.map_eq_some_iff.mp hstep
  obtain ⟨process, hshutdown, hprocess⟩ := Framework.step_shutdown hup hframework
  obtain ⟨-, hfile⟩ := Process.shutdown_leaksFile (hcan.inSession hup) hshutdown
  rw [← hprocess] at hfile
  have hlists := recordedIn_lists s.framework.gAllocations
  rw [show recordedIn s.framework.gAllocations = s.owed from hexact] at hlists
  constructor
  · rintro ⟨address, howed⟩
    have hleaked : s.framework.leakedAllocations ≠ [] := by
      intro hnone
      have hempty := hlists.leaks_eq_nil_iff.mp hnone
      exact howed (hempty address)
    refine ⟨_, ?_, hlists.leakReport_ofBlocks _ typeName⟩
    rw [hfile, Framework.leakReport_eq, if_neg hleaked]
    rfl
  · intro hnone
    have hleaked : s.framework.leakedAllocations = [] := by
      exact hlists.leaks_eq_nil_iff.mpr hnone
    rw [hfile, Framework.leakReport_eq, if_pos hleaked]
    rfl

/-- What carries the delivery over a run. -/
structure Ledger.Sound (s : Ledger) : Prop where
  within : s.Within
  exact : s.MapExact
  gated : s.framework.process.Gated
  canReport : s.framework.CanReport

theorem Ledger.Sound.step {s next : Ledger} {event : FrameworkEvent} (hsound : s.Sound)
    (hkeeps : s.Keeps event) (hstep : s.step event = some next) : next.Sound := by
  obtain ⟨hwithin, hiff⟩ := step_mapExact_iff hsound.within hsound.exact hstep
  obtain ⟨framework, hframework, rfl⟩ := Option.map_eq_some_iff.mp hstep
  exact ⟨hwithin, hiff.mpr hkeeps, Framework.step_gated hsound.gated hframework,
    hsound.canReport.step hsound.gated hframework⟩

/-- From the hooks to the disk, over any sequence of sessions with a directory that can be
written to: while every call keeps the map, each shutdown of a session that returns leaves
a report whose summary and details are those of the blocks obtained under leak detection
and not given back, and leaves no report where there is no such block. -/
theorem leakFiles_exact (actions : CrashSignal → SigAction) (altStack : Option AltStack)
    (disk : Disk) (hwritable : disk.writable = true) (events : List FrameworkEvent)
    (hkeeps : Along Ledger.step Ledger.Keeps (Ledger.initial actions altStack disk)
      events) :
    Along Ledger.step Ledger.ShutdownDelivers (Ledger.initial actions altStack disk)
      events := by
  have hsound : (Ledger.initial actions altStack disk).Sound :=
    ⟨nofun, rfl, Framework.initial_gated actions altStack disk, ⟨hwritable, nofun⟩⟩
  refine hkeeps.imp (fun _ _ _ hsound hkeeps hstep => hsound.step hkeeps hstep) ?_ hsound
  intro s event hsound _
  exact Ledger.shutdownDelivers hsound.exact hsound.canReport

end Ledger

namespace DeliveryWitness

open OptInWitness LedgerWitness

/-- A block is moved and then left. -/
def movedBlock : List FrameworkEvent :=
  [.init leaking 0 0, .hook ⟨.malloc 24, ⟨.block 0x1000, true⟩⟩,
    .hook ⟨.realloc 0x1000 48, ⟨.block 0x2000, true⟩⟩, .shutdown noNames 10 10]

theorem movedBlock_keeps : Along Ledger.step Ledger.Keeps begin movedBlock := by
  refine ⟨nofun, fun next hnext => ⟨?_, fun next' hnext' => ⟨?_, fun _ _ => ⟨nofun,
    fun _ _ => trivial⟩⟩⟩⟩
  · obtain rfl := Option.some.inj hnext
    rintro call ⟨rfl⟩
    exact ⟨nofun, fun _ => rfl⟩
  · obtain rfl := Option.some.inj hnext
    obtain rfl := Option.some.inj hnext'
    rintro call ⟨rfl⟩
    exact ⟨nofun, fun _ => rfl⟩

theorem movedBlock_delivers :
    Along Ledger.step Ledger.ShutdownDelivers begin movedBlock :=
  leakFiles_exact actions none { writable := true, files := ∅ } rfl movedBlock
    movedBlock_keeps

end DeliveryWitness

end Domovoy
