/-
The files that a sequence of reports leaves: the name of a file is made of the method
and the millisecond, and opening a file truncates it.
-/
import Domovoy.Core

namespace Domovoy

/-- A call on the reporter and the clock when it is made. -/
structure TimedReport where
  method : ReporterMethod
  data : Json
  ms : Nat

/-- The prefix that the method gives its files. -/
def ReporterMethod.name : ReporterMethod → String
  | .reportLeaks => "domovoy_leaks"
  | .reportHighCpu => "domovoy_cpu"
  | .reportIoLeak => "domovoy_io_leak"
  | .reportCrash => "domovoy_crash"

/-- An exception that leaves a call does not keep the next from being made. -/
def JsonFileReporter.runReports (reporter : JsonFileReporter) (disk : Disk)
    (reports : List TimedReport) : Disk :=
  reports.foldl
    (fun disk report => (reporter.call report.method report.ms report.data disk).2) disk

/-- An output directory that is empty and can be written to. -/
def Disk.empty : Disk where
  writable := true
  files := ∅

def Disk.contents (disk : Disk) : List (Option Json) :=
  disk.files.entries.map fun file => file.2

/-- One file for each report, and exactly its document in it. -/
def Disk.HoldsEach (reports : List TimedReport) (disk : Disk) : Prop :=
  disk.contents.Perm (reports.map fun report => some report.data)

theorem JsonFileReporter.call_eq (reporter : JsonFileReporter) (method : ReporterMethod)
    (ms : Nat) (data : Json) (disk : Disk) :
    reporter.call method ms data disk =
      reporter.writeToFile method.name ms data disk := by
  cases method <;> rfl

theorem toString_toList_injective {m n : Nat}
    (heq : (toString m).toList = (toString n).toList) : m = n := by
  rw [Nat.toString_eq_repr, Nat.toString_eq_repr, Nat.toList_repr, Nat.toList_repr] at heq
  have hparsed := congrArg (fun digits => Nat.ofDigitChars 10 digits 0) heq
  simpa using hparsed

/-- The name of a file tells the method and the millisecond. -/
theorem reportFile_inj (outputDir : String) {method method' : ReporterMethod}
    {ms ms' : Nat} :
    reportFile outputDir method.name ms = reportFile outputDir method'.name ms' ↔
      method = method' ∧ ms = ms' := by
  constructor
  · intro heq
    have hchars := congrArg String.toList heq
    have hmethod : method = method' := by
      cases method <;> cases method' <;> first
        | rfl
        | simp [reportFile, ReporterMethod.name, String.toList_append] at hchars
    subst hmethod
    refine ⟨rfl, ?_⟩
    simp only [reportFile, String.toList_append, List.append_assoc,
      List.append_cancel_left_eq] at hchars
    exact toString_toList_injective (List.append_cancel_right hchars)
  · rintro ⟨rfl, rfl⟩
    rfl

/-- What the file of a report holds once the call is over. -/
def Json.written (data : Json) : Option Json :=
  if data.Utf8 then some data else none

theorem Json.written_eq_some_iff {data data' : Json} :
    data.written = some data' ↔ data.Utf8 ∧ data = data' := by
  by_cases hutf8 : data.Utf8 <;> simp [written, hutf8]

section Inserts

variable {α β : Type*} [DecidableEq α] {files : AList fun _ : α => β}
  {pairs : List (α × β)}

/-- Insert the pairs in order; a later one replaces an earlier one of its key. -/
def insertAll (files : AList fun _ : α => β) (pairs : List (α × β)) :
    AList fun _ : α => β :=
  pairs.foldl (fun files pair => files.insert pair.1 pair.2) files

theorem insertAll_cons (files : AList fun _ : α => β) (pair : α × β)
    (pairs : List (α × β)) :
    insertAll files (pair :: pairs) = insertAll (files.insert pair.1 pair.2) pairs :=
  rfl

/-- Under new keys nothing is lost. -/
theorem insertAll_perm (files : AList fun _ : α => β) (hnodup : (pairs.map Prod.fst).Nodup)
    (hfresh : ∀ pair ∈ pairs, pair.1 ∉ files) :
    ((insertAll files pairs).entries.map fun file => file.2).Perm
      (pairs.map Prod.snd ++ files.entries.map fun file => file.2) := by
  induction pairs generalizing files with
  | nil => exact List.Perm.refl _
  | cons pair pairs ih =>
      obtain ⟨hpair, hrest⟩ := List.forall_mem_cons.mp hfresh
      obtain ⟨hnotin, hnodup⟩ := List.nodup_cons.mp hnodup
      have hfresh' : ∀ other ∈ pairs, other.1 ∉ files.insert pair.1 pair.2 := by
        intro other hother hmem
        rcases (AList.mem_insert files).mp hmem with hsame | hold
        · exact hnotin (hsame ▸ List.mem_map_of_mem hother)
        · exact hrest other hother hold
      have hperm := ih _ hnodup hfresh'
      rw [AList.entries_insert_of_notMem hpair, List.map_cons] at hperm
      rw [insertAll_cons, List.map_cons]
      exact hperm.trans List.perm_middle

theorem length_keys_insert (files : AList fun _ : α => β) (key : α) (value : β) :
    (files.insert key value).keys.length =
      if key ∈ files then files.keys.length else files.keys.length + 1 := by
  rw [AList.keys_insert, List.length_cons]
  by_cases hmem : key ∈ files
  · rw [if_pos hmem, List.length_erase_of_mem hmem]
    have hpos := List.length_pos_of_mem hmem
    omega
  · rw [if_neg hmem, List.erase_of_not_mem hmem]

theorem length_insertAll_le (files : AList fun _ : α => β) (pairs : List (α × β)) :
    (insertAll files pairs).keys.length ≤ files.keys.length + pairs.length := by
  induction pairs generalizing files with
  | nil => exact Nat.le_refl _
  | cons pair pairs ih =>
      have hle := ih (files.insert pair.1 pair.2)
      rw [length_keys_insert] at hle
      rw [insertAll_cons, List.length_cons]
      split at hle <;> omega

/-- If nothing is lost the keys were new. -/
theorem fresh_of_length_insertAll
    (hlength : (insertAll files pairs).keys.length = files.keys.length + pairs.length) :
    (pairs.map Prod.fst).Nodup ∧ ∀ pair ∈ pairs, pair.1 ∉ files := by
  induction pairs generalizing files with
  | nil => simp
  | cons pair pairs ih =>
      rw [insertAll_cons, List.length_cons] at hlength
      have hle := length_insertAll_le (files.insert pair.1 pair.2) pairs
      have hcount := length_keys_insert files pair.1 pair.2
      by_cases hmem : pair.1 ∈ files
      · rw [if_pos hmem] at hcount
        omega
      · rw [if_neg hmem] at hcount
        obtain ⟨hnodup, hfresh⟩ := ih (by rw [hlength, hcount]; omega)
        constructor
        · refine List.nodup_cons.mpr ⟨fun hin => ?_, hnodup⟩
          obtain ⟨other, hother, hsame⟩ := List.mem_map.mp hin
          exact hfresh other hother ((AList.mem_insert files).mpr (Or.inl hsame))
        · refine List.forall_mem_cons.mpr ⟨hmem, fun other hother hold => ?_⟩
          exact hfresh other hother ((AList.mem_insert files).mpr (Or.inr hold))

end Inserts

/-- The name of a report's file and what is written to it. -/
def TimedReport.file (outputDir : String) (report : TimedReport) : String × Option Json :=
  (reportFile outputDir report.method.name report.ms, report.data.written)

/-- The reports insert their files one after the other. -/
theorem JsonFileReporter.runReports_files (reporter : JsonFileReporter) {disk : Disk}
    (hwritable : disk.writable = true) (reports : List TimedReport) :
    (reporter.runReports disk reports).files =
      insertAll disk.files (reports.map (TimedReport.file reporter.outputDir)) := by
  induction reports generalizing disk with
  | nil => rfl
  | cons report reports ih =>
      let file := report.file reporter.outputDir
      have hcall : (reporter.call report.method report.ms report.data disk).2 =
          { disk with files := disk.files.insert file.1 file.2 } := by
        rw [call_eq]
        by_cases hutf8 : report.data.Utf8
        · rw [writeToFile_of_utf8 hwritable hutf8]
          simp [file, TimedReport.file, Json.written, hutf8]
        · rw [writeToFile_of_not_utf8 hwritable hutf8]
          simp [file, TimedReport.file, Json.written, hutf8]
      rw [List.map_cons, insertAll_cons, runReports, List.foldl_cons, hcall]
      exact ih hwritable

/-- Two reports that would be written to one file. -/
def TimedReport.Collides (report report' : TimedReport) : Prop :=
  report.method = report'.method ∧ report.ms = report'.ms

theorem TimedReport.nodup_files_iff (outputDir : String) (reports : List TimedReport) :
    ((reports.map (TimedReport.file outputDir)).map Prod.fst).Nodup ↔
      reports.Pairwise fun report report' => ¬ report.Collides report' := by
  rw [List.map_map, List.Nodup, List.pairwise_map]
  apply Iff.of_eq
  congr 1
  funext report report'
  exact propext (not_congr (reportFile_inj outputDir))

/-- Of any sequence of reports, under any clock, into an empty directory: there is one
file for each report with exactly its document if and only if every document can be
serialised and no two reports of one method fall into one millisecond. -/
theorem reports_heldEach_iff (reporter : JsonFileReporter) (reports : List TimedReport) :
    (reporter.runReports Disk.empty reports).HoldsEach reports ↔
      (∀ report ∈ reports, report.data.Utf8) ∧
        reports.Pairwise fun report report' => ¬ report.Collides report' := by
  rw [← TimedReport.nodup_files_iff reporter.outputDir, Disk.HoldsEach, Disk.contents,
    reporter.runReports_files rfl]
  have hwritten : (reports.map (TimedReport.file reporter.outputDir)).map Prod.snd =
      reports.map fun report => report.data.written := by
    rw [List.map_map]
    rfl
  have hperm : ((reports.map (TimedReport.file reporter.outputDir)).map Prod.fst).Nodup →
      ((insertAll Disk.empty.files
        (reports.map (TimedReport.file reporter.outputDir))).entries.map
          fun file => file.2).Perm (reports.map fun report => report.data.written) := by
    intro hnodup
    have hall := insertAll_perm Disk.empty.files hnodup (by simp [Disk.empty])
    rw [hwritten] at hall
    simpa [Disk.empty] using hall
  constructor
  · intro hholds
    have hlength := hholds.length_eq
    have hcount : (insertAll Disk.empty.files
        (reports.map (TimedReport.file reporter.outputDir))).keys.length =
          Disk.empty.files.keys.length +
            (reports.map (TimedReport.file reporter.outputDir)).length := by
      simpa [AList.keys, List.keys, Disk.empty] using hlength
    have hnodup := (fresh_of_length_insertAll hcount).1
    refine ⟨fun report hreport => ?_, hnodup⟩
    have hsame := (hperm hnodup).symm.trans hholds
    have hmem : report.data.written ∈ reports.map fun report => some report.data :=
      hsame.subset (List.mem_map_of_mem hreport)
    obtain ⟨report', -, heq⟩ := List.mem_map.mp hmem
    exact (Json.written_eq_some_iff.mp heq.symm).1
  · rintro ⟨hutf8, hnodup⟩
    have hsome : (reports.map fun report => report.data.written) =
        reports.map fun report => some report.data := by
      apply List.map_congr_left
      intro report hreport
      exact Json.written_eq_some_iff.mpr ⟨hutf8 report hreport, rfl⟩
    rw [← hsome]
    exact hperm hnodup

namespace ReportFilesWitness

def reporter : JsonFileReporter := { outputDir := "." }

/-- Two threads are reported by one scan, in the same millisecond. -/
def oneScan : List TimedReport :=
  [{ method := .reportHighCpu, data := .number 1, ms := 1700000000000 },
    { method := .reportHighCpu, data := .number 2, ms := 1700000000000 }]

/-- The second report has taken the place of the first. -/
theorem oneScan_not_heldEach :
    ¬ (reporter.runReports Disk.empty oneScan).HoldsEach oneScan := by
  intro hholds
  have hlength : 1 = 2 := hholds.length_eq
  contradiction

end ReportFilesWitness

end Domovoy
