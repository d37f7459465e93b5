/-
The CPU monitor on Linux: one scan over the threads of the process, and which
threads it reports as spinning.
-/
import Mathlib.Data.List.AList
import Domovoy.Config

namespace Domovoy

open WordAlign

/-- What is kept of one thread id. -/
structure ThreadState where
  lastCpuTimeNs : Word
  lastCheckTimeNs : Word
deriving DecidableEq, Repr

abbrev ThreadMap := AList fun _ : Word => ThreadState

/-- What a scan reads of one thread: its id, its counters and the clock. -/
structure Sample where
  threadId : Word
  utime : Word
  stime : Word
  now : Word
deriving DecidableEq, Repr

/-- `sysconf(_SC_CLK_TCK)`, with the fallback. -/
def clkTck (sysconf : Int) : Word :=
  if sysconf ≤ 0 then 100 else BitVec.ofInt 64 sysconf

def Sample.cpuTime (sysconf : Int) (sample : Sample) : Word :=
  (sample.utime + sample.stime) * 1000000000 / clkTck sysconf

/-- More than 90% of a core since the last check; the differences are unsigned. -/
def ThreadState.Spins (last : ThreadState) (cpuTime now : Word) : Prop :=
  let cpuDelta := cpuTime - last.lastCpuTimeNs
  let timeDelta := now - last.lastCheckTimeNs
  0 < timeDelta.toNat ∧ 9 * timeDelta.toNat < 10 * cpuDelta.toNat

instance (last : ThreadState) (cpuTime now : Word) :
    Decidable (last.Spins cpuTime now) :=
  inferInstanceAs (Decidable (_ ∧ _))

/-- The body of the scan for one thread: the ids it reports, and the new map. -/
def sampleThread (sysconf : Int) (sample : Sample) (threadStates : ThreadMap) :
    List Word × ThreadMap :=
  let cpuTime := sample.cpuTime sysconf
  let next := threadStates.insert sample.threadId
    { lastCpuTimeNs := cpuTime, lastCheckTimeNs := sample.now }
  match threadStates.lookup sample.threadId with
  | some last => (if last.Spins cpuTime sample.now then [sample.threadId] else [], next)
  | none => ([], next)

/-- One scan; `CaptureBacktraceForThread` is called for the ids returned. -/
def checkThreadsForHighCpu (sysconf : Int) :
    List Sample → ThreadMap → List Word × ThreadMap
  | [], threadStates => ([], threadStates)
  | sample :: samples, threadStates =>
      let (reported, threadStates) := sampleThread sysconf sample threadStates
      let (rest, threadStates) := checkThreadsForHighCpu sysconf samples threadStates
      (reported ++ rest, threadStates)

structure CpuMonitor where
  running : Bool
  threadStates : ThreadMap

def CpuMonitor.initial : CpuMonitor where
  running := false
  threadStates := ∅

def CpuMonitor.start (monitor : CpuMonitor) : CpuMonitor :=
  if monitor.running then monitor else { monitor with running := true }

def CpuMonitor.stop (monitor : CpuMonitor) : CpuMonitor :=
  if monitor.running then { running := false, threadStates := ∅ } else monitor

theorem sampleThread_lookup_self (sysconf : Int) (sample : Sample)
    (threadStates : ThreadMap) :
    (sampleThread sysconf sample threadStates).2.lookup sample.threadId =
      some { lastCpuTimeNs := sample.cpuTime sysconf, lastCheckTimeNs := sample.now } := by
  rw [sampleThread]
  cases threadStates.lookup sample.threadId <;> simp

theorem sampleThread_lookup_of_ne (sysconf : Int) {sample : Sample} {threadId : Word}
    (hne : threadId ≠ sample.threadId) (threadStates : ThreadMap) :
    (sampleThread sysconf sample threadStates).2.lookup threadId =
      threadStates.lookup threadId := by
  rw [sampleThread]
  cases threadStates.lookup sample.threadId <;> simp [AList.lookup_insert_ne hne]

theorem mem_sampleThread (sysconf : Int) {sample : Sample} {threadId : Word}
    {threadStates : ThreadMap} :
    threadId ∈ (sampleThread sysconf sample threadStates).1 ↔
      threadId = sample.threadId ∧ ∃ last,
        threadStates.lookup sample.threadId = some last ∧
          last.Spins (sample.cpuTime sysconf) sample.now := by
  rw [sampleThread]
  cases threadStates.lookup sample.threadId with
  | none => simp
  | some last =>
      by_cases hspins : last.Spins (sample.cpuTime sysconf) sample.now <;> simp [hspins]

/-- After a scan of distinct threads an id that was sampled has its new entry, any
other its old one. -/
theorem checkThreads_lookup_of_not_mem (sysconf : Int) {samples : List Sample}
    {threadId : Word} (hmem : threadId ∉ samples.map Sample.threadId)
    (threadStates : ThreadMap) :
    (checkThreadsForHighCpu sysconf samples threadStates).2.lookup threadId =
      threadStates.lookup threadId := by
  induction samples generalizing threadStates with
  | nil => rfl
  | cons sample samples ih =>
      simp only [List.map_cons, List.mem_cons, not_or] at hmem
      rw [checkThreadsForHighCpu]
      exact (ih hmem.2 _).trans (sampleThread_lookup_of_ne sysconf hmem.1 threadStates)

theorem checkThreads_lookup_of_mem (sysconf : Int) {samples : List Sample}
    (hnodup : (samples.map Sample.threadId).Nodup) {sample : Sample}
    (hmem : sample ∈ samples) (threadStates : ThreadMap) :
    (checkThreadsForHighCpu sysconf samples threadStates).2.lookup sample.threadId =
      some { lastCpuTimeNs := sample.cpuTime sysconf, lastCheckTimeNs := sample.now } := by
  induction samples generalizing threadStates with
  | nil => simp at hmem
  | cons first samples ih =>
      obtain ⟨hfirst, hrest⟩ := List.nodup_cons.mp hnodup
      rw [checkThreadsForHighCpu]
      rcases List.mem_cons.mp hmem with rfl | hmem
      · exact (checkThreads_lookup_of_not_mem sysconf hfirst _).trans
          (sampleThread_lookup_self sysconf sample threadStates)
      · exact ih hrest hmem _

theorem mem_map_of_mem_checkThreads (sysconf : Int) {samples : List Sample}
    {threadId : Word} {threadStates : ThreadMap}
    (hmem : threadId ∈ (checkThreadsForHighCpu sysconf samples threadStates).1) :
    threadId ∈ samples.map Sample.threadId := by
  induction samples generalizing threadStates with
  | nil => simp [checkThreadsForHighCpu] at hmem
  | cons sample samples ih =>
      rw [checkThreadsForHighCpu] at hmem
      rw [List.map_cons, List.mem_cons]
      rcases List.mem_append.mp hmem with hfirst | hrest
      · exact .inl ((mem_sampleThread sysconf).mp hfirst).1
      · exact .inr (ih hrest)

/-- A scan of distinct threads reports a thread exactly when it spins against the
entry that its id had before the scan. -/
theorem mem_checkThreads (sysconf : Int) {samples : List Sample}
    (hnodup : (samples.map Sample.threadId).Nodup) {sample : Sample}
    (hmem : sample ∈ samples) (threadStates : ThreadMap) :
    sample.threadId ∈ (checkThreadsForHighCpu sysconf samples threadStates).1 ↔
      ∃ last, threadStates.lookup sample.threadId = some last ∧
        last.Spins (sample.cpuTime sysconf) sample.now := by
  induction samples generalizing threadStates with
  | nil => simp at hmem
  | cons first samples ih =>
      obtain ⟨hfirst, hrest⟩ := List.nodup_cons.mp hnodup
      rw [checkThreadsForHighCpu]
      change _ ∈ _ ++ _ ↔ _
      rw [List.mem_append, mem_sampleThread]
      rcases List.mem_cons.mp hmem with rfl | hmem
      · have hlater : sample.threadId ∉ (checkThreadsForHighCpu sysconf samples
            (sampleThread sysconf sample threadStates).2).1 := by
          intro hreported
          exact hfirst (mem_map_of_mem_checkThreads sysconf hreported)
        simp only [hlater, or_false, true_and]
      · have hne : sample.threadId ≠ first.threadId := by
          intro heq
          exact hfirst (heq ▸ List.mem_map_of_mem hmem)
        rw [ih hrest hmem, sampleThread_lookup_of_ne sysconf hne]
        simp only [hne, false_and, false_or]

end Domovoy
