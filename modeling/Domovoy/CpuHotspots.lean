/-
Which threads the CPU monitor reports over the scans of a session, against the CPU
time that each thread used.  Thread ids are recycled; the threads themselves are
not.
-/
import Mathlib.Data.Nat.Cast.Field
import Mathlib.Data.Rat.Cast.Order
import Mathlib.Tactic.Linarith
import Domovoy.CpuMonitor
import Domovoy.Transition

namespace Domovoy

open WordAlign Transition

/-- A sample with the thread that held the id when it was taken. -/
structure Observed (Thread : Type) where
  thread : Thread
  sample : Sample
deriving DecidableEq

/-- The map of the monitor and the samples of the session, latest first. -/
structure CpuSession (Thread : Type) where
  threadStates : ThreadMap
  history : List (Observed Thread)

def CpuSession.initial (Thread : Type) : CpuSession Thread where
  threadStates := ∅
  history := []

/-- A scan, or the end of the session. -/
inductive CpuEvent (Thread : Type) where
  | scan (observed : List (Observed Thread))
  | stop
deriving DecidableEq

variable {Thread : Type}

def CpuSession.step (sysconf : Int) (s : CpuSession Thread) (event : CpuEvent Thread) :
    Option (CpuSession Thread) :=
  match event with
  | .scan observed =>
      some {
        threadStates :=
          (checkThreadsForHighCpu sysconf (observed.map Observed.sample) s.threadStates).2
        history := observed.reverse ++ s.history }
  | .stop => some (CpuSession.initial Thread)

variable [DecidableEq Thread]

/-- The latest sample of a thread in the session. -/
def CpuSession.lastOfThread (s : CpuSession Thread) (thread : Thread) :
    Option (Observed Thread) :=
  s.history.find? fun earlier => earlier.thread = thread

/-- The latest sample under an id in the session, whichever thread held it. -/
def CpuSession.lastOfId (s : CpuSession Thread) (threadId : Word) :
    Option (Observed Thread) :=
  s.history.find? fun earlier => earlier.sample.threadId = threadId

/-- The clock ticks a thread has used. -/
def Sample.ticks (sample : Sample) : Nat :=
  sample.utime.toNat + sample.stime.toNat

/-- The CPU time of a thread in nanoseconds, exactly. -/
def Sample.exactCpuTime (sysconf : Int) (sample : Sample) : ℚ :=
  sample.ticks * 10 ^ 9 / (clkTck sysconf).toNat

/-- The thread was sampled before in the session, and since then has used more than
90% of the time elapsed. -/
def CpuSession.ShouldReport (sysconf : Int) (s : CpuSession Thread)
    (observed : Observed Thread) : Prop :=
  ∃ earlier, s.lastOfThread observed.thread = some earlier ∧
    9 / 10 * ((observed.sample.now.toNat : ℚ) - earlier.sample.now.toNat) <
      observed.sample.exactCpuTime sysconf - earlier.sample.exactCpuTime sysconf

/-- The ids that the event makes the monitor report. -/
def CpuSession.reported (sysconf : Int) (s : CpuSession Thread)
    (observed : List (Observed Thread)) : List Word :=
  (checkThreadsForHighCpu sysconf (observed.map Observed.sample) s.threadStates).1

/-- A scan reports the threads that it should and no others. -/
def CpuSession.ReportsExact (sysconf : Int) (s : CpuSession Thread)
    (event : CpuEvent Thread) : Prop :=
  ∀ observed, event = .scan observed →
    (∀ threadId ∈ s.reported sysconf observed,
      ∃ one ∈ observed, one.sample.threadId = threadId) ∧
    ∀ one ∈ observed,
      one.sample.threadId ∈ s.reported sysconf observed ↔ s.ShouldReport sysconf one

/-- What the kernel and the clock guarantee of a scan: an id is listed once, the
clock has advanced, no thread's counters have gone back, and a thread keeps its id
for as long as it lives. -/
structure CpuSession.ScanOk (s : CpuSession Thread)
    (observed : List (Observed Thread)) : Prop where
  distinct : (observed.map fun one => one.sample.threadId).Nodup
  clock : ∀ one ∈ observed, ∀ earlier ∈ s.history,
    earlier.sample.now.toNat < one.sample.now.toNat
  counters : ∀ one ∈ observed, ∀ earlier ∈ s.history, earlier.thread = one.thread →
    earlier.sample.utime.toNat ≤ one.sample.utime.toNat ∧
      earlier.sample.stime.toNat ≤ one.sample.stime.toNat
  holder : ∀ one ∈ observed, s.lastOfThread one.thread ≠ none →
    s.lastOfId one.sample.threadId = s.lastOfThread one.thread

/-- The counters fit 64 bits when scaled to nanoseconds, and a tick is a whole
number of them. -/
structure CpuSession.InRange (sysconf : Int) (observed : List (Observed Thread)) :
    Prop where
  tick : (clkTck sysconf).toNat ∣ 10 ^ 9
  fits : ∀ one ∈ observed, one.sample.ticks * 10 ^ 9 < 2 ^ 64

/-- The surroundings of one event. -/
def CpuSession.EventOk (sysconf : Int) (s : CpuSession Thread)
    (event : CpuEvent Thread) : Prop :=
  ∀ observed, event = .scan observed →
    s.ScanOk observed ∧ CpuSession.InRange sysconf observed

/-- Where an id passes from one thread to another, the new thread's CPU time less
the old one's, modulo `2 ^ 64`, is at most 90% of the time between the samples. -/
def CpuSession.RecyclesQuietly (sysconf : Int) (s : CpuSession Thread)
    (event : CpuEvent Thread) : Prop :=
  ∀ observed, event = .scan observed → ∀ one ∈ observed, ∀ earlier,
    s.lastOfId one.sample.threadId = some earlier → earlier.thread ≠ one.thread →
      10 * (one.sample.cpuTime sysconf - earlier.sample.cpuTime sysconf).toNat ≤
        9 * (one.sample.now - earlier.sample.now).toNat

/-- The map holds for each id its latest sample, and every sample was in range. -/
structure CpuSession.Inv (sysconf : Int) (s : CpuSession Thread) : Prop where
  entry : ∀ threadId, s.threadStates.lookup threadId =
    (s.lastOfId threadId).map fun earlier =>
      { lastCpuTimeNs := earlier.sample.cpuTime sysconf
        lastCheckTimeNs := earlier.sample.now }
  fits : ∀ earlier ∈ s.history, earlier.sample.ticks * 10 ^ 9 < 2 ^ 64

omit [DecidableEq Thread] in
theorem CpuSession.inv_initial (sysconf : Int) :
    (CpuSession.initial Thread).Inv sysconf where
  entry := by simp [initial, lastOfId]
  fits := by simp [initial]

theorem clkTck_pos {sysconf : Int} (htick : (clkTck sysconf).toNat ∣ 10 ^ 9) :
    0 < (clkTck sysconf).toNat :=
  Nat.pos_of_dvd_of_pos htick (by decide)

/-- The scaled CPU time, when it fits. -/
theorem Sample.toNat_cpuTime {sysconf : Int} {sample : Sample}
    (htick : (clkTck sysconf).toNat ∣ 10 ^ 9) (hfits : sample.ticks * 10 ^ 9 < 2 ^ 64) :
    (sample.cpuTime sysconf).toNat =
      sample.ticks * (10 ^ 9 / (clkTck sysconf).toNat) := by
  have hticks : sample.ticks < 2 ^ 64 := by omega
  have hsum : (sample.utime + sample.stime).toNat = sample.ticks := by
    rw [BitVec.toNat_add, ← ticks, Nat.mod_eq_of_lt hticks]
  have hscaled : ((sample.utime + sample.stime) * 1000000000).toNat =
      sample.ticks * 10 ^ 9 := by
    rw [BitVec.toNat_mul, hsum]
    exact Nat.mod_eq_of_lt hfits
  rw [cpuTime, BitVec.toNat_udiv, hscaled, Nat.mul_div_assoc _ htick]

theorem Sample.exactCpuTime_eq {sysconf : Int} {sample : Sample}
    (htick : (clkTck sysconf).toNat ∣ 10 ^ 9) (hfits : sample.ticks * 10 ^ 9 < 2 ^ 64) :
    sample.exactCpuTime sysconf = (sample.cpuTime sysconf).toNat := by
  have hpos : ((clkTck sysconf).toNat : ℚ) ≠ 0 := by
    exact_mod_cast (clkTck_pos htick).ne'
  rw [toNat_cpuTime htick hfits, exactCpuTime, Nat.cast_mul, Nat.cast_div htick hpos]
  push_cast
  ring

/-- Against an earlier sample of the same thread the unsigned comparison is the
exact one. -/
theorem spins_iff {sysconf : Int} {earlier later : Sample}
    (htick : (clkTck sysconf).toNat ∣ 10 ^ 9)
    (hearlier : earlier.ticks * 10 ^ 9 < 2 ^ 64) (hlater : later.ticks * 10 ^ 9 < 2 ^ 64)
    (hclock : earlier.now.toNat < later.now.toNat)
    (hticks : earlier.ticks ≤ later.ticks) :
    ThreadState.Spins ⟨earlier.cpuTime sysconf, earlier.now⟩ (later.cpuTime sysconf)
        later.now ↔
      9 / 10 * ((later.now.toNat : ℚ) - earlier.now.toNat) <
        later.exactCpuTime sysconf - earlier.exactCpuTime sysconf := by
  have hcpu : (earlier.cpuTime sysconf).toNat ≤ (later.cpuTime sysconf).toNat := by
    rw [Sample.toNat_cpuTime htick hearlier, Sample.toNat_cpuTime htick hlater]
    exact Nat.mul_le_mul_right _ hticks
  have hcpuDelta : (later.cpuTime sysconf - earlier.cpuTime sysconf).toNat =
      (later.cpuTime sysconf).toNat - (earlier.cpuTime sysconf).toNat :=
    BitVec.toNat_sub_of_le hcpu
  have htimeDelta : (later.now - earlier.now).toNat =
      later.now.toNat - earlier.now.toNat :=
    BitVec.toNat_sub_of_le hclock.le
  rw [Sample.exactCpuTime_eq htick hearlier, Sample.exactCpuTime_eq htick hlater]
  simp only [ThreadState.Spins, hcpuDelta, htimeDelta, Nat.sub_pos_of_lt hclock, true_and]
  rw [← Nat.cast_sub hcpu, ← Nat.cast_sub hclock.le, ← Nat.cast_lt (α := ℚ)]
  push_cast
  constructor <;> intro h <;> linarith

theorem CpuSession.step_inv {sysconf : Int} {s s' : CpuSession Thread}
    {event : CpuEvent Thread} (hinv : s.Inv sysconf)
    (hok : s.EventOk sysconf event) (hstep : s.step sysconf event = some s') :
    s'.Inv sysconf := by
  cases event with
  | stop =>
      obtain rfl := Option.some.inj hstep
      exact inv_initial sysconf
  | scan observed =>
      obtain rfl := Option.some.inj hstep
      obtain ⟨hscan, hrange⟩ := hok observed rfl
      have hnodup : ((observed.map Observed.sample).map Sample.threadId).Nodup := by
        rw [List.map_map]
        exact hscan.distinct
      constructor
      · intro threadId
        rw [lastOfId, List.find?_append]
        cases hfind : observed.reverse.find? fun one => one.sample.threadId = threadId with
        | some found =>
            have hfound := List.mem_reverse.mp (List.mem_of_find?_eq_some hfind)
            have hid : found.sample.threadId = threadId := by
              simpa using List.find?_some hfind
            rw [← hid]
            exact checkThreads_lookup_of_mem sysconf hnodup
              (List.mem_map_of_mem hfound) s.threadStates
        | none =>
            have hmem : threadId ∉ (observed.map Observed.sample).map Sample.threadId := by
              intro hmem
              rw [List.map_map] at hmem
              obtain ⟨one, hone, hid⟩ := List.mem_map.mp hmem
              have hno := List.find?_eq_none.mp hfind one (List.mem_reverse.mpr hone)
              simp [← hid] at hno
            exact (checkThreads_lookup_of_not_mem sysconf hmem s.threadStates).trans
              (hinv.entry threadId)
      · intro earlier hmem
        rcases List.mem_append.mp hmem with hnew | hold
        · exact hrange.fits earlier (List.mem_reverse.mp hnew)
        · exact hinv.fits earlier hold

/-- The latest sample of a thread is the latest under its id. -/
theorem CpuSession.lastOfId_of_lastOfThread {s : CpuSession Thread}
    {observed : List (Observed Thread)} (hscan : s.ScanOk observed)
    {one earlier : Observed Thread} (hone : one ∈ observed)
    (hthread : s.lastOfThread one.thread = some earlier) :
    s.lastOfId one.sample.threadId = some earlier := by
  rw [hscan.holder one hone (by simp [hthread]), hthread]

theorem CpuSession.ticks_le {s : CpuSession Thread} {observed : List (Observed Thread)}
    (hscan : s.ScanOk observed) {one earlier : Observed Thread} (hone : one ∈ observed)
    (hearlier : earlier ∈ s.history) (hthread : earlier.thread = one.thread) :
    earlier.sample.ticks ≤ one.sample.ticks := by
  have hcounters := hscan.counters one hone earlier hearlier hthread
  exact Nat.add_le_add hcounters.1 hcounters.2

/-- One thread is reported as it should be, unless its id comes from another thread
and its CPU time looks high against that thread's. -/
theorem CpuSession.reported_iff {sysconf : Int} {s : CpuSession Thread}
    {observed : List (Observed Thread)} (hinv : s.Inv sysconf) (hscan : s.ScanOk observed)
    (hrange : CpuSession.InRange sysconf observed) {one : Observed Thread}
    (hone : one ∈ observed) :
    (one.sample.threadId ∈ s.reported sysconf observed ↔ s.ShouldReport sysconf one) ↔
      ∀ earlier, s.lastOfId one.sample.threadId = some earlier →
        earlier.thread ≠ one.thread →
          10 * (one.sample.cpuTime sysconf - earlier.sample.cpuTime sysconf).toNat ≤
            9 * (one.sample.now - earlier.sample.now).toNat := by
  have hnodup : ((observed.map Observed.sample).map Sample.threadId).Nodup := by
    rw [List.map_map]
    exact hscan.distinct
  have hreported := mem_checkThreads sysconf hnodup (List.mem_map_of_mem hone)
    s.threadStates
  rw [hinv.entry] at hreported
  cases hlast : s.lastOfId one.sample.threadId with
  | none =>
      have hnot : ¬ s.ShouldReport sysconf one := by
        rintro ⟨earlier, hthread, -⟩
        rw [lastOfId_of_lastOfThread hscan hone hthread] at hlast
        contradiction
      refine iff_of_true (iff_of_false ?_ hnot) nofun
      intro hmem
      obtain ⟨last, hentry, -⟩ := hreported.mp hmem
      simp [hlast] at hentry
  | some earlier =>
      have hhistory : earlier ∈ s.history := List.mem_of_find?_eq_some hlast
      have hclock := hscan.clock one hone earlier hhistory
      have hspins : one.sample.threadId ∈ s.reported sysconf observed ↔
          ThreadState.Spins ⟨earlier.sample.cpuTime sysconf, earlier.sample.now⟩
            (one.sample.cpuTime sysconf) one.sample.now := by
        rw [reported, hreported, hlast]
        simp
      by_cases hthread : earlier.thread = one.thread
      · -- The thread held its id in the earlier sample, so that sample is its own.
        have hown : s.lastOfThread one.thread = some earlier := by
          cases hfind : s.lastOfThread one.thread with
          | none =>
              have hno := List.find?_eq_none.mp hfind earlier hhistory
              simp [hthread] at hno
          | some found => rw [← lastOfId_of_lastOfThread hscan hone hfind, hlast]
        have hexact : s.ShouldReport sysconf one ↔
            9 / 10 * ((one.sample.now.toNat : ℚ) - earlier.sample.now.toNat) <
              one.sample.exactCpuTime sysconf - earlier.sample.exactCpuTime sysconf := by
          simp [ShouldReport, hown]
        refine iff_of_true ?_ ?_
        · rw [hspins, hexact]
          exact spins_iff hrange.tick (hinv.fits earlier hhistory) (hrange.fits one hone)
            hclock (ticks_le hscan hone hhistory hthread)
        · rintro found ⟨rfl⟩ hne
          exact absurd hthread hne
      · have hnot : ¬ s.ShouldReport sysconf one := by
          rintro ⟨found, hfound, -⟩
          have hsame := (lastOfId_of_lastOfThread hscan hone hfound).symm.trans hlast
          obtain rfl := Option.some.inj hsame
          have hheld : found.thread = one.thread := by
            simpa using List.find?_some hfound
          exact hthread hheld
        have htime : 0 < (one.sample.now - earlier.sample.now).toNat := by
          rw [BitVec.toNat_sub_of_le hclock.le]
          exact Nat.sub_pos_of_lt hclock
        rw [hspins, iff_false_right hnot, ThreadState.Spins]
        simp only [htime, true_and, not_lt]
        constructor
        · rintro hquiet found ⟨rfl⟩ -
          exact hquiet
        · intro hquiet
          exact hquiet earlier rfl hthread

/-- One scan reports what it should if and only if it recycles ids quietly. -/
theorem CpuSession.reportsExact_iff {sysconf : Int} {s : CpuSession Thread}
    {event : CpuEvent Thread} (hinv : s.Inv sysconf) (hok : s.EventOk sysconf event) :
    s.ReportsExact sysconf event ↔ s.RecyclesQuietly sysconf event := by
  apply forall₂_congr
  intro observed hevent
  obtain ⟨hscan, hrange⟩ := hok observed hevent
  have hheld : ∀ threadId ∈ s.reported sysconf observed,
      ∃ one ∈ observed, one.sample.threadId = threadId := by
    intro threadId hmem
    have hsampled := mem_map_of_mem_checkThreads sysconf hmem
    rw [List.map_map] at hsampled
    exact List.mem_map.mp hsampled
  rw [and_iff_right hheld]
  apply forall₂_congr
  intro one hone
  exact reported_iff hinv hscan hrange hone

/-- Over the scans of any sessions in which threads come and go and ids are handed
on: every scan reports exactly the threads it should if and only if no new thread
looks busy against the record of the thread that had its id before. -/
theorem cpuReports_exact_iff (sysconf : Int) (events : List (CpuEvent Thread))
    (hevents : Along (CpuSession.step sysconf) (CpuSession.EventOk sysconf)
      (CpuSession.initial Thread) events) :
    Along (CpuSession.step sysconf) (CpuSession.ReportsExact sysconf)
        (CpuSession.initial Thread) events ↔
      Along (CpuSession.step sysconf) (CpuSession.RecyclesQuietly sysconf)
        (CpuSession.initial Thread) events :=
  along_congr (CpuSession.Inv sysconf)
    (fun _ _ _ hinv hok hstep => CpuSession.step_inv hinv hok hstep)
    (fun _ _ hinv hok => CpuSession.reportsExact_iff hinv hok)
    (CpuSession.inv_initial sysconf) hevents

namespace CpuWitness

def sample (threadId utime now : Word) : Sample where
  threadId := threadId
  utime := utime
  stime := 0
  now := now

/-- Thread 0 spins under id 7. -/
def spinning : List (CpuEvent (Fin 2)) :=
  [.scan [⟨0, sample 7 100 1000000000⟩], .scan [⟨0, sample 7 150 1500000000⟩], .stop]

theorem spinning_ok :
    Along (CpuSession.step 100) (CpuSession.EventOk 100) (CpuSession.initial (Fin 2))
      spinning := by
  refine ⟨?_, fun next hnext => ⟨?_, fun next' hnext' => ⟨nofun, fun _ _ => trivial⟩⟩⟩
  · rintro observed ⟨rfl⟩
    constructor <;> constructor <;> decide
  · obtain rfl := Option.some.inj hnext
    rintro observed ⟨rfl⟩
    constructor <;> constructor <;> decide

theorem spinning_exact_iff :
    Along (CpuSession.step 100) (CpuSession.ReportsExact 100)
        (CpuSession.initial (Fin 2)) spinning ↔
      Along (CpuSession.step 100) (CpuSession.RecyclesQuietly 100)
        (CpuSession.initial (Fin 2)) spinning :=
  cpuReports_exact_iff 100 spinning spinning_ok

/-- Thread 0 exits and thread 1, just created, is given its id. -/
def recycled : List (CpuEvent (Fin 2)) :=
  [.scan [⟨0, sample 7 100 1000000000⟩], .scan [⟨1, sample 7 0 1500000000⟩]]

/-- The new thread is reported on its first sample. -/
theorem recycled_reported :
    Along (CpuSession.step 100) (CpuSession.EventOk 100) (CpuSession.initial (Fin 2))
        recycled ∧
      ¬ Along (CpuSession.step 100) (CpuSession.ReportsExact 100)
        (CpuSession.initial (Fin 2)) recycled := by
  constructor
  · refine ⟨?_, fun next hnext => ⟨?_, fun next' hnext' => trivial⟩⟩
    · rintro observed ⟨rfl⟩
      constructor <;> constructor <;> decide
    · obtain rfl := Option.some.inj hnext
      rintro observed ⟨rfl⟩
      constructor <;> constructor <;> decide
  · intro hexact
    have hsecond := (hexact.2 _ rfl).1 _ rfl
    have hreport := (hsecond.2 ⟨1, sample 7 0 1500000000⟩ (by decide)).mp (by decide)
    obtain ⟨earlier, hearlier, -⟩ := hreport
    exact absurd (Option.isSome_iff_exists.mpr ⟨earlier, hearlier⟩) (by decide)

end CpuWitness

end Domovoy
