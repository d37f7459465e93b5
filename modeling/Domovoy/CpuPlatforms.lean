/-
The three branches of `CheckThreadsForHighCpu`: what each reads of the threads of the
process, and what all of them report of it.
-/
import Domovoy.CpuHotspots
import Domovoy.LastSeen
import Domovoy.StatLine

namespace Domovoy

open WordAlign Transition LastSeen

/-- What a branch has in hand of a thread when it comes to the part that is the same in
all three. -/
structure Reading where
  threadId : Word
  cpuTime : Word
  now : Word
deriving DecidableEq, Repr

def Reading.state (reading : Reading) : ThreadState where
  lastCpuTimeNs := reading.cpuTime
  lastCheckTimeNs := reading.now

/-- The comparison with the entry of the id, and the new entry. -/
def visitThread (reading : Reading) (threadStates : ThreadMap) : List Word × ThreadMap :=
  match threadStates.lookup reading.threadId with
  | some last =>
      (if last.Spins reading.cpuTime reading.now then [reading.threadId] else [],
        threadStates.insert reading.threadId reading.state)
  | none => ([], threadStates.insert reading.threadId reading.state)

/-- `time_value_t`, of two `integer_t`. -/
structure TimeValue where
  seconds : BitVec 32
  microseconds : BitVec 32
deriving DecidableEq, Repr

/-- The product with an unsigned constant converts a negative field. -/
def TimeValue.nanoseconds (time : TimeValue) : Word :=
  time.seconds.signExtend 64 * 1000000000 + time.microseconds.signExtend 64 * 1000

structure ThreadBasicInfo where
  userTime : TimeValue
  systemTime : TimeValue
deriving DecidableEq, Repr

/-- A port of `task_threads`, with what `thread_info` says of it unless that fails, and the
clock. -/
structure ThreadAct where
  port : BitVec 32
  info : Option ThreadBasicInfo
  now : Word
deriving DecidableEq, Repr

def ThreadAct.visit (act : ThreadAct) (threadStates : ThreadMap) : List Word × ThreadMap :=
  match act.info with
  | some info =>
      let cpuTime := info.userTime.nanoseconds + info.systemTime.nanoseconds
      visitThread { threadId := act.port.setWidth 64, cpuTime, now := act.now } threadStates
  | none => ([], threadStates)

/-- The loop over the ports. -/
def scanActs : List ThreadAct → ThreadMap → List Word × ThreadMap
  | [], threadStates => ([], threadStates)
  | act :: acts, threadStates =>
      let (reported, threadStates) := act.visit threadStates
      let (rest, threadStates) := scanActs acts threadStates
      (reported ++ rest, threadStates)

/-- `FILETIME`, in intervals of 100 ns. -/
structure FileTime where
  dwLowDateTime : BitVec 32
  dwHighDateTime : BitVec 32
deriving DecidableEq, Repr

/-- The `ULARGE_INTEGER` of the two halves. -/
def FileTime.quadPart (time : FileTime) : Word :=
  time.dwHighDateTime ++ time.dwLowDateTime

structure ThreadTimes where
  kernelTime : FileTime
  userTime : FileTime
deriving DecidableEq, Repr

/-- A `THREADENTRY32`, with the handle of the thread unless it cannot be opened, the times
of the handle unless they cannot be had, and the clock. -/
structure ThreadEntry where
  th32ThreadId : BitVec 32
  th32OwnerProcessId : BitVec 32
  handle : Option (Option ThreadTimes)
  now : Word
deriving DecidableEq, Repr

/-- The snapshot has the threads of every process. -/
def ThreadEntry.visit (currentProcessId : BitVec 32) (entry : ThreadEntry)
    (threadStates : ThreadMap) : List Word × ThreadMap :=
  if entry.th32OwnerProcessId = currentProcessId then
    match entry.handle with
    | some (some times) =>
        let cpuTime := (times.kernelTime.quadPart + times.userTime.quadPart) * 100
        visitThread { threadId := entry.th32ThreadId.setWidth 64, cpuTime, now := entry.now }
          threadStates
    | some none => ([], threadStates)
    | none => ([], threadStates)
  else ([], threadStates)

/-- The loop from `Thread32First` on. -/
def scanEntries (currentProcessId : BitVec 32) :
    List ThreadEntry → ThreadMap → List Word × ThreadMap
  | [], threadStates => ([], threadStates)
  | entry :: entries, threadStates =>
      let (reported, threadStates) := entry.visit currentProcessId threadStates
      let (rest, threadStates) := scanEntries currentProcessId entries threadStates
      (reported ++ rest, threadStates)

/-- What the code is compiled for, with what it asks of the system besides the threads. -/
inductive Platform where
  | apple
  | windows (currentProcessId : BitVec 32)
  | linux (sysconf : Int)
deriving DecidableEq, Repr

/-- What the system lists. -/
def Platform.Listed : Platform → Type
  | .apple => ThreadAct
  | .windows _ => ThreadEntry
  | .linux _ => TaskEntry

/-- One scan; there is no list where the system gives none. -/
def Platform.checkThreadsForHighCpu (platform : Platform)
    (listed : Option (List platform.Listed)) (threadStates : ThreadMap) :
    List Word × ThreadMap :=
  match platform, listed with
  | _, none => ([], threadStates)
  | .apple, some acts => scanActs acts threadStates
  | .windows currentProcessId, some entries =>
      scanEntries currentProcessId entries threadStates
  | .linux sysconf, some entries => scanTasks sysconf entries threadStates

/-- What is in hand of a thread that is not passed over. -/
def Platform.reading : (platform : Platform) → platform.Listed → Option Reading
  | .apple, (act : ThreadAct) => act.info.map fun info =>
      { threadId := act.port.setWidth 64
        cpuTime := info.userTime.nanoseconds + info.systemTime.nanoseconds
        now := act.now }
  | .windows currentProcessId, (entry : ThreadEntry) =>
      if entry.th32OwnerProcessId = currentProcessId then
        entry.handle.join.map fun times =>
          { threadId := entry.th32ThreadId.setWidth 64
            cpuTime := (times.kernelTime.quadPart + times.userTime.quadPart) * 100
            now := entry.now }
      else none
  | .linux sysconf, (entry : TaskEntry) => entry.sample.map fun sample =>
      { threadId := sample.threadId, cpuTime := sample.cpuTime sysconf, now := sample.now }

def visitThreads : List Reading → ThreadMap → List Word × ThreadMap
  | [], threadStates => ([], threadStates)
  | reading :: readings, threadStates =>
      let (reported, threadStates) := visitThread reading threadStates
      let (rest, threadStates) := visitThreads readings threadStates
      (reported ++ rest, threadStates)

/-- A loop that visits each thread on its own, or passes it over. -/
theorem visitThreads_filterMap {Listed : Type} {reading : Listed → Option Reading}
    (visit : Listed → ThreadMap → List Word × ThreadMap)
    {loop : List Listed → ThreadMap → List Word × ThreadMap}
    (hvisit : ∀ one threadStates, visit one threadStates =
      (reading one).elim ([], threadStates) fun reading => visitThread reading threadStates)
    (hnil : ∀ threadStates, loop [] threadStates = ([], threadStates))
    (hcons : ∀ one rest threadStates, loop (one :: rest) threadStates =
      ((visit one threadStates).1 ++ (loop rest (visit one threadStates).2).1,
        (loop rest (visit one threadStates).2).2))
    (listed : List Listed) (threadStates : ThreadMap) :
    loop listed threadStates = visitThreads (listed.filterMap reading) threadStates := by
  induction listed generalizing threadStates with
  | nil => exact hnil threadStates
  | cons one rest ih =>
      rw [hcons, ih, hvisit]
      cases hreading : reading one with
      | none =>
          rw [List.filterMap_cons_none hreading]
          rfl
      | some reading =>
          rw [List.filterMap_cons_some hreading]
          rfl

theorem scanActs_eq (acts : List ThreadAct) (threadStates : ThreadMap) :
    scanActs acts threadStates =
      visitThreads (acts.filterMap Platform.apple.reading) threadStates := by
  apply visitThreads_filterMap ThreadAct.visit
  · intro act threadStates
    rw [ThreadAct.visit, Platform.reading]
    cases act.info <;> rfl
  · exact fun _ => rfl
  · exact fun _ _ _ => rfl

theorem scanEntries_eq (currentProcessId : BitVec 32) (entries : List ThreadEntry)
    (threadStates : ThreadMap) :
    scanEntries currentProcessId entries threadStates = visitThreads
      (entries.filterMap (Platform.windows currentProcessId).reading) threadStates := by
  apply visitThreads_filterMap (ThreadEntry.visit currentProcessId)
  · intro entry threadStates
    rw [ThreadEntry.visit, Platform.reading]
    by_cases howner : entry.th32OwnerProcessId = currentProcessId
    · rw [if_pos howner, if_pos howner]
      rcases entry.handle with _ | _ | times <;> rfl
    · rw [if_neg howner, if_neg howner]
      rfl
  · exact fun _ => rfl
  · exact fun _ _ _ => rfl

theorem scanTasks_eq_visitThreads (sysconf : Int) (entries : List TaskEntry)
    (threadStates : ThreadMap) :
    scanTasks sysconf entries threadStates = visitThreads
      (entries.filterMap (Platform.linux sysconf).reading) threadStates := by
  apply visitThreads_filterMap (scanTask sysconf)
  · intro entry threadStates
    rw [scanTask, Platform.reading]
    cases hsample : entry.sample with
    | none => rfl
    | some sample =>
        simp only [Option.map_some, Option.elim_some, sampleThread, visitThread]
        cases threadStates.lookup sample.threadId <;> rfl
  · exact fun _ => rfl
  · exact fun _ _ _ => rfl

/-- A scan on any platform is one over the readings that it takes. -/
theorem Platform.checkThreadsForHighCpu_eq (platform : Platform)
    (listed : Option (List platform.Listed)) (threadStates : ThreadMap) :
    platform.checkThreadsForHighCpu listed threadStates =
      visitThreads ((listed.getD []).filterMap platform.reading) threadStates := by
  cases listed with
  | none => cases platform <;> rfl
  | some listed =>
      cases platform with
      | apple => exact scanActs_eq listed threadStates
      | windows currentProcessId => exact scanEntries_eq currentProcessId listed threadStates
      | linux sysconf => exact scanTasks_eq_visitThreads sysconf listed threadStates

/-- A thread that was not passed over, and what was read of it. -/
structure Sighting (platform : Platform) where
  listed : platform.Listed
  reading : Reading
  read : platform.reading listed = some reading

def TimeValue.exact (time : TimeValue) : ℚ :=
  time.seconds.toInt * 10 ^ 9 + time.microseconds.toInt * 10 ^ 3

/-- The CPU time that the system gives for the thread in nanoseconds, exactly; none for a
thread that is passed over. -/
def Platform.exactCpuTime : (platform : Platform) → platform.Listed → ℚ
  | .apple, (act : ThreadAct) =>
      act.info.elim 0 fun info => info.userTime.exact + info.systemTime.exact
  | .windows _, (entry : ThreadEntry) =>
      entry.handle.join.elim 0 fun times =>
        ((times.kernelTime.quadPart.toNat + times.userTime.quadPart.toNat) * 100 : Nat)
  | .linux sysconf, (entry : TaskEntry) =>
      entry.sample.elim 0 fun sample => sample.exactCpuTime sysconf

/-- The fields are in the range in which the conversion to nanoseconds is exact: none is
negative; or 64 bits hold the sum. On Linux a tick is a whole number of nanoseconds too. -/
def Platform.InRange : (platform : Platform) → platform.Listed → Prop
  | .apple, (act : ThreadAct) => ∀ info ∈ act.info,
      0 ≤ info.userTime.seconds.toInt ∧ 0 ≤ info.userTime.microseconds.toInt ∧
        0 ≤ info.systemTime.seconds.toInt ∧ 0 ≤ info.systemTime.microseconds.toInt
  | .windows _, (entry : ThreadEntry) => ∀ times ∈ entry.handle.join,
      (times.kernelTime.quadPart.toNat + times.userTime.quadPart.toNat) * 100 < 2 ^ 64
  | .linux sysconf, (entry : TaskEntry) => (clkTck sysconf).toNat ∣ 10 ^ 9 ∧
      ∀ sample ∈ entry.sample, sample.ticks * 10 ^ 9 < 2 ^ 64

variable {platform : Platform}

theorem toNat_signExtend_of_nonneg {field : BitVec 32} (hfield : 0 ≤ field.toInt) :
    (field.signExtend 64).toNat = field.toNat ∧ (field.toNat : Int) = field.toInt ∧
      field.toNat < 2 ^ 31 := by
  have hmsb : field.msb = false := by
    rw [BitVec.msb_eq_false_iff_two_mul_lt]
    rw [BitVec.toInt_eq_toNat_cond] at hfield
    split at hfield
    · assumption
    · have hlt := field.isLt
      omega
  have hlt := BitVec.msb_eq_false_iff_two_mul_lt.mp hmsb
  refine ⟨?_, ?_, by omega⟩
  · rw [BitVec.signExtend_eq_setWidth_of_msb_false hmsb, BitVec.toNat_setWidth]
    exact Nat.mod_eq_of_lt (by omega)
  · rw [BitVec.toInt_eq_toNat_of_msb hmsb]

/-- No time of non-negative fields is too long for 62 bits. -/
theorem TimeValue.toNat_nanoseconds {time : TimeValue} (hseconds : 0 ≤ time.seconds.toInt)
    (hmicroseconds : 0 ≤ time.microseconds.toInt) :
    (time.nanoseconds.toNat : ℚ) = time.exact ∧ time.nanoseconds.toNat < 2 ^ 62 := by
  obtain ⟨hextended, hint, hlt⟩ := toNat_signExtend_of_nonneg hseconds
  obtain ⟨hextended', hint', hlt'⟩ := toNat_signExtend_of_nonneg hmicroseconds
  have hsum : time.nanoseconds.toNat =
      time.seconds.toNat * 10 ^ 9 + time.microseconds.toNat * 10 ^ 3 := by
    have hbillion : (1000000000 : Word).toNat = 10 ^ 9 := rfl
    have hthousand : (1000 : Word).toNat = 10 ^ 3 := rfl
    rw [nanoseconds, BitVec.toNat_add, BitVec.toNat_mul, BitVec.toNat_mul, hextended,
      hextended', hbillion, hthousand]
    omega
  refine ⟨?_, by omega⟩
  rw [hsum, TimeValue.exact, ← hint, ← hint']
  push_cast
  rfl

theorem Platform.toNat_cpuTime {listed : platform.Listed} {reading : Reading}
    (hread : platform.reading listed = some reading) (hrange : platform.InRange listed) :
    (reading.cpuTime.toNat : ℚ) = platform.exactCpuTime listed := by
  cases platform with
  | apple =>
      obtain ⟨info, hinfo, rfl⟩ := Option.map_eq_some_iff.mp hread
      obtain ⟨huserSeconds, huserMicroseconds, hsystemSeconds, hsystemMicroseconds⟩ :=
        hrange info hinfo
      obtain ⟨huser, huserLt⟩ := TimeValue.toNat_nanoseconds huserSeconds huserMicroseconds
      obtain ⟨hsystem, hsystemLt⟩ :=
        TimeValue.toNat_nanoseconds hsystemSeconds hsystemMicroseconds
      have hsum : (info.userTime.nanoseconds + info.systemTime.nanoseconds).toNat =
          info.userTime.nanoseconds.toNat + info.systemTime.nanoseconds.toNat := by
        rw [BitVec.toNat_add, Nat.mod_eq_of_lt (by omega)]
      have hexact : Platform.apple.exactCpuTime listed =
          info.userTime.exact + info.systemTime.exact := by
        change Option.elim (ThreadAct.info listed) _ _ = _
        rw [hinfo]
        rfl
      rw [hexact, ← huser, ← hsystem, ← Nat.cast_add, ← hsum]
  | windows currentProcessId =>
      obtain ⟨-, hread⟩ := (Option.ite_none_right_eq_some.mp hread)
      obtain ⟨times, htimes, rfl⟩ := Option.map_eq_some_iff.mp hread
      have hfits := hrange times htimes
      have hexact : (Platform.windows currentProcessId).exactCpuTime listed =
          ((times.kernelTime.quadPart.toNat + times.userTime.quadPart.toNat) * 100 : Nat) := by
        change Option.elim (ThreadEntry.handle listed).join _ _ = _
        rw [htimes]
        rfl
      have hsum : ((times.kernelTime.quadPart + times.userTime.quadPart) * 100).toNat =
          (times.kernelTime.quadPart.toNat + times.userTime.quadPart.toNat) * 100 := by
        have hhundred : (100 : Word).toNat = 100 := rfl
        rw [BitVec.toNat_mul, BitVec.toNat_add, hhundred,
          Nat.mod_eq_of_lt (a := times.kernelTime.quadPart.toNat + _) (by omega)]
        exact Nat.mod_eq_of_lt hfits
      rw [hexact, ← hsum]
  | linux sysconf =>
      obtain ⟨sample, hsample, rfl⟩ := Option.map_eq_some_iff.mp hread
      obtain ⟨htick, hfits⟩ := hrange
      have hexact : (Platform.linux sysconf).exactCpuTime listed =
          sample.exactCpuTime sysconf := by
        change Option.elim (TaskEntry.sample listed) _ _ = _
        rw [hsample]
        rfl
      rw [hexact]
      exact (Sample.exactCpuTime_eq htick (hfits sample hsample)).symm

section Sessions

variable {Thread : Type}

abbrev SeenThread (platform : Platform) (Thread : Type) :=
  Seen Thread Word (Sighting platform)

/-- What is seen of the threads that are listed. -/
def Platform.see (platform : Platform) (one : Thread × platform.Listed) :
    Option (SeenThread platform Thread) :=
  match hread : platform.reading one.2 with
  | some reading =>
      some { thing := one.1, key := reading.threadId, val := ⟨one.2, reading, hread⟩ }
  | none => none

/-- The map of the monitor and what its session has seen. -/
structure UsageSession (platform : Platform) (Thread : Type) where
  threadStates : ThreadMap
  history : History Thread Word (Sighting platform)

def UsageSession.initial (platform : Platform) (Thread : Type) :
    UsageSession platform Thread where
  threadStates := ∅
  history := []

/-- A scan, with the thread that each entry of the list stands for, or the end of the
session. -/
inductive UsageEvent (platform : Platform) (Thread : Type) where
  | scan (listed : Option (List (Thread × platform.Listed)))
  | stop

/-- The threads that a scan does not pass over. -/
def Platform.seen (platform : Platform) (listed : Option (List (Thread × platform.Listed))) :
    List (SeenThread platform Thread) :=
  (listed.getD []).filterMap platform.see

def UsageSession.check (s : UsageSession platform Thread)
    (listed : Option (List (Thread × platform.Listed))) : List Word × ThreadMap :=
  platform.checkThreadsForHighCpu (listed.map (List.map Prod.snd)) s.threadStates

def UsageSession.step (s : UsageSession platform Thread) :
    UsageEvent platform Thread → Option (UsageSession platform Thread)
  | .scan listed =>
      some { threadStates := (s.check listed).2
             history := (platform.seen listed).reverse ++ s.history }
  | .stop => some (UsageSession.initial platform Thread)

/-- The comparison of the code. -/
def Sighting.Spins (earlier later : Sighting platform) : Prop :=
  earlier.reading.state.Spins later.reading.cpuTime later.reading.now

instance (earlier later : Sighting platform) : Decidable (earlier.Spins later) :=
  inferInstanceAs (Decidable (earlier.reading.state.Spins later.reading.cpuTime _))

/-- More than 90% of the time elapsed was used. -/
def Sighting.Busy (earlier later : Sighting platform) : Prop :=
  9 / 10 * ((later.reading.now.toNat : ℚ) - earlier.reading.now.toNat) <
    platform.exactCpuTime later.listed - platform.exactCpuTime earlier.listed

variable [DecidableEq Thread]

/-- A scan reports the threads that have been busy since they were last seen, and no
others. -/
def UsageSession.ReportsExact (s : UsageSession platform Thread)
    (event : UsageEvent platform Thread) : Prop :=
  ∀ listed, event = .scan listed →
    (∀ threadId ∈ (s.check listed).1, ∃ one ∈ platform.seen listed, one.key = threadId) ∧
    ∀ one ∈ platform.seen listed,
      one.key ∈ (s.check listed).1 ↔ s.history.Fires Sighting.Busy one

/-- What the system and the clock guarantee: an id is listed once, a thread keeps its id
for as long as it lives, the clock has advanced, the CPU time of a thread has not gone
back, and all are in range. -/
structure UsageSession.ScanOk (s : UsageSession platform Thread)
    (observed : List (SeenThread platform Thread)) : Prop where
  handed : s.history.Handed observed
  clock : ∀ one ∈ observed, ∀ earlier ∈ s.history,
    earlier.val.reading.now.toNat < one.val.reading.now.toNat
  grows : ∀ one ∈ observed, ∀ earlier ∈ s.history, earlier.thing = one.thing →
    platform.exactCpuTime earlier.val.listed ≤ platform.exactCpuTime one.val.listed
  inRange : ∀ one ∈ observed, platform.InRange one.val.listed

def UsageSession.EventOk (s : UsageSession platform Thread)
    (event : UsageEvent platform Thread) : Prop :=
  ∀ listed, event = .scan listed → s.ScanOk (platform.seen listed)

/-- An id that passed to another thread does not look busy against the thread that had
it before. -/
def UsageSession.RecyclesQuietly (s : UsageSession platform Thread)
    (event : UsageEvent platform Thread) : Prop :=
  ∀ listed, event = .scan listed → ∀ one ∈ platform.seen listed,
    s.history.Quiet Sighting.Spins one

/-- The map has what was last seen under each id, and all of that was in range. -/
structure UsageSession.Inv (s : UsageSession platform Thread) : Prop where
  kept : ∃ last, s.history.Kept last ∧
    ∀ id, s.threadStates.lookup id = (last id).map fun sighting => sighting.reading.state
  inRange : ∀ earlier ∈ s.history, platform.InRange earlier.val.listed

omit [DecidableEq Thread] in
theorem UsageSession.inv_initial : (UsageSession.initial platform Thread).Inv where
  kept := ⟨fun _ => none, fun _ => rfl, fun _ => by simp [initial]⟩
  inRange := by simp [initial]

variable {s next : UsageSession platform Thread} {event : UsageEvent platform Thread}
  {listed : Option (List (Thread × platform.Listed))}

omit [DecidableEq Thread] in
theorem Platform.see_reading (one : Thread × platform.Listed) :
    ((platform.see one).map fun seen => seen.val.reading) = platform.reading one.2 := by
  rw [see]
  split
  · next hread => exact hread.symm
  · next hread => exact hread.symm

omit [DecidableEq Thread] in
theorem Platform.see_key {one : Thread × platform.Listed} {seen : SeenThread platform Thread}
    (hsee : platform.see one = some seen) : seen.val.reading.threadId = seen.key := by
  rw [see] at hsee
  split at hsee
  · rw [← Option.some.inj hsee]
  · contradiction

omit [DecidableEq Thread] in
theorem Platform.seen_key {one : SeenThread platform Thread}
    (hmem : one ∈ platform.seen listed) : one.val.reading.threadId = one.key := by
  obtain ⟨_, -, hsee⟩ := List.mem_filterMap.mp hmem
  exact see_key hsee

omit [DecidableEq Thread] in
/-- The readings of a scan are those of what it sees. -/
theorem Platform.readings_eq :
    ((listed.map (List.map Prod.snd)).getD []).filterMap platform.reading =
      (platform.seen listed).map fun one => one.val.reading := by
  rw [seen, List.map_filterMap]
  simp only [see_reading]
  cases listed with
  | none => rfl
  | some listed => exact List.filterMap_map

omit [DecidableEq Thread] in
/-- The loop of the code is a scan of the watch, on entries of the map. -/
theorem visitThreads_scan (observed : List (SeenThread platform Thread))
    {threadStates : ThreadMap} {last : Word → Option (Sighting platform)}
    (hlast : ∀ id, threadStates.lookup id =
      (last id).map fun sighting => sighting.reading.state)
    (hkeys : ∀ one ∈ observed, one.val.reading.threadId = one.key) :
    (visitThreads (observed.map fun one => one.val.reading) threadStates).1 =
        (scan Sighting.Spins observed last).1 ∧
      ∀ id, (visitThreads (observed.map fun one => one.val.reading) threadStates).2.lookup id =
        ((scan Sighting.Spins observed last).2 id).map fun sighting =>
          sighting.reading.state := by
  induction observed generalizing threadStates last with
  | nil => exact ⟨rfl, hlast⟩
  | cons first observed ih =>
      obtain ⟨hfirst, hrest⟩ := List.forall_mem_cons.mp hkeys
      have hvisit : (visitThread first.val.reading threadStates).1 =
          report Sighting.Spins last first := by
        rw [visitThread, report, hfirst, hlast]
        cases last first.key <;> rfl
      have hnext : ∀ id, (visitThread first.val.reading threadStates).2.lookup id =
          (Function.update last first.key (some first.val) id).map fun sighting =>
            sighting.reading.state := by
        intro id
        have hinsert : (visitThread first.val.reading threadStates).2 =
            threadStates.insert first.key first.val.reading.state := by
          rw [visitThread, hfirst]
          cases threadStates.lookup first.key <;> rfl
        rw [hinsert]
        by_cases hid : id = first.key
        · rw [hid, AList.lookup_insert, Function.update_self]
          rfl
        · rw [AList.lookup_insert_ne hid, Function.update_of_ne hid, hlast]
      obtain ⟨hmore, hmap⟩ := ih hnext hrest
      rw [List.map_cons, visitThreads, scan]
      refine ⟨?_, hmap⟩
      change (visitThread _ _).1 ++ (visitThreads _ _).1 = report _ _ _ ++ (scan _ _ _).1
      rw [hvisit, hmore]

omit [DecidableEq Thread] in
/-- What a session's scan reports and keeps is what the watch does. -/
theorem UsageSession.check_scan {last : Word → Option (Sighting platform)}
    (hlast : ∀ id, s.threadStates.lookup id =
      (last id).map fun sighting => sighting.reading.state) :
    (s.check listed).1 = (scan Sighting.Spins (platform.seen listed) last).1 ∧
      ∀ id, (s.check listed).2.lookup id =
        ((scan Sighting.Spins (platform.seen listed) last).2 id).map fun sighting =>
          sighting.reading.state := by
  rw [check, Platform.checkThreadsForHighCpu_eq, Platform.readings_eq]
  exact visitThreads_scan _ hlast fun one hmem => Platform.seen_key hmem

theorem UsageSession.Inv.step (hinv : s.Inv) (hok : s.EventOk event)
    (hstep : s.step event = some next) : next.Inv := by
  cases event with
  | stop =>
      obtain rfl := Option.some.inj hstep
      exact inv_initial
  | scan listed =>
      obtain rfl := Option.some.inj hstep
      have hscan := hok listed rfl
      obtain ⟨last, hkept, hlast⟩ := hinv.kept
      refine ⟨⟨_, hkept.scan hscan.handed.distinct, (check_scan hlast).2⟩, ?_⟩
      intro earlier hmem
      rcases List.mem_append.mp hmem with hnew | hold
      · exact hscan.inRange earlier (List.mem_reverse.mp hnew)
      · exact hinv.inRange earlier hold

/-- Against an earlier sighting of the same thread the unsigned comparison is the exact
one. -/
theorem Sighting.spins_iff {earlier later : Sighting platform}
    (hearlier : platform.InRange earlier.listed) (hlater : platform.InRange later.listed)
    (hclock : earlier.reading.now.toNat < later.reading.now.toNat)
    (hgrows : platform.exactCpuTime earlier.listed ≤ platform.exactCpuTime later.listed) :
    earlier.Spins later ↔ earlier.Busy later := by
  have hexact := Platform.toNat_cpuTime earlier.read hearlier
  have hexact' := Platform.toNat_cpuTime later.read hlater
  rw [← hexact, ← hexact', Nat.cast_le] at hgrows
  have hcpuDelta : (later.reading.cpuTime - earlier.reading.cpuTime).toNat =
      later.reading.cpuTime.toNat - earlier.reading.cpuTime.toNat :=
    BitVec.toNat_sub_of_le hgrows
  have htimeDelta : (later.reading.now - earlier.reading.now).toNat =
      later.reading.now.toNat - earlier.reading.now.toNat :=
    BitVec.toNat_sub_of_le hclock.le
  rw [Busy, Spins, ThreadState.Spins, ← hexact, ← hexact']
  simp only [Reading.state, hcpuDelta, htimeDelta, Nat.sub_pos_of_lt hclock, true_and]
  rw [← Nat.cast_sub hgrows, ← Nat.cast_sub hclock.le, ← Nat.cast_lt (α := ℚ)]
  push_cast
  constructor <;> intro h <;> linarith

/-- A thread that was seen before fires by the code's comparison exactly when it was
busy. -/
theorem UsageSession.fires_iff (hinv : s.Inv) {observed : List (SeenThread platform Thread)}
    (hscan : s.ScanOk observed) {one : SeenThread platform Thread} (hone : one ∈ observed) :
    s.history.Fires Sighting.Spins one ↔ s.history.Fires Sighting.Busy one := by
  apply exists_congr
  intro earlier
  apply and_congr_right
  intro hlast
  have hmem : earlier ∈ s.history := List.mem_of_find?_eq_some hlast
  have hthing : earlier.thing = one.thing := by simpa using List.find?_some hlast
  exact Sighting.spins_iff (hinv.inRange earlier hmem) (hscan.inRange one hone)
    (hscan.clock one hone earlier hmem) (hscan.grows one hone earlier hmem hthing)

/-- One scan reports what it should if and only if it recycles ids quietly. -/
theorem UsageSession.reportsExact_iff (hinv : s.Inv) (hok : s.EventOk event) :
    s.ReportsExact event ↔ s.RecyclesQuietly event := by
  apply forall₂_congr
  intro listed hevent
  have hscan := hok listed hevent
  obtain ⟨last, hkept, hlast⟩ := hinv.kept
  rw [(check_scan hlast).1]
  have hsome : ∀ id ∈ (scan Sighting.Spins (platform.seen listed) last).1,
      ∃ one ∈ platform.seen listed, one.key = id :=
    fun id hmem => List.mem_map.mp (mem_map_of_mem_scan hmem)
  rw [and_iff_right hsome]
  apply forall₂_congr
  intro one hone
  rw [← fires_iff hinv hscan hone]
  exact hkept.mem_scan_iff hscan.handed hone

/-- On each of the three platforms, over the scans of any sessions, whatever the system
fails to list or to open, and with the quotient of the code taken exactly: every scan
reports exactly the threads that have used more than 90% of the time since they were last
seen if and only if no thread looks busy against another one that had its id before. -/
theorem platformReports_exact_iff (platform : Platform)
    (events : List (UsageEvent platform Thread))
    (hevents : Along UsageSession.step UsageSession.EventOk
      (UsageSession.initial platform Thread) events) :
    Along UsageSession.step UsageSession.ReportsExact
        (UsageSession.initial platform Thread) events ↔
      Along UsageSession.step UsageSession.RecyclesQuietly
        (UsageSession.initial platform Thread) events :=
  along_congr UsageSession.Inv (fun _ _ _ hinv hok hstep => hinv.step hok hstep)
    (fun _ _ hinv hok => UsageSession.reportsExact_iff hinv hok)
    UsageSession.inv_initial hevents

end Sessions

namespace PlatformWitness

/-- A thread of process 4 that has used this many intervals of 100 ns. -/
def entry (userTime : BitVec 32) (now : Word) : ThreadEntry where
  th32ThreadId := 7
  th32OwnerProcessId := 4
  handle := some (some ⟨⟨0, 0⟩, ⟨userTime, 0⟩⟩)
  now := now

/-- A thread of another process, which cannot be opened. -/
def foreign : ThreadEntry where
  th32ThreadId := 8
  th32OwnerProcessId := 5
  handle := none
  now := 0

/-- The first thread spins for half a second; then there is no snapshot. -/
def spinning : List (UsageEvent (.windows 4) Bool) :=
  [.scan (some [(false, entry 0 1000000000), (true, foreign)]),
    .scan (some [(false, entry 5000000 1500000000)]), .scan none, .stop]

def early : SeenThread (.windows 4) Bool where
  thing := false
  key := 7
  val := ⟨entry 0 1000000000, _, rfl⟩

def late : SeenThread (.windows 4) Bool where
  thing := false
  key := 7
  val := ⟨entry 5000000 1500000000, _, rfl⟩

theorem entry_inRange (userTime : BitVec 32) (now : Word) :
    (Platform.windows 4).InRange (entry userTime now) := by
  intro times htimes
  obtain rfl := Option.some.inj htimes
  have hlt := userTime.isLt
  have hkernel : (FileTime.mk 0 0).quadPart.toNat = 0 := rfl
  have huser : (FileTime.mk userTime 0).quadPart.toNat = userTime.toNat := by
    change ((0 : BitVec 32) ++ userTime).toNat = userTime.toNat
    rw [BitVec.toNat_append]
    simp
  rw [hkernel, huser]
  omega

theorem spinning_ok : Along UsageSession.step UsageSession.EventOk
    (UsageSession.initial (.windows 4) Bool) spinning := by
  refine ⟨?_, fun next hnext => ⟨?_, fun next' hnext' => ⟨?_, fun _ _ => ⟨nofun,
    fun _ _ => trivial⟩⟩⟩⟩
  · rintro listed ⟨rfl⟩
    change UsageSession.ScanOk _ [early]
    refine ⟨⟨List.nodup_singleton _, fun _ _ hne => absurd rfl hne⟩, ?_, ?_, ?_⟩
    · exact fun _ _ _ hmem => absurd hmem List.not_mem_nil
    · exact fun _ _ _ hmem => absurd hmem List.not_mem_nil
    · intro one hone
      rw [List.mem_singleton.mp hone]
      exact entry_inRange _ _
  · obtain rfl := Option.some.inj hnext
    rintro listed ⟨rfl⟩
    change UsageSession.ScanOk ⟨_, [early]⟩ [late]
    refine ⟨⟨List.nodup_singleton _, ?_⟩, ?_, ?_, ?_⟩
    · intro one hone _
      rw [List.mem_singleton.mp hone]
      rfl
    · intro one hone earlier hearlier
      rw [List.mem_singleton.mp hone, List.mem_singleton.mp hearlier]
      decide
    · intro one hone earlier hearlier _
      rw [List.mem_singleton.mp hone, List.mem_singleton.mp hearlier]
      exact Nat.cast_le.mpr (by decide)
    · intro one hone
      rw [List.mem_singleton.mp hone]
      exact entry_inRange _ _
  · rintro listed ⟨rfl⟩
    change UsageSession.ScanOk _ []
    exact ⟨⟨List.nodup_nil, by simp⟩, by simp, by simp, by simp⟩

theorem spinning_reports_iff :
    Along UsageSession.step UsageSession.ReportsExact
        (UsageSession.initial (.windows 4) Bool) spinning ↔
      Along UsageSession.step UsageSession.RecyclesQuietly
        (UsageSession.initial (.windows 4) Bool) spinning :=
  platformReports_exact_iff (.windows 4) spinning spinning_ok

end PlatformWitness

end Domovoy
