/-
How the CPU monitor reads `/proc/self/task/<tid>/stat`: the line, whose second field
is the free text of a thread's name, and the counters that a scan takes from it.
-/
import Domovoy.CpuMonitor
import Domovoy.Extraction

namespace Domovoy

open WordAlign Extraction

/-- `find_last_of`. -/
def findLastOf (c : UInt8) : List UInt8 → Option Nat
  | [] => none
  | b :: line =>
      match findLastOf c line with
      | some i => some (i + 1)
      | none => if b = c then some 0 else none

/-- The chain of extractions behind the name; what it leaves in `utime` and `stime`. -/
def extractTimes (iss : List UInt8) : Option (Word × Word) := do
  let (_state, iss) ← word iss
  let (_ppid, iss) ← signed 63 iss
  let (_pgrp, iss) ← signed 63 iss
  let (_session, iss) ← signed 63 iss
  let (_ttyNr, iss) ← signed 63 iss
  let (_tpgid, iss) ← signed 63 iss
  let (_flags, iss) ← unsigned 64 iss
  let (_minflt, iss) ← unsigned 64 iss
  let (_cminflt, iss) ← unsigned 64 iss
  let (_majflt, iss) ← unsigned 64 iss
  let (_cmajflt, iss) ← unsigned 64 iss
  let (utime, iss) ← unsigned 64 iss
  let (stime, _) ← unsigned 64 iss
  return (utime, stime)

/-- `utime` and `stime` of a line, or `none` where the scan goes on to the next thread. -/
def parseStat (line : List UInt8) : Option (Word × Word) :=
  match findLastOf 41 line with
  | none => none
  | some rparen =>
      if line.length ≤ rparen + 2 then none else extractTimes (line.drop (rparen + 2))

/-- The first line of a file. -/
def getline (content : List UInt8) : Option (List UInt8) :=
  if content = [] then none else some (content.takeWhile (· ≠ 10))

/-- An entry of the directory, with the content of its `stat` unless that cannot be
opened, and the clock. -/
structure TaskEntry where
  name : List UInt8
  stat : Option (List UInt8)
  now : Word

/-- `std::stoull`, which throws on no number and on one out of range. -/
def TaskEntry.threadId (entry : TaskEntry) : Option Word :=
  if entry.name.head? = some 46 then none else (unsigned 64 entry.name).map Prod.fst

def TaskEntry.line (entry : TaskEntry) : Option (List UInt8) :=
  entry.stat.bind getline

def TaskEntry.sample (entry : TaskEntry) : Option Sample := do
  let threadId ← entry.threadId
  let line ← entry.line
  let (utime, stime) ← parseStat line
  return { threadId, utime, stime, now := entry.now }

/-- The body of the scan for one entry. -/
def scanTask (sysconf : Int) (entry : TaskEntry) (threadStates : ThreadMap) :
    List Word × ThreadMap :=
  match entry.sample with
  | some sample => sampleThread sysconf sample threadStates
  | none => ([], threadStates)

/-- The loop over `readdir`. -/
def scanTasks (sysconf : Int) : List TaskEntry → ThreadMap → List Word × ThreadMap
  | [], threadStates => ([], threadStates)
  | entry :: entries, threadStates =>
      let (reported, threadStates) := scanTask sysconf entry threadStates
      let (rest, threadStates) := scanTasks sysconf entries threadStates
      (reported ++ rest, threadStates)

/-- A field within the range of `long`. -/
abbrev LongField :=
  { d : Decimal // -2 ^ 63 ≤ d.value ∧ d.value < 2 ^ 63 }

/-- A field within the range of `unsigned long`. -/
abbrev UnsignedLongField :=
  { d : Decimal // d.negative = false ∧ d.magnitude < 2 ^ 64 }

def isLetter (c : UInt8) : Bool :=
  (65 ≤ c && c ≤ 90) || (97 ≤ c && c ≤ 122)

/-- A line of the form `tid (comm) S f4 … fN`. -/
structure StatLine where
  tid : List UInt8
  comm : List UInt8
  state : UInt8
  ppid : LongField
  pgrp : LongField
  session : LongField
  ttyNr : LongField
  tpgid : LongField
  flags : UnsignedLongField
  minflt : UnsignedLongField
  cminflt : UnsignedLongField
  majflt : UnsignedLongField
  cmajflt : UnsignedLongField
  utime : UnsignedLongField
  stime : UnsignedLongField
  others : List Decimal
  decimal : ∀ c ∈ tid, isDigit c = true
  oneLine : 10 ∉ comm
  letter : isLetter state = true

namespace StatLine

/-- The line as far as the parenthesis that closes the name. -/
def head (line : StatLine) : List UInt8 :=
  line.tid ++ 32 :: 40 :: line.comm ++ [41]

def fields (line : StatLine) : List Decimal :=
  [line.ppid.1, line.pgrp.1, line.session.1, line.ttyNr.1, line.tpgid.1, line.flags.1,
    line.minflt.1, line.cminflt.1, line.majflt.1, line.cmajflt.1, line.utime.1,
    line.stime.1]

/-- The line behind that parenthesis. -/
def tail (line : StatLine) : List UInt8 :=
  32 :: line.state :: columns (line.fields ++ line.others)

def text (line : StatLine) : List UInt8 :=
  line.head ++ line.tail

end StatLine

variable {c : UInt8} {input rest : List UInt8}

theorem findLastOf_eq_none (hnot : c ∉ input) : findLastOf c input = none := by
  induction input with
  | nil => rfl
  | cons b input ih =>
      rw [List.mem_cons, not_or] at hnot
      rw [findLastOf, ih hnot.2]
      exact if_neg (Ne.symm hnot.1)

/-- The last one is the one that none follows. -/
theorem findLastOf_append (hnot : c ∉ rest) :
    findLastOf c (input ++ c :: rest) = some input.length := by
  induction input with
  | nil =>
      rw [List.nil_append, findLastOf, findLastOf_eq_none hnot]
      exact if_pos rfl
  | cons b input ih =>
      rw [List.cons_append, findLastOf, ih]
      rfl

/-- Where the name ends depends on nothing in it. -/
theorem parseStat_head (line : StatLine) (hnot : 41 ∉ rest) :
    parseStat (line.head ++ rest) =
      if rest.length ≤ 1 then none else extractTimes (rest.drop 1) := by
  let before := line.tid ++ 32 :: 40 :: line.comm
  have hwhole : line.head ++ rest = before ++ 41 :: rest := by
    simp [StatLine.head, before]
  have hdrop : (before ++ 41 :: rest).drop (before.length + 2) = rest.drop 1 := by
    rw [List.drop_length_add_append]
    rfl
  rw [parseStat, hwhole, findLastOf_append hnot]
  simp only [hdrop, List.length_append, List.length_cons]
  congr 1
  rw [eq_iff_iff]
  omega

theorem signed_columns (field : LongField) (ds : List Decimal) :
    signed 63 (columns (field.1 :: ds)) = some (field.1.value, columns ds) :=
  signed_text field.1 field.2.1 field.2.2 (head?_columns_not_digit ds)

theorem unsigned_columns (field : UnsignedLongField) (ds : List Decimal) :
    unsigned 64 (columns (field.1 :: ds)) =
      some (BitVec.ofNat 64 field.1.magnitude, columns ds) :=
  unsigned_text field.1 field.2.1 field.2.2 (head?_columns_not_digit ds)

theorem isSpace_of_isLetter (hletter : isLetter c = true) : isSpace c = false := by
  simp only [isLetter, Bool.or_eq_true, Bool.and_eq_true, decide_eq_true_eq] at hletter
  rcases hletter with ⟨hupper, -⟩ | ⟨hlower, -⟩
  · exact isSpace_of_blank_lt (UInt8.lt_of_lt_of_le (by decide) hupper)
  · exact isSpace_of_blank_lt (UInt8.lt_of_lt_of_le (by decide) hlower)

/-- The thirteen extractions land on the columns that they are meant for. -/
theorem extractTimes_tail (line : StatLine) :
    extractTimes (line.tail.drop 1) =
      some (BitVec.ofNat 64 line.utime.1.magnitude,
        BitVec.ofNat 64 line.stime.1.magnitude) := by
  have hstate : word (line.tail.drop 1) =
      some ([line.state], columns (line.fields ++ line.others)) := by
    change word ([line.state] ++ columns (line.fields ++ line.others)) = _
    apply word_append (List.cons_ne_nil _ _)
    · simpa using isSpace_of_isLetter line.letter
    · intro c hc
      rw [head?_columns _ c hc]
      rfl
  rw [extractTimes, hstate]
  simp only [StatLine.fields, List.cons_append, signed_columns, unsigned_columns,
    Option.bind_eq_bind, Option.bind_some, Option.pure_def]

/-- They need thirteen words. -/
theorem words_of_extractTimes {times : Word × Word} (hclean : Clean input)
    (htimes : extractTimes input = some times) : 13 ≤ (words input).length := by
  rw [extractTimes] at htimes
  obtain ⟨_, _, hclean, hstate, htimes⟩ := takesWord_word.bind hclean htimes
  obtain ⟨_, _, hclean, hppid, htimes⟩ := (takesWord_signed 63).bind hclean htimes
  obtain ⟨_, _, hclean, hpgrp, htimes⟩ := (takesWord_signed 63).bind hclean htimes
  obtain ⟨_, _, hclean, hsession, htimes⟩ := (takesWord_signed 63).bind hclean htimes
  obtain ⟨_, _, hclean, httyNr, htimes⟩ := (takesWord_signed 63).bind hclean htimes
  obtain ⟨_, _, hclean, htpgid, htimes⟩ := (takesWord_signed 63).bind hclean htimes
  obtain ⟨_, _, hclean, hflags, htimes⟩ := (takesWord_unsigned 64).bind hclean htimes
  obtain ⟨_, _, hclean, hminflt, htimes⟩ := (takesWord_unsigned 64).bind hclean htimes
  obtain ⟨_, _, hclean, hcminflt, htimes⟩ := (takesWord_unsigned 64).bind hclean htimes
  obtain ⟨_, _, hclean, hmajflt, htimes⟩ := (takesWord_unsigned 64).bind hclean htimes
  obtain ⟨_, _, hclean, hcmajflt, htimes⟩ := (takesWord_unsigned 64).bind hclean htimes
  obtain ⟨_, _, hclean, hutime, htimes⟩ := (takesWord_unsigned 64).bind hclean htimes
  obtain ⟨_, _, _, hstime, -⟩ := (takesWord_unsigned 64).bind hclean htimes
  omega

theorem StatLine.mem_tail {line : StatLine} (hmem : c ∈ line.tail) :
    c = 32 ∨ c = 45 ∨ isDigit c = true ∨ isLetter c = true := by
  simp only [StatLine.tail, List.mem_cons] at hmem
  rcases hmem with hblank | rfl | hcolumns
  · exact Or.inl hblank
  · exact Or.inr (Or.inr (Or.inr line.letter))
  · have hcolumn := mem_columns hcolumns
    tauto

/-- No parenthesis closes behind the name, and no line ends. -/
theorem StatLine.not_mem_tail (line : StatLine) : 41 ∉ line.tail ∧ 10 ∉ line.tail := by
  constructor
  all_goals
    intro hmem
    exact absurd (line.mem_tail hmem) (by decide)

theorem StatLine.clean_tail (line : StatLine) : Clean line.tail := by
  have hhead : Clean [32, line.state] :=
    List.isChain_cons_cons.mpr ⟨Or.inl (by decide), .singleton _⟩
  exact hhead.append_columns (line.fields ++ line.others)

theorem StatLine.not_mem_text (line : StatLine) : 10 ∉ line.text := by
  have htid : 10 ∉ line.tid := by
    intro hmem
    exact absurd (line.decimal 10 hmem) (by decide)
  simp [StatLine.text, StatLine.head, htid, line.oneLine, line.not_mem_tail.2]

theorem parseStat_text (line : StatLine) :
    parseStat line.text =
      some (BitVec.ofNat 64 line.utime.1.magnitude,
        BitVec.ofNat 64 line.stime.1.magnitude) := by
  rw [StatLine.text, parseStat_head line line.not_mem_tail.1, extractTimes_tail]
  exact if_neg (by simp [StatLine.tail])

/-- A line cut short behind the name is given up, since what it keeps is clean. -/
theorem parseStat_truncated (line : StatLine) (hcut : rest <+: line.tail)
    (hfew : (words rest).length < 13) : parseStat (line.head ++ rest) = none := by
  have hnot : 41 ∉ rest := fun hmem => line.not_mem_tail.1 (hcut.mem hmem)
  have hclean : Clean rest := List.IsChain.prefix line.clean_tail hcut
  rw [parseStat_head line hnot, ite_eq_left_iff]
  intro hlong
  cases rest with
  | nil => simp at hlong
  | cons c behind =>
      obtain rfl : c = 32 := (List.cons_prefix_cons.mp hcut).1
      rw [words_cons_space (by decide)] at hfew
      have hbehind : Clean behind := hclean.suffix (List.suffix_cons _ _)
      cases htimes : extractTimes behind with
      | none => exact htimes
      | some times =>
          have hwords := words_of_extractTimes hbehind htimes
          omega

theorem getline_append (hne : input ≠ []) (hline : 10 ∉ input)
    (hrest : ∀ c ∈ rest.head?, c = 10) : getline (input ++ rest) = some input := by
  have hbefore : ∀ c ∈ input, decide (c ≠ 10) = true := by
    intro c hc
    rw [decide_eq_true_eq]
    rintro rfl
    exact hline hc
  have hends : ∀ c ∈ rest.head?, decide (c ≠ 10) = false := by simpa using hrest
  rw [getline, if_neg (by simp [hne]), List.takeWhile_append_of_pos hbefore,
    (takeWhile_of_head? hends).1, List.append_nil]

/-- A scan of the directory is a scan of the samples that are read from it. -/
theorem scanTasks_eq (sysconf : Int) (entries : List TaskEntry) (threadStates : ThreadMap) :
    scanTasks sysconf entries threadStates =
      checkThreadsForHighCpu sysconf (entries.filterMap TaskEntry.sample) threadStates := by
  induction entries generalizing threadStates with
  | nil => rfl
  | cons entry entries ih =>
      rw [scanTasks, scanTask]
      cases hsample : entry.sample with
      | none =>
          rw [List.filterMap_cons_none hsample]
          exact ih threadStates
      | some sample =>
          rw [List.filterMap_cons_some hsample, checkThreadsForHighCpu]
          simp only [ih]

theorem scanTask_of_parse {entry : TaskEntry} {line : List UInt8}
    (hline : entry.line = some line) (hparse : parseStat line = none) (sysconf : Int)
    (threadStates : ThreadMap) : scanTask sysconf entry threadStates = ([], threadStates) := by
  have hsample : entry.sample = none := by
    rw [TaskEntry.sample, hline]
    cases entry.threadId <;> simp [hparse]
  rw [scanTask, hsample]

/-- A scan takes fields 14 and 15 of a line, whatever the thread is called, and leaves out
a thread whose line closes no name or ends too early. -/
theorem scanTask_stat_line (sysconf : Int) (entry : TaskEntry) (threadStates : ThreadMap) :
    (∀ (line : StatLine) (behind : List UInt8) (threadId : Word),
      entry.threadId = some threadId → entry.stat = some (line.text ++ behind) →
        (∀ c ∈ behind.head?, c = 10) →
          ∃ sample : Sample, sample.threadId = threadId ∧ sample.now = entry.now ∧
            sample.utime.toNat = line.utime.1.magnitude ∧
            sample.stime.toNat = line.stime.1.magnitude ∧
            scanTask sysconf entry threadStates =
              sampleThread sysconf sample threadStates) ∧
    (∀ line : List UInt8, entry.line = some line → 41 ∉ line →
      scanTask sysconf entry threadStates = ([], threadStates)) ∧
    (∀ (line : StatLine) (rest : List UInt8), entry.line = some (line.head ++ rest) →
      rest <+: line.tail → (words rest).length < 13 →
        scanTask sysconf entry threadStates = ([], threadStates)) := by
  refine ⟨?_, ?_, ?_⟩
  · intro line behind threadId hthread hstat hbehind
    have hline : entry.line = some line.text := by
      rw [TaskEntry.line, hstat]
      exact getline_append (by simp [StatLine.text, StatLine.tail]) line.not_mem_text hbehind
    have hsample : entry.sample = some
        { threadId, utime := BitVec.ofNat 64 line.utime.1.magnitude,
          stime := BitVec.ofNat 64 line.stime.1.magnitude, now := entry.now } := by
      rw [TaskEntry.sample, hthread, hline]
      simp [parseStat_text]
    refine ⟨_, rfl, rfl, ?_, ?_, by rw [scanTask, hsample]⟩
    · exact Nat.mod_eq_of_lt line.utime.2.2
    · exact Nat.mod_eq_of_lt line.stime.2.2
  · intro line hline hnot
    refine scanTask_of_parse hline ?_ sysconf threadStates
    rw [parseStat, findLastOf_eq_none hnot]
  · intro line rest hline hcut hfew
    exact scanTask_of_parse hline (parseStat_truncated line hcut hfew) sysconf threadStates

namespace StatWitness

def zero : Decimal :=
  ⟨false, [48], by decide, List.all_eq_true.mp rfl⟩

def minusOne : Decimal :=
  ⟨true, [49], by decide, List.all_eq_true.mp rfl⟩

def twelve : Decimal :=
  ⟨false, [49, 50], by decide, List.all_eq_true.mp rfl⟩

/-- `7 (a) b) S 0 0 0 0 -1 0 0 0 0 0 12 0` -/
def line : StatLine where
  tid := [55]
  comm := [97, 41, 32, 98]
  state := 83
  ppid := ⟨zero, by decide⟩
  pgrp := ⟨zero, by decide⟩
  session := ⟨zero, by decide⟩
  ttyNr := ⟨zero, by decide⟩
  tpgid := ⟨minusOne, by decide⟩
  flags := ⟨zero, by decide⟩
  minflt := ⟨zero, by decide⟩
  cminflt := ⟨zero, by decide⟩
  majflt := ⟨zero, by decide⟩
  cmajflt := ⟨zero, by decide⟩
  utime := ⟨twelve, by decide⟩
  stime := ⟨zero, by decide⟩
  others := []
  decimal := List.all_eq_true.mp rfl
  oneLine := by decide
  letter := by decide

/-- The directory's entry for a thread whose file has that content. -/
def entry (content : List UInt8) : TaskEntry where
  name := [55]
  stat := some content
  now := 1000

theorem scanTask_line :
    (∃ sample : Sample, sample.threadId = 7 ∧ sample.now = 1000 ∧
      sample.utime.toNat = 12 ∧ sample.stime.toNat = 0 ∧
      scanTask 100 (entry (line.text ++ [10])) ∅ = sampleThread 100 sample ∅) ∧
    scanTask 100 (entry [55, 32, 40, 97]) ∅ = ([], ∅) ∧
    scanTask 100 (entry (line.head ++ [32, 83, 32])) ∅ = ([], ∅) := by
  refine ⟨?_, ?_, ?_⟩
  · exact (scanTask_stat_line 100 (entry (line.text ++ [10])) ∅).1 line [10] 7 (by decide) rfl
      (by simp)
  · exact (scanTask_stat_line 100 (entry [55, 32, 40, 97]) ∅).2.1 _ rfl (by decide)
  · exact (scanTask_stat_line 100 (entry (line.head ++ [32, 83, 32])) ∅).2.2 line [32, 83, 32]
      (by decide) (by decide) (by decide)

end StatWitness

end Domovoy
