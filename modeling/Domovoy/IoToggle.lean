/-
The IO monitor switched on and off while other threads are in its hooks.  A hook reads
the flag and then updates the map; `Disable` clears the flag and then swaps the map.
-/
import Domovoy.IoSteps

namespace Domovoy

open Transition

/-- The second half of `OnOpen` and `OnSocket`. -/
def IoMonitor.insertFd (fd : Int) (info : FdInfo) (monitor : IoMonitor) : IoMonitor :=
  { monitor with openFds := monitor.openFds.insert fd info }

/-- The second half of `OnClose`. -/
def IoMonitor.eraseFd (fd : Int) (monitor : IoMonitor) : IoMonitor :=
  { monitor with openFds := monitor.openFds.erase fd }

/-- The second half of `Disable`. -/
def IoMonitor.swapFds (monitor : IoMonitor) : IoMonitor :=
  { monitor with openFds := ∅ }

/-- Where a thread stands between its two steps; a hook that is about to insert
carries the session whose flag it has read. -/
inductive TogglePc where
  | idle
  | inserting (fd : Int) (call : IoCall) (session : Nat)
  | erasing (fd : Int)
  | swapping
deriving DecidableEq

inductive ToggleMove where
  | opened (fd : Int) (call : IoCall)
  | closed (fd : Int)
  | enable
  | disable
  | advance

structure ToggleStep (Tid : Type) where
  thread : Tid
  move : ToggleMove

/-- The monitor, the threads and, for the statements only, how many sessions have
begun and in which of them each recorded descriptor was opened. -/
structure ToggleState (Tid : Type) where
  monitor : IoMonitor
  pcs : Tid → TogglePc
  session : Nat
  openedIn : Int → Nat

def ToggleState.initial (Tid : Type) : ToggleState Tid where
  monitor := IoMonitor.initial
  pcs := fun _ => .idle
  session := 0
  openedIn := fun _ => 0

variable {Tid : Type} [DecidableEq Tid]

def ToggleState.goto (s : ToggleState Tid) (t : Tid) (pc : TogglePc) : ToggleState Tid :=
  { s with pcs := Function.update s.pcs t pc }

/-- The first step of a call: the flag is read. -/
def ToggleState.begin (s : ToggleState Tid) (t : Tid) :
    ToggleMove → Option (ToggleState Tid)
  | .opened fd call =>
      some (if s.monitor.enabled = false ∨ fd < 0 then s
        else s.goto t (.inserting fd call s.session))
  | .closed fd =>
      some (if s.monitor.enabled = false ∨ fd < 0 then s else s.goto t (.erasing fd))
  | .enable =>
      some (if s.monitor.enabled then s
        else { s with monitor := s.monitor.enable, session := s.session + 1 })
  | .disable =>
      some (if s.monitor.enabled then
          { s with monitor := { s.monitor with enabled := false } }.goto t .swapping
        else s)
  | .advance => none

/-- The second step, under the mutex. -/
def ToggleState.finish (s : ToggleState Tid) (t : Tid) : TogglePc → Option (ToggleState Tid)
  | .idle => none
  | .inserting fd call session =>
      some { s.goto t .idle with
        monitor := s.monitor.insertFd fd call.info
        openedIn := Function.update s.openedIn fd session }
  | .erasing fd => some { s.goto t .idle with monitor := s.monitor.eraseFd fd }
  | .swapping => some { s.goto t .idle with monitor := s.monitor.swapFds }

def ToggleState.step (s : ToggleState Tid) (label : ToggleStep Tid) :
    Option (ToggleState Tid) :=
  match s.pcs label.thread, label.move with
  | .idle, move => s.begin label.thread move
  | pc, .advance => s.finish label.thread pc
  | _, _ => none

/-- A `Disable` stands between its two steps. -/
def ToggleState.Disabling (s : ToggleState Tid) : Prop :=
  ∃ t, s.pcs t = .swapping

/-- The sessions are kept apart: nothing is left while monitoring is off, and a report
made now names descriptors of this session only. -/
structure ToggleState.Separated (s : ToggleState Tid) : Prop where
  off : s.monitor.enabled = false → ¬ s.Disabling → s.monitor.openFds = ∅
  on : s.monitor.enabled = true → ∀ entry ∈ s.monitor.leakedFds,
    s.openedIn entry.1 = s.session

/-- A hook inserts in the session whose flag it has read, or before the `Disable` of a
session is over; monitoring is switched on with nothing left in the map. -/
def ToggleState.InTime (s : ToggleState Tid) (label : ToggleStep Tid) : Prop :=
  (∀ fd call session, s.pcs label.thread = .inserting fd call session →
    if s.monitor.enabled then session = s.session else s.Disabling) ∧
  (label.move = .enable → s.monitor.enabled = false → s.monitor.openFds = ∅)

/-- A hook whose two steps are not interrupted is the hook of the monitor. -/
theorem IoCall.record_eq (call : IoCall) (fd : Int) (monitor : IoMonitor) :
    call.record fd monitor =
      if monitor.enabled = false ∨ fd < 0 then monitor
      else monitor.insertFd fd call.info := by
  cases call <;> rfl

theorem IoMonitor.onClose_eq (fd : Int) (monitor : IoMonitor) :
    monitor.onClose fd =
      if monitor.enabled = false ∨ fd < 0 then monitor else monitor.eraseFd fd := rfl

theorem IoMonitor.disable_eq (monitor : IoMonitor) :
    monitor.disable =
      if monitor.enabled then { monitor with enabled := false }.swapFds
      else monitor := rfl

variable {s next : ToggleState Tid} {label : ToggleStep Tid}

/-- What one step does, by the position of the thread that takes it. -/
theorem ToggleState.step_cases (hstep : s.step label = some next) :
    (s.pcs label.thread = .idle ∧ s.begin label.thread label.move = some next) ∨
      (label.move = .advance ∧
        s.finish label.thread (s.pcs label.thread) = some next) := by
  cases hpc : s.pcs label.thread with
  | idle =>
      simp only [step, hpc] at hstep
      exact Or.inl ⟨rfl, hstep⟩
  | inserting fd call session =>
      cases hmove : label.move <;> simp [step, hpc, hmove] at hstep
      exact Or.inr ⟨rfl, hstep⟩
  | erasing fd =>
      cases hmove : label.move <;> simp [step, hpc, hmove] at hstep
      exact Or.inr ⟨rfl, hstep⟩
  | swapping =>
      cases hmove : label.move <;> simp [step, hpc, hmove] at hstep
      exact Or.inr ⟨rfl, hstep⟩

/-- The sessions that are noted have begun, and the sessions are kept apart. -/
structure ToggleState.Inv (s : ToggleState Tid) : Prop where
  reading : ∀ t fd call session, s.pcs t = .inserting fd call session →
    session ≤ s.session
  openedIn : ∀ entry ∈ s.monitor.leakedFds, s.openedIn entry.1 ≤ s.session
  separated : s.Separated

theorem ToggleState.disabling_goto {t : Tid} {pc : TogglePc} (hpc : s.pcs t = .idle)
    (hdisabling : s.Disabling) : (s.goto t pc).Disabling := by
  obtain ⟨u, hu⟩ := hdisabling
  refine ⟨u, ?_⟩
  have hne : u ≠ t := by
    rintro rfl
    rw [hpc] at hu
    contradiction
  exact (Function.update_of_ne hne ..).trans hu

theorem ToggleState.disabling_finish_iff {t : Tid} (hpc : s.pcs t ≠ .swapping) :
    (s.goto t .idle).Disabling ↔ s.Disabling := by
  apply exists_congr
  intro u
  by_cases hsame : u = t
  · subst hsame
    simp [goto, hpc]
  · simp [goto, Function.update_of_ne hsame]

/-- Every entry after an insertion is the new one or an old one. -/
theorem IoMonitor.mem_insertFd {monitor : IoMonitor} {fd fd' : Int} {info info' : FdInfo}
    (hmem : (fd', info') ∈ (monitor.insertFd fd info).leakedFds) :
    fd' = fd ∨ (fd' ≠ fd ∧ (fd', info') ∈ monitor.leakedFds) := by
  by_cases hsame : fd' = fd
  · exact Or.inl hsame
  · refine Or.inr ⟨hsame, ?_⟩
    rw [IoMonitor.mem_leakedFds] at hmem ⊢
    exact (AList.lookup_insert_ne hsame).symm.trans hmem

theorem IoMonitor.mem_eraseFd {monitor : IoMonitor} {fd : Int} {entry : Int × FdInfo}
    (hmem : entry ∈ (monitor.eraseFd fd).leakedFds) : entry ∈ monitor.leakedFds := by
  obtain ⟨fd', info⟩ := entry
  rw [IoMonitor.mem_leakedFds] at hmem ⊢
  have hne : fd' ≠ fd := by
    rintro rfl
    simp [eraseFd] at hmem
  exact (AList.lookup_erase_ne hne).symm.trans hmem

theorem IoMonitor.leakedFds_eq_nil_iff (monitor : IoMonitor) :
    monitor.leakedFds = [] ↔ monitor.openFds = ∅ := by
  rw [leakedFds, List.map_eq_nil_iff]
  constructor
  · exact fun hentries => AList.ext hentries
  · intro hempty
    rw [hempty]
    rfl

/-- Two states that differ in one thread, which is not between the steps of
`Disable`. -/
theorem ToggleState.Inv.reading_goto {t : Tid} {pc : TogglePc} (hinv : s.Inv)
    (hpc : ∀ fd call session, pc = .inserting fd call session → session ≤ s.session) :
    ∀ u fd call session, (s.goto t pc).pcs u = .inserting fd call session →
      session ≤ s.session := by
  intro u fd call session hu
  by_cases hsame : u = t
  · subst hsame
    apply hpc fd call session
    simpa [goto] using hu
  · apply hinv.reading u fd call session
    simpa [goto, Function.update_of_ne hsame] using hu

/-- A thread begins a call that leaves the monitor alone. -/
theorem ToggleState.inv_goto {t : Tid} {pc : TogglePc} (hinv : s.Inv)
    (hidle : s.pcs t = .idle)
    (hpc : ∀ fd call session, pc = .inserting fd call session → session ≤ s.session) :
    (s.goto t pc).Inv where
  reading := hinv.reading_goto hpc
  openedIn := hinv.openedIn
  separated := ⟨fun hoff hnot => hinv.separated.off hoff (mt (disabling_goto hidle) hnot),
    hinv.separated.on⟩

theorem ToggleState.inv_disable {t : Tid} (hinv : s.Inv) :
    ({ s with monitor := { s.monitor with enabled := false } }.goto t .swapping).Inv where
  reading := hinv.reading_goto (by simp)
  openedIn := hinv.openedIn
  separated := by
    refine ⟨fun _ hnot => ?_, fun hon => ?_⟩
    · exact absurd ⟨t, by simp [goto]⟩ hnot
    · exact absurd hon Bool.false_ne_true

omit [DecidableEq Tid] in
/-- A session that begins with an empty map begins a law-abiding one. -/
theorem ToggleState.enable_separated_iff (hinv : s.Inv)
    (hoff : s.monitor.enabled = false) :
    ({ s with monitor := s.monitor.enable, session := s.session + 1 } :
        ToggleState Tid).Separated ↔ s.monitor.openFds = ∅ := by
  have henable : s.monitor.enable = { s.monitor with enabled := true } := by
    simp [IoMonitor.enable, hoff]
  rw [henable, ← IoMonitor.leakedFds_eq_nil_iff]
  constructor
  · intro hseparated
    apply List.eq_nil_iff_forall_not_mem.mpr
    intro entry hentry
    have hnew : s.openedIn entry.1 = s.session + 1 := hseparated.on rfl entry hentry
    have hold := hinv.openedIn entry hentry
    omega
  · intro hnil
    refine ⟨fun hfalse => absurd hfalse.symm Bool.false_ne_true, fun _ entry hentry => ?_⟩
    change entry ∈ s.monitor.leakedFds at hentry
    rw [hnil] at hentry
    contradiction

theorem ToggleState.inv_erase {t : Tid} {fd : Int} (hinv : s.Inv)
    (hpc : s.pcs t = .erasing fd) :
    ({ s.goto t .idle with monitor := s.monitor.eraseFd fd } : ToggleState Tid).Inv where
  reading := hinv.reading_goto (by simp)
  openedIn := fun entry hentry => hinv.openedIn entry (IoMonitor.mem_eraseFd hentry)
  separated := by
    refine ⟨fun hoff hnot => ?_, fun hon entry hentry => ?_⟩
    · have hempty : s.monitor.openFds = ∅ := by
        apply hinv.separated.off hoff
        exact mt (disabling_finish_iff (by simp [hpc])).mpr hnot
      simp only [IoMonitor.eraseFd, hempty]
      rfl
    · exact hinv.separated.on hon entry (IoMonitor.mem_eraseFd hentry)

theorem ToggleState.inv_swap {t : Tid} (hinv : s.Inv) :
    ({ s.goto t .idle with monitor := s.monitor.swapFds } : ToggleState Tid).Inv := by
  have hnil : s.monitor.swapFds.leakedFds = [] := rfl
  refine ⟨hinv.reading_goto (by simp), ?_, fun _ _ => rfl, ?_⟩
  · simp [hnil]
  · simp [hnil]

/-- The insertion is the step that can break the law. -/
theorem ToggleState.insert_separated_iff {t : Tid} {fd : Int} {call : IoCall}
    {session : Nat} (hinv : s.Inv) (hpc : s.pcs t = .inserting fd call session) :
    ({ s.goto t .idle with
        monitor := s.monitor.insertFd fd call.info
        openedIn := Function.update s.openedIn fd session } :
        ToggleState Tid).Separated ↔
      if s.monitor.enabled then session = s.session else s.Disabling := by
  have hnew : (fd, call.info) ∈ (s.monitor.insertFd fd call.info).leakedFds := by
    rw [IoMonitor.mem_leakedFds]
    exact AList.lookup_insert _
  cases hon : s.monitor.enabled with
  | true =>
      simp only [if_true]
      constructor
      · intro hseparated
        exact (Function.update_self ..).symm.trans (hseparated.on hon _ hnew)
      · rintro rfl
        refine ⟨fun hoff => ?_, fun _ entry hentry => ?_⟩
        · exact absurd (hon.symm.trans hoff) (Bool.false_ne_true ·.symm)
        · change Function.update s.openedIn fd s.session entry.1 = s.session
          rcases IoMonitor.mem_insertFd hentry with hsame | ⟨hne, hold⟩
          · rw [hsame, Function.update_self]
          · rw [Function.update_of_ne hne]
            exact hinv.separated.on hon entry hold
  | false =>
      simp only [Bool.false_eq_true, if_false]
      have hdisabling : (s.goto t .idle).Disabling ↔ s.Disabling :=
        disabling_finish_iff (by simp [hpc])
      constructor
      · intro hseparated
        by_contra hnot
        have hempty := hseparated.off hon (mt hdisabling.mp hnot)
        rw [(IoMonitor.leakedFds_eq_nil_iff _).mpr hempty] at hnew
        contradiction
      · intro hin
        refine ⟨fun _ hnot => absurd (hdisabling.mpr hin) hnot, fun htrue => ?_⟩
        exact absurd (hon.symm.trans htrue) Bool.false_ne_true

theorem ToggleState.inv_insert {t : Tid} {fd : Int} {call : IoCall} {session : Nat}
    (hinv : s.Inv) (hpc : s.pcs t = .inserting fd call session)
    (htime : if s.monitor.enabled then session = s.session else s.Disabling) :
    ({ s.goto t .idle with
        monitor := s.monitor.insertFd fd call.info
        openedIn := Function.update s.openedIn fd session } :
        ToggleState Tid).Inv where
  reading := hinv.reading_goto (by simp)
  openedIn := by
    intro entry hentry
    change Function.update s.openedIn fd session entry.1 ≤ s.session
    rcases IoMonitor.mem_insertFd hentry with hsame | ⟨hne, hold⟩
    · rw [hsame, Function.update_self]
      exact hinv.reading t fd call session hpc
    · rw [Function.update_of_ne hne]
      exact hinv.openedIn entry hold
  separated := (insert_separated_iff hinv hpc).mpr htime

omit [DecidableEq Tid] in
theorem ToggleState.inv_enable (hinv : s.Inv) (hoff : s.monitor.enabled = false)
    (hempty : s.monitor.openFds = ∅) :
    ({ s with monitor := s.monitor.enable, session := s.session + 1 } :
        ToggleState Tid).Inv where
  reading := by
    intro u fd call session hu
    exact Nat.le_succ_of_le (hinv.reading u fd call session hu)
  openedIn := by
    intro entry hentry
    rw [IoMonitor.enable, hoff] at hentry
    exact Nat.le_succ_of_le (hinv.openedIn entry hentry)
  separated := (enable_separated_iff hinv hoff).mpr hempty

omit [DecidableEq Tid] in
/-- Of the first steps only that of `Enable` can be out of time. -/
theorem ToggleState.inTime_idle_iff {t : Tid} {move : ToggleMove} (hidle : s.pcs t = .idle) :
    s.InTime ⟨t, move⟩ ↔
      (move = .enable → s.monitor.enabled = false → s.monitor.openFds = ∅) := by
  apply and_iff_right
  intro fd call session hpc
  rw [hidle] at hpc
  contradiction

omit [DecidableEq Tid] in
/-- Of the second steps only the insertion can. -/
theorem ToggleState.inTime_advance_iff {t : Tid} :
    s.InTime ⟨t, .advance⟩ ↔ ∀ fd call session, s.pcs t = .inserting fd call session →
      if s.monitor.enabled then session = s.session else s.Disabling :=
  and_iff_left (by simp)

omit [DecidableEq Tid] in
/-- A step that keeps the invariant and is in time says no more about the sessions. -/
theorem ToggleState.Inv.separated_iff (hinv : next.Inv) (htime : s.InTime label) :
    (next.Separated ↔ s.InTime label) ∧ (s.InTime label → next.Inv) :=
  ⟨iff_of_true hinv.separated htime, fun _ => hinv⟩

/-- The first step of a call. -/
theorem ToggleState.begin_separated {t : Tid} {move : ToggleMove} (hinv : s.Inv)
    (hidle : s.pcs t = .idle) (hbegin : s.begin t move = some next) :
    (next.Separated ↔ s.InTime ⟨t, move⟩) ∧ (s.InTime ⟨t, move⟩ → next.Inv) := by
  have htime : s.InTime ⟨t, move⟩ ↔ _ := inTime_idle_iff hidle
  cases move with
  | opened fd call =>
      obtain rfl := Option.some.inj hbegin
      refine Inv.separated_iff ?_ (htime.mpr (by simp))
      by_cases hoff : s.monitor.enabled = false ∨ fd < 0
      · rw [if_pos hoff]
        exact hinv
      · rw [if_neg hoff]
        apply inv_goto hinv hidle
        intro fd' call' session heq
        injection heq with _ _ hsession
        exact hsession.ge
  | closed fd =>
      obtain rfl := Option.some.inj hbegin
      refine Inv.separated_iff ?_ (htime.mpr (by simp))
      by_cases hoff : s.monitor.enabled = false ∨ fd < 0
      · rw [if_pos hoff]
        exact hinv
      · rw [if_neg hoff]
        exact inv_goto hinv hidle (by simp)
  | enable =>
      obtain rfl := Option.some.inj hbegin
      cases hon : s.monitor.enabled with
      | true =>
          rw [if_pos rfl]
          exact Inv.separated_iff hinv (htime.mpr (by simp [hon]))
      | false =>
          have hempty : s.InTime ⟨t, .enable⟩ ↔ s.monitor.openFds = ∅ :=
            htime.trans (by simp [hon])
          simp only [Bool.false_eq_true, if_false]
          rw [hempty]
          exact ⟨enable_separated_iff hinv hon, inv_enable hinv hon⟩
  | disable =>
      obtain rfl := Option.some.inj hbegin
      refine Inv.separated_iff ?_ (htime.mpr (by simp))
      cases hon : s.monitor.enabled with
      | true =>
          rw [if_pos rfl]
          exact inv_disable hinv
      | false =>
          simp only [Bool.false_eq_true, if_false]
          exact hinv
  | advance => simp [begin] at hbegin

/-- The second step, by what the thread is in the middle of. -/
theorem ToggleState.finish_separated {t : Tid} (hinv : s.Inv)
    (hfinish : s.finish t (s.pcs t) = some next) :
    (next.Separated ↔ s.InTime ⟨t, .advance⟩) ∧ (s.InTime ⟨t, .advance⟩ → next.Inv) := by
  have htime : s.InTime ⟨t, .advance⟩ ↔ _ := inTime_advance_iff
  cases hpc : s.pcs t with
  | idle => simp [finish, hpc] at hfinish
  | inserting fd call session =>
      rw [hpc] at hfinish htime
      obtain rfl := Option.some.inj hfinish
      have hinserted : s.InTime ⟨t, .advance⟩ ↔
          if s.monitor.enabled then session = s.session else s.Disabling := by
        rw [htime]
        constructor
        · intro hall
          exact hall fd call session rfl
        · intro hin fd' call' session' heq
          injection heq with _ _ hsession
          rwa [← hsession]
      rw [hinserted]
      exact ⟨insert_separated_iff hinv hpc, inv_insert hinv hpc⟩
  | erasing fd =>
      rw [hpc] at hfinish htime
      obtain rfl := Option.some.inj hfinish
      exact Inv.separated_iff (inv_erase hinv hpc) (htime.mpr (by simp))
  | swapping =>
      rw [hpc] at hfinish htime
      obtain rfl := Option.some.inj hfinish
      exact Inv.separated_iff (inv_swap hinv) (htime.mpr (by simp))

/-- One step keeps the sessions apart if and only if it is in time, and then it keeps
the invariant. -/
theorem ToggleState.step_separated (hinv : s.Inv) (hstep : s.step label = some next) :
    (next.Separated ↔ s.InTime label) ∧ (s.InTime label → next.Inv) := by
  obtain ⟨t, move⟩ := label
  rcases step_cases hstep with ⟨hidle, hbegin⟩ | ⟨hadvance, hfinish⟩
  · exact begin_separated hinv hidle hbegin
  · subst hadvance
    exact finish_separated hinv hfinish

omit [DecidableEq Tid] in
theorem ToggleState.Inv.initial : (ToggleState.initial Tid).Inv := by
  have hnil : (ToggleState.initial Tid).monitor.leakedFds = [] := rfl
  refine ⟨by simp [ToggleState.initial], ?_, fun _ _ => rfl, ?_⟩
  · simp [hnil]
  · simp [hnil]

/-- Under any number of threads and any interleaving: the map is empty while
monitoring is off, and no report names a descriptor of an earlier session, if and only
if every insertion is made in time and no session begins on top of entries that a
`Disable` has still to drop. -/
theorem fdMap_separated_iff (labels : List (ToggleStep Tid)) (final : ToggleState Tid)
    (hrun : run ToggleState.step (ToggleState.initial Tid) labels = some final) :
    Throughout ToggleState.step ToggleState.Separated (ToggleState.initial Tid) labels ↔
      Along ToggleState.step ToggleState.InTime (ToggleState.initial Tid) labels := by
  have hinitial : (ToggleState.initial Tid).Inv := ToggleState.Inv.initial
  apply throughout_iff_along ToggleState.Inv _ _ hinitial hinitial.separated along_true hrun
  · intro s label next hinv _ htime hstep
    exact (ToggleState.step_separated hinv hstep).2 htime
  · intro s label next hinv _ hstep
    exact (ToggleState.step_separated hinv hstep).1

namespace ToggleWitness

def start : ToggleState Bool := ToggleState.initial Bool

def worker (move : ToggleMove) : ToggleStep Bool :=
  { thread := true, move := move }

def control (move : ToggleMove) : ToggleStep Bool :=
  { thread := false, move := move }

/-- Two sessions; the worker opens in both. -/
def twoSessions : List (ToggleStep Bool) :=
  [control .enable, worker (.opened 3 (.open none)), control .disable, worker .advance,
    control .advance, control .enable, worker (.opened 4 (.socket 2 1 0)),
    worker .advance, worker (.closed 4), worker .advance]

theorem twoSessions_separated_iff :
    Throughout ToggleState.step ToggleState.Separated start twoSessions ↔
      Along ToggleState.step ToggleState.InTime start twoSessions :=
  fdMap_separated_iff twoSessions _ rfl

/-- The worker has read the flag; `Disable` completes before it takes the lock. -/
def lateInsertion : List (ToggleStep Bool) :=
  [control .enable, worker (.opened 3 (.open none)), control .disable, control .advance,
    worker .advance]

theorem lateInsertion_not_separated :
    ¬ Throughout ToggleState.step ToggleState.Separated start lateInsertion := by
  intro hall
  have hfinal := hall _ (List.prefix_refl _) _ rfl
  have hempty := hfinal.off rfl (by
    rintro ⟨t, ht⟩
    cases t <;> simp [ToggleState.goto, control, worker, start] at ht)
  exact absurd ((IoMonitor.leakedFds_eq_nil_iff _).mpr hempty) (by decide)

end ToggleWitness

end Domovoy
