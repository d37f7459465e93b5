/-
The hooks on Windows under any number of threads: `CreateFileA`, `CreateFileW` and
`CloseHandle`, which every handle is closed with, one of a file or not.  The monitor keys
its map by a handle cut down to an `int`.
-/
import Domovoy.IoMonitor
import Domovoy.Registry

namespace Domovoy

open WordAlign Transition

/-- A handle is 64 bits wide, of which the low 32 bits tell it from the others. -/
def handleId (h : Word) : BitVec 32 := h.setWidth 32

/-- `(int)(intptr_t)h`. -/
def handleFd (h : Word) : Int := (handleId h).toInt

/-- `INVALID_HANDLE_VALUE`. -/
def invalidHandleValue : Word := BitVec.allOnes 64

def widePath : CString where
  bytes := literal "<wide path>"
  nulFree := by decide

inductive CreateCall where
  | createFileA (fileName : CString)
  | createFileW
deriving DecidableEq

/-- What the hook hands to `OnOpen` as the path. -/
def CreateCall.path : CreateCall → CString
  | .createFileA fileName => fileName
  | .createFileW => widePath

/-- What `HookedCreateFileA` and `HookedCreateFileW` do with a handle that is valid. -/
def CreateCall.record (call : CreateCall) (h : Word) (monitor : IoMonitor) : IoMonitor :=
  monitor.onOpen (handleFd h) (some call.path)

/-- Where a thread stands in its hook call. -/
inductive HandlePc where
  | idle
  /-- `TrueCreateFile` is next. -/
  | creating (call : CreateCall)
  /-- `OnOpen` is next, then the hook returns `h`. -/
  | recording (h : Word) (call : CreateCall)
  /-- `OnClose` is next. -/
  | erasing (h : Word)
  /-- `TrueCloseHandle(h)` is next. -/
  | closing (h : Word)
deriving DecidableEq

/-- `refuse` is an insertion for which the pool has no room: `bad_alloc` leaves the hook. -/
inductive HandleMove where
  | create (call : CreateCall)
  | created (h : Word)
  | closeHandle (h : Word)
  /-- `HookedCloseHandle` for a handle that is not of a file. -/
  | closeOther (h : Word)
  | closed (succeeds : Bool)
  | monitor
  | refuse
deriving DecidableEq

structure HandleStep (Tid : Type) where
  thread : Tid
  move : HandleMove

/-- The monitor, the open file handles with the calls that returned them, those that the
application holds from completed calls, and the position of every thread. -/
structure HandleState (Tid : Type) where
  monitor : IoMonitor
  openBy : BitVec 32 → Option CreateCall
  owned : BitVec 32 → Bool
  pc : Tid → HandlePc

/-- A session has just been enabled. -/
def HandleState.initial (Tid : Type) : HandleState Tid where
  monitor := IoMonitor.initial.enable
  openBy := fun _ => none
  owned := fun _ => false
  pc := fun _ => .idle

variable {Tid : Type} [DecidableEq Tid]

/-- One atomic step.  `TrueCreateFile` fails, or returns a handle that is not open;
`TrueCloseHandle` fails for a handle that is protected from it.  A handle whose record is
refused stays open, and nobody has it. -/
def HandleState.step (s : HandleState Tid) (label : HandleStep Tid) :
    Option (HandleState Tid) :=
  let setPc := Function.update s.pc label.thread
  match label.move, s.pc label.thread with
  | .create call, .idle => some { s with pc := setPc (.creating call) }
  | .created h, .creating call =>
      if h = invalidHandleValue then some { s with pc := setPc .idle }
      else if s.openBy (handleId h) = none then
        some { s with
          openBy := Function.update s.openBy (handleId h) (some call)
          pc := setPc (.recording h call) }
      else none
  | .monitor, .recording h call =>
      some { s with
        monitor := call.record h s.monitor
        owned := Function.update s.owned (handleId h) true
        pc := setPc .idle }
  | .refuse, .recording h _ =>
      if 0 ≤ handleFd h ∧ s.monitor.openFds.lookup (handleFd h) = none then
        some { s with pc := setPc .idle }
      else none
  | .closeHandle h, .idle =>
      if s.owned (handleId h) then
        some { s with
          owned := Function.update s.owned (handleId h) false
          pc := setPc (.erasing h) }
      else none
  | .closeOther h, .idle =>
      if s.openBy (handleId h) = none then
        some { s with monitor := s.monitor.onClose (handleFd h) }
      else none
  | .monitor, .erasing h =>
      some { s with monitor := s.monitor.onClose (handleFd h), pc := setPc (.closing h) }
  | .closed true, .closing h =>
      some { s with
        openBy := Function.update s.openBy (handleId h) none
        pc := setPc .idle }
  | .closed false, .closing h =>
      some { s with
        owned := Function.update s.owned (handleId h) true
        pc := setPc .idle }
  | _, _ => none

def HandleState.recorded (s : HandleState Tid) (fd : Int) : Option FdInfo :=
  s.monitor.openFds.lookup fd

/-- What the monitor keeps of a call. -/
def CreateCall.info (call : CreateCall) : FdInfo :=
  .ofPath (some call.path)

/-- The handle has been created and not recorded yet, or it has been erased and not
closed yet. -/
def HandleState.InFlight (s : HandleState Tid) (id : BitVec 32) : Prop :=
  ∃ t h, handleId h = id ∧ ((∃ call, s.pc t = .recording h call) ∨ s.pc t = .closing h)

/-- The map holds exactly the open file handles outside the calls in progress, each with
what its call was given. -/
structure HandleState.Exact (s : HandleState Tid) : Prop where
  contains : ∀ fd, s.recorded fd ≠ none ↔
    ∃ id, id.toInt = fd ∧ s.openBy id ≠ none ∧ ¬ s.InFlight id
  record : ∀ id info, s.recorded id.toInt = some info →
    ∃ call, s.openBy id = some call ∧ call.info = info

/-- A handle that is recorded is not negative as an `int`, a file handle is closed when
it is asked to be, and the pool has room for each record. -/
def HandleState.Keeps (s : HandleState Tid) (label : HandleStep Tid) : Prop :=
  (∀ h call, label.move = .monitor → s.pc label.thread = .recording h call →
    0 ≤ handleFd h) ∧
  (∀ h, label.move = .closed false → s.pc label.thread ≠ .closing h) ∧
  ∀ h call, label.move = .refuse → s.pc label.thread ≠ .recording h call

/-- What a position means for the registry of handles. -/
def HandlePc.phase : HandlePc → Registry.Phase (BitVec 32) FdInfo
  | .idle => .idle
  | .creating _ => .idle
  | .recording h call => .acquired (handleId h) call.info
  | .erasing h => .retiring (handleId h)
  | .closing h => .unregistered (handleId h)

def HandleState.registry (s : HandleState Tid) : Registry.State Tid (BitVec 32) FdInfo where
  live := fun id => (s.openBy id).map CreateCall.info
  table := fun id => s.recorded id.toInt
  owned := s.owned
  phase := fun t => (s.pc t).phase

/-- The invariant: the registry's, and every key of the map is some handle cut down. -/
structure HandleState.Sound (s : HandleState Tid) : Prop where
  enabled : s.monitor.enabled = true
  registry : Registry.Inv s.registry
  keys : ∀ fd, s.recorded fd ≠ none → ∃ id : BitVec 32, id.toInt = fd
  nonneg : ∀ id, s.owned id = true → 0 ≤ id.toInt
  erasing : ∀ t h, s.pc t = .erasing h → 0 ≤ handleFd h

theorem toInt_injective : Function.Injective (BitVec.toInt : BitVec 32 → Int) :=
  fun _ _ h => BitVec.eq_of_toInt_eq h

/-- Handles that differ have different keys. -/
theorem update_toInt (table : Int → Option FdInfo) (id : BitVec 32) (info : Option FdInfo) :
    (fun id' : BitVec 32 => Function.update table id.toInt info id'.toInt) =
      Function.update (fun id' : BitVec 32 => table id'.toInt) id info :=
  Function.update_comp_eq_of_injective table toInt_injective id info

/-- The same change of the map, seen by handles. -/
theorem IoMonitor.table_update {monitor monitor' : IoMonitor} {id : BitVec 32}
    {info : Option FdInfo}
    (hlookup : (fun fd => monitor'.openFds.lookup fd) =
      Function.update (fun fd => monitor.openFds.lookup fd) id.toInt info) :
    (fun id' : BitVec 32 => monitor'.openFds.lookup id'.toInt) =
      Function.update (fun id' : BitVec 32 => monitor.openFds.lookup id'.toInt) id info :=
  (funext fun id' : BitVec 32 => congrFun hlookup id'.toInt).trans
    (update_toInt _ id info)

/-- A change under the key of a handle leaves keys of handles only. -/
theorem IoMonitor.keys_update {monitor monitor' : IoMonitor} {id : BitVec 32}
    {info : Option FdInfo}
    (hkeys : ∀ fd, monitor.openFds.lookup fd ≠ none → ∃ id : BitVec 32, id.toInt = fd)
    (hlookup : (fun fd => monitor'.openFds.lookup fd) =
      Function.update (fun fd => monitor.openFds.lookup fd) id.toInt info) :
    ∀ fd, monitor'.openFds.lookup fd ≠ none → ∃ id : BitVec 32, id.toInt = fd := by
  intro fd hrecorded
  rw [show monitor'.openFds.lookup fd = _ from congrFun hlookup fd] at hrecorded
  by_cases hfd : fd = id.toInt
  · exact ⟨id, hfd.symm⟩
  · rw [Function.update_of_ne hfd] at hrecorded
    exact hkeys fd hrecorded

theorem IoMonitor.onClose_on {monitor : IoMonitor} (henabled : monitor.enabled = true)
    (fd : Int) : (monitor.onClose fd).enabled = true := by
  rw [onClose]
  split <;> exact henabled

theorem CreateCall.record_of_enabled {monitor : IoMonitor} (henabled : monitor.enabled = true)
    {h : Word} (hnonneg : 0 ≤ handleFd h) (call : CreateCall) :
    call.record h monitor =
      { monitor with openFds := monitor.openFds.insert (handleFd h) call.info } := by
  have hguard : ¬ (monitor.enabled = false ∨ handleFd h < 0) := by
    simp [henabled, hnonneg]
  rw [record, IoMonitor.onOpen, if_neg hguard, info]

theorem CreateCall.record_of_negative {h : Word} (hnegative : handleFd h < 0)
    (call : CreateCall) (monitor : IoMonitor) : call.record h monitor = monitor := by
  rw [record, IoMonitor.onOpen, if_pos (Or.inr hnegative)]

theorem CreateCall.lookup_record {monitor : IoMonitor} (henabled : monitor.enabled = true)
    {h : Word} (hnonneg : 0 ≤ handleFd h) (call : CreateCall) :
    (fun fd' => (call.record h monitor).openFds.lookup fd') =
      Function.update (fun fd' => monitor.openFds.lookup fd') (handleFd h)
        (some call.info) := by
  rw [record_of_enabled henabled hnonneg]
  exact Registry.lookup_insert_eq_update monitor.openFds (handleFd h) call.info

theorem IoMonitor.lookup_onClose {monitor : IoMonitor} (henabled : monitor.enabled = true)
    {fd : Int} (hfd : 0 ≤ fd) :
    (fun fd' => (monitor.onClose fd).openFds.lookup fd') =
      Function.update (fun fd' => monitor.openFds.lookup fd') fd none := by
  have hguard : ¬ (monitor.enabled = false ∨ fd < 0) := by
    simp [henabled, hfd]
  rw [onClose, if_neg hguard]
  exact Registry.lookup_erase_eq_update monitor.openFds fd

section Invariant

variable {s s' : HandleState Tid} {t : Tid}

omit [DecidableEq Tid] in
theorem HandleState.initial_sound : (HandleState.initial Tid).Sound where
  enabled := rfl
  registry := Registry.inv_initial
  keys := by
    intro fd hfd
    exact absurd rfl hfd
  nonneg := by simp [initial]
  erasing := by simp [initial]

/-- The registry after one thread has moved on. -/
theorem HandleState.registry_move (s : HandleState Tid) (t : Tid) (pc : HandlePc)
    (monitor : IoMonitor) (openBy : BitVec 32 → Option CreateCall)
    (owned : BitVec 32 → Bool) :
    HandleState.registry ⟨monitor, openBy, owned, Function.update s.pc t pc⟩ =
      ⟨fun id => (openBy id).map CreateCall.info,
        fun id => monitor.openFds.lookup id.toInt, owned,
        Function.update s.registry.phase t pc.phase⟩ := by
  have hphase : (fun t' => (Function.update s.pc t pc t').phase) =
      Function.update s.registry.phase t pc.phase :=
    Function.comp_update HandlePc.phase s.pc t pc
  rw [registry, hphase]
  rfl

theorem CreateCall.info_update (openBy : BitVec 32 → Option CreateCall) (id : BitVec 32)
    (call : Option CreateCall) :
    (fun id' => (Function.update openBy id call id').map CreateCall.info) =
      Function.update (fun id' => (openBy id').map CreateCall.info) id
        (call.map CreateCall.info) :=
  Function.comp_update (Option.map CreateCall.info) openBy id call

/-- Moving one thread on, for what is about to be erased. -/
theorem HandleState.erasing_update (hsound : s.Sound) {pc : HandlePc}
    (hpc : ∀ h, pc = .erasing h → 0 ≤ handleFd h) :
    ∀ t' h, Function.update s.pc t pc t' = .erasing h → 0 ≤ handleFd h := by
  intro t' h herasing
  by_cases ht : t' = t
  · subst ht
    rw [Function.update_self] at herasing
    exact hpc h herasing
  · rw [Function.update_of_ne ht] at herasing
    exact hsound.erasing t' h herasing

omit [DecidableEq Tid] in
theorem HandleState.leftover_none (s : HandleState Tid) (t : Tid) (id : BitVec 32) :
    (s.registry.phase t).leftover ≠ some id := by
  change (s.pc t).phase.leftover ≠ some id
  cases s.pc t <;> simp [HandlePc.phase, Registry.Phase.leftover]

omit [DecidableEq Tid] in
/-- What is recorded is open. -/
theorem HandleState.recorded_of_closed (hsound : s.Sound) {id : BitVec 32}
    (hclosed : s.openBy id = none) : s.recorded id.toInt = none := by
  by_contra hrecorded
  have htable : s.registry.table id ≠ none := hrecorded
  have hlive := (hsound.registry.live_of_table htable fun t => s.leftover_none t id).1
  have hnone : s.registry.live id = none := by
    simp [registry, hclosed]
  exact hrecorded (hlive.symm.trans hnone)

omit [DecidableEq Tid] in
/-- A handle that is not of a file has no record to lose. -/
theorem HandleState.lookup_closeOther (hsound : s.Sound) {h : Word}
    (hclosed : s.openBy (handleId h) = none) :
    (fun fd => (s.monitor.onClose (handleFd h)).openFds.lookup fd) =
      fun fd => s.monitor.openFds.lookup fd := by
  by_cases hnonneg : 0 ≤ handleFd h
  · rw [IoMonitor.lookup_onClose hsound.enabled hnonneg]
    apply Function.update_eq_self_iff.mpr
    exact (recorded_of_closed hsound hclosed).symm
  · rw [IoMonitor.onClose, if_pos (Or.inr (Int.not_le.mp hnonneg))]

/-- A thread that goes on without anything of the registry changing. -/
theorem HandleState.registry_idle (hsound : s.Sound) {pc : HandlePc}
    (hbefore : (s.pc t).phase = .idle) (hafter : pc.phase = .idle) :
    Registry.Inv (HandleState.registry
      ⟨s.monitor, s.openBy, s.owned, Function.update s.pc t pc⟩) := by
  have hphase : s.registry.phase t = pc.phase := hbefore.trans hafter.symm
  rw [registry_move, ← hphase, Function.update_eq_self]
  exact hsound.registry

omit [DecidableEq Tid] in
/-- A handle that a completed call gave out, or took back. -/
theorem HandleState.nonneg_update (hsound : s.Sound) {h : Word} {owned : Bool}
    (hgiven : owned = true → 0 ≤ handleFd h) :
    ∀ id, Function.update s.owned (handleId h) owned id = true → 0 ≤ id.toInt := by
  intro id howned
  by_cases hid : id = handleId h
  · subst hid
    rw [Function.update_self] at howned
    exact hgiven howned
  · rw [Function.update_of_ne hid] at howned
    exact hsound.nonneg id howned

omit [DecidableEq Tid] in
theorem HandleState.Sound.closeOther (hsound : s.Sound) {h : Word}
    (hclosed : s.openBy (handleId h) = none) :
    ({ s with monitor := s.monitor.onClose (handleFd h) } : HandleState Tid).Sound := by
  have hlookup := lookup_closeOther hsound hclosed
  refine ⟨IoMonitor.onClose_on hsound.enabled _, ?_, ?_, hsound.nonneg, hsound.erasing⟩
  · have htable : (fun id : BitVec 32 =>
        (s.monitor.onClose (handleFd h)).openFds.lookup id.toInt) =
          s.registry.table := funext fun id => congrFun hlookup id.toInt
    change Registry.Inv ⟨_, fun id : BitVec 32 =>
      (s.monitor.onClose (handleFd h)).openFds.lookup id.toInt, _, _⟩
    rw [htable]
    exact hsound.registry
  · intro fd hrecorded
    apply hsound.keys fd
    rw [HandleState.recorded, show s.monitor.openFds.lookup fd = _ from
      (congrFun hlookup fd).symm]
    exact hrecorded

theorem HandleState.step_sound {label : HandleStep Tid} (hsound : s.Sound)
    (hkeeps : s.Keeps label) (hstep : s.step label = some s') : s'.Sound := by
  rcases label with ⟨t, move⟩
  have hphase : s.registry.phase t = (s.pc t).phase := rfl
  simp only [step] at hstep
  split at hstep
  case h_1 call hpc =>
    obtain rfl := Option.some.inj hstep
    refine ⟨hsound.enabled, registry_idle hsound (by rw [hpc]; rfl) rfl, hsound.keys,
      hsound.nonneg, erasing_update hsound (by simp)⟩
  case h_2 h call hpc =>
    split_ifs at hstep with hinvalid hclosed
    · obtain rfl := Option.some.inj hstep
      exact ⟨hsound.enabled, registry_idle hsound (by rw [hpc]; rfl) rfl, hsound.keys,
        hsound.nonneg, erasing_update hsound (by simp)⟩
    · obtain rfl := Option.some.inj hstep
      refine ⟨hsound.enabled, ?_, hsound.keys, hsound.nonneg,
        erasing_update hsound (by simp)⟩
      rw [registry_move, CreateCall.info_update]
      rw [hpc, HandlePc.phase] at hphase
      exact hsound.registry.acquire hphase (by simp [registry, hclosed])
  case h_3 h call hpc =>
    obtain rfl := Option.some.inj hstep
    have hnonneg := hkeeps.1 h call rfl hpc
    have hlookup := CreateCall.lookup_record hsound.enabled hnonneg call
    refine ⟨?_, ?_, IoMonitor.keys_update hsound.keys hlookup,
      nonneg_update hsound fun _ => hnonneg, erasing_update hsound (by simp)⟩
    · change (call.record h s.monitor).enabled = true
      rw [CreateCall.record_of_enabled hsound.enabled hnonneg]
      exact hsound.enabled
    · rw [hpc, HandlePc.phase] at hphase
      rw [registry_move, IoMonitor.table_update hlookup]
      exact hsound.registry.register hphase fun t' => s.leftover_none t' _
  case h_4 h call hpc => exact absurd hpc (hkeeps.2.2 h call rfl)
  case h_5 h hpc =>
    obtain ⟨howned, hafter⟩ := Option.ite_none_right_eq_some.mp hstep
    obtain rfl := Option.some.inj hafter
    refine ⟨hsound.enabled, ?_, hsound.keys, nonneg_update hsound Bool.noConfusion,
      erasing_update hsound ?_⟩
    · rw [hpc, HandlePc.phase] at hphase
      rw [registry_move]
      exact hsound.registry.retire hphase howned
    · rintro h' ⟨rfl⟩
      exact hsound.nonneg _ howned
  case h_6 h hpc =>
    obtain ⟨hclosed, hafter⟩ := Option.ite_none_right_eq_some.mp hstep
    obtain rfl := Option.some.inj hafter
    exact hsound.closeOther hclosed
  case h_7 h hpc =>
    obtain rfl := Option.some.inj hstep
    have hnonneg := hsound.erasing t h hpc
    have hlookup := IoMonitor.lookup_onClose hsound.enabled hnonneg
    refine ⟨IoMonitor.onClose_on hsound.enabled _, ?_,
      IoMonitor.keys_update hsound.keys hlookup, hsound.nonneg,
      erasing_update hsound (by simp)⟩
    rw [hpc, HandlePc.phase] at hphase
    rw [registry_move, IoMonitor.table_update hlookup]
    exact hsound.registry.unregister hphase
  case h_8 h hpc =>
    obtain rfl := Option.some.inj hstep
    refine ⟨hsound.enabled, ?_, hsound.keys, hsound.nonneg, erasing_update hsound (by simp)⟩
    rw [hpc, HandlePc.phase] at hphase
    rw [registry_move, CreateCall.info_update]
    exact hsound.registry.release hphase
  case h_9 h hpc => exact absurd hpc (hkeeps.2.1 h rfl)
  case h_10 => simp at hstep

omit [DecidableEq Tid] in
theorem HandleState.inWindow_iff (s : HandleState Tid) (id : BitVec 32) :
    s.registry.InWindow id ↔ s.InFlight id := by
  apply exists_congr
  intro t
  change ((∃ info, (s.pc t).phase.pending = some (id, info)) ∨
    (s.pc t).phase = .unregistered id) ↔ _
  cases s.pc t <;> simp [HandlePc.phase, Registry.Phase.pending, and_comm]

omit [DecidableEq Tid] in
theorem HandleState.exact_of_sound (hsound : s.Sound) : s.Exact where
  contains := by
    intro fd
    constructor
    · intro hrecorded
      obtain ⟨id, rfl⟩ := hsound.keys fd hrecorded
      have htable : s.registry.table id ≠ none := hrecorded
      have hwindow := (hsound.registry.live_of_table htable fun t => s.leftover_none t id).2
      refine ⟨id, rfl, ?_, fun hflight => hwindow ((s.inWindow_iff id).mpr hflight)⟩
      intro hclosed
      exact hrecorded (recorded_of_closed hsound hclosed)
    · rintro ⟨id, rfl, hopen, hflight⟩ hunrecorded
      have hlive : s.registry.live id ≠ none := by
        simpa [registry] using hopen
      have hsame := hsound.registry.table_of_live hlive
        fun hwindow => hflight ((s.inWindow_iff id).mp hwindow)
      exact hlive (hsame.symm.trans hunrecorded)
  record := by
    intro id info hrecorded
    have htable : s.registry.table id ≠ none :=
      Option.ne_none_iff_exists'.mpr ⟨info, hrecorded⟩
    have hlive := (hsound.registry.live_of_table htable fun t => s.leftover_none t id).1
    exact Option.map_eq_some_iff.mp (hlive.trans hrecorded)

/-- A handle that stays open while its call ends without a record. -/
theorem HandleState.not_exact_of_dropped (hsound : s.Sound) {h : Word}
    (hflight : (∃ call, s.pc t = .recording h call) ∨ s.pc t = .closing h)
    (hrecorded : s'.recorded = s.recorded) (hopenBy : s'.openBy = s.openBy)
    (hpc : s'.pc = Function.update s.pc t .idle) : ¬ s'.Exact := by
  intro hexact
  have hholding : (s.registry.phase t).holding = some (handleId h) := by
    change (s.pc t).phase.holding = _
    rcases hflight with ⟨call, hpc⟩ | hpc <;> rw [hpc] <;> rfl
  have hopen : s'.openBy (handleId h) ≠ none := by
    rw [hopenBy]
    simpa [registry] using hsound.registry.held_live (handleId h) t hholding
  have hover : ¬ s'.InFlight (handleId h) := by
    rintro ⟨t', h', hid, hflight'⟩
    rw [hpc] at hflight'
    by_cases ht : t' = t
    · subst ht
      simp at hflight'
    · simp only [Function.update_of_ne ht] at hflight'
      have hholding' : (s.registry.phase t').holding = some (handleId h) := by
        change (s.pc t').phase.holding = _
        rw [← hid]
        rcases hflight' with ⟨call, hpc'⟩ | hpc' <;> rw [hpc'] <;> rfl
      exact ht (hsound.registry.unique (handleId h) t' t hholding' hholding)
  have hkept := (hexact.contains (handleFd h)).mpr ⟨handleId h, rfl, hopen, hover⟩
  rw [hrecorded] at hkept
  obtain ⟨id, hid, -, hnot⟩ := ((exact_of_sound hsound).contains (handleFd h)).mp hkept
  obtain rfl : id = handleId h := toInt_injective hid
  exact hnot ⟨t, h, rfl, hflight⟩

/-- One step of a run that has been sound leaves the map exact if and only if it keeps
to the condition. -/
theorem HandleState.step_exact_iff {label : HandleStep Tid} (hsound : s.Sound)
    (hstep : s.step label = some s') : s'.Exact ↔ s.Keeps label := by
  constructor
  · intro hexact
    rcases label with ⟨t, move⟩
    refine ⟨?_, ?_, ?_⟩
    · intro h call hmove hpc
      change move = _ at hmove
      change s.pc t = _ at hpc
      subst hmove
      simp only [step, hpc] at hstep
      obtain rfl := Option.some.inj hstep
      by_contra hnegative
      have hsame := call.record_of_negative (Int.not_le.mp hnegative) s.monitor
      refine absurd hexact (not_exact_of_dropped hsound (Or.inl ⟨call, hpc⟩) ?_ rfl rfl)
      funext fd
      rw [recorded, recorded, hsame]
    · intro h hmove hpc
      change move = _ at hmove
      change s.pc t = _ at hpc
      subst hmove
      simp only [step, hpc] at hstep
      obtain rfl := Option.some.inj hstep
      exact absurd hexact (not_exact_of_dropped hsound (Or.inr hpc) rfl rfl rfl)
    · intro h call hmove hpc
      change move = _ at hmove
      change s.pc t = _ at hpc
      subst hmove
      simp only [step, hpc, Option.ite_none_right_eq_some] at hstep
      obtain rfl := Option.some.inj hstep.2
      exact absurd hexact (not_exact_of_dropped hsound (Or.inl ⟨call, hpc⟩) rfl rfl rfl)
  · intro hkeeps
    exact exact_of_sound (step_sound hsound hkeeps hstep)

end Invariant

/-- Any number of threads that create and close handles in any order within a session: the
map is exact in every state reached if and only if no handle that is recorded is negative
as an `int`, no file handle stays open when it is closed, and the pool has room for each
record. -/
theorem handleMap_exact_iff (labels : List (HandleStep Tid)) (final : HandleState Tid)
    (hrun : run HandleState.step (HandleState.initial Tid) labels = some final) :
    Throughout HandleState.step HandleState.Exact (HandleState.initial Tid) labels ↔
      Along HandleState.step HandleState.Keeps (HandleState.initial Tid) labels :=
  throughout_iff_along HandleState.Sound
    (fun _ _ _ hsound _ hkeeps hstep => HandleState.step_sound hsound hkeeps hstep)
    (fun _ _ _ hsound _ hstep => HandleState.step_exact_iff hsound hstep)
    HandleState.initial_sound (HandleState.exact_of_sound HandleState.initial_sound)
    along_true hrun

namespace HandleWitness

def notes : CString where
  bytes := literal "notes.txt"
  nulFree := by decide

def first (move : HandleMove) : HandleStep Bool :=
  ⟨false, move⟩

def second (move : HandleMove) : HandleStep Bool :=
  ⟨true, move⟩

/-- A handle goes from one thread to the other while an event is closed, and is then
protected from being closed. -/
def protectedHandle : List (HandleStep Bool) :=
  [first (.create (.createFileA notes)), first (.created 0x1a4), first .monitor,
    second (.closeOther 0x200), first (.closeHandle 0x1a4), first .monitor,
    first (.closed true), second (.create .createFileW), second (.created 0x1a4),
    second .monitor, first (.closeHandle 0x1a4), first .monitor, first (.closed false)]

theorem protectedHandle_runs :
    (run HandleState.step (HandleState.initial Bool) protectedHandle).isSome := by
  decide

theorem protectedHandle_exact_iff :
    Throughout HandleState.step HandleState.Exact (HandleState.initial Bool)
        protectedHandle ↔
      Along HandleState.step HandleState.Keeps (HandleState.initial Bool)
        protectedHandle :=
  handleMap_exact_iff protectedHandle _ (Option.some_get protectedHandle_runs).symm

end HandleWitness

end Domovoy
