/-
The opening hooks against the C library behind them: which mode reaches the real
function, and for which calls the host sees what it would see without the hooks.
-/
import Mathlib.Data.Set.Finite.Lattice
import Domovoy.IoMonitor

namespace Domovoy

/-- `mode_t`. -/
abbrev Mode := BitVec 32

/-- The flag word of the `open` family. -/
abbrev OFlag := BitVec 32

/-- `O_CREAT`. -/
def oCreat : OFlag := 0o100

/-- `O_TMPFILE`, which holds the bit of `O_DIRECTORY` besides its own. -/
def oTmpfile : OFlag := 0o20200000

def OFlag.Creates (oflag : OFlag) : Prop :=
  oflag &&& oCreat ≠ 0

def OFlag.MakesTmpfile (oflag : OFlag) : Prop :=
  oflag &&& oTmpfile = oTmpfile

instance (oflag : OFlag) : Decidable oflag.Creates :=
  inferInstanceAs (Decidable (_ ≠ _))

instance (oflag : OFlag) : Decidable oflag.MakesTmpfile :=
  inferInstanceAs (Decidable (_ = _))

/-- `open_func_t`: from a path, the flags, a mode and the state of the kernel to a
descriptor, or a negative number, and the next state. -/
abbrev OpenFunc (Fs : Type) := Option CString → OFlag → Mode → Fs → Int × Fs

/-- `openat_func_t`. -/
abbrev OpenatFunc (Fs : Type) := Int → OpenFunc Fs

/-- `close_func_t`. -/
abbrev CloseFunc (Fs : Type) := Int → Fs → Int × Fs

/-- `socket_func_t`. -/
abbrev SocketFunc (Fs : Type) := Int → Int → Int → Fs → Int × Fs

/-- The functions of the C library. -/
structure LibcIo (Fs : Type) where
  openFn : OpenFunc Fs
  open64Fn : OpenFunc Fs
  openatFn : OpenatFunc Fs
  openat64Fn : OpenatFunc Fs
  closeFn : CloseFunc Fs
  socketFn : SocketFunc Fs

/-- The static pointers of the hooks.  Those that a hook tests can be null. -/
structure RealIo (Fs : Type) where
  realOpen : OpenFunc Fs
  realOpen64 : Option (OpenFunc Fs)
  realOpenat : OpenatFunc Fs
  realOpenat64 : Option (OpenatFunc Fs)
  realClose : Option (CloseFunc Fs)
  realSocket : SocketFunc Fs

variable {Fs : Type}

/-- Every `dlsym` finds its function. -/
def initIoHooks (libc : LibcIo Fs) : RealIo Fs where
  realOpen := libc.openFn
  realOpen64 := some libc.open64Fn
  realOpenat := libc.openatFn
  realOpenat64 := some libc.openat64Fn
  realClose := some libc.closeFn
  realSocket := libc.socketFn

/-- `open_fds_[fd] = info`.  A new key needs memory from the pool. -/
def IoMonitor.assign (room : Bool) (fd : Int) (info : FdInfo) (monitor : IoMonitor) :
    Except Thrown Unit × IoMonitor :=
  if room ∨ fd ∈ monitor.openFds then
    (.ok (), { monitor with openFds := monitor.openFds.insert fd info })
  else (.error .badAlloc, monitor)

/-- What `OnOpen` and `OnSocket` share. -/
def IoMonitor.tryRecord (room : Bool) (fd : Int) (info : FdInfo) (monitor : IoMonitor) :
    Except Thrown Unit × IoMonitor :=
  if monitor.enabled = false ∨ fd < 0 then (.ok (), monitor)
  else monitor.assign room fd info

/-- `OnOpen` with a pool that may have no memory left. -/
def IoMonitor.tryOnOpen (room : Bool) (fd : Int) (path : Option CString) :
    IoMonitor → Except Thrown Unit × IoMonitor :=
  tryRecord room fd (FdInfo.ofPath path)

/-- `OnSocket` with a pool that may have no memory left. -/
def IoMonitor.tryOnSocket (room : Bool) (fd : Int) :
    IoMonitor → Except Thrown Unit × IoMonitor :=
  tryRecord room fd FdInfo.ofSocket

theorem IoMonitor.tryOnOpen_room (fd : Int) (path : Option CString)
    (monitor : IoMonitor) :
    tryOnOpen true fd path monitor = (.ok (), monitor.onOpen fd path) := by
  rw [tryOnOpen, tryRecord, onOpen, assign]
  split <;> simp

theorem IoMonitor.tryOnSocket_room (fd : Int) (monitor : IoMonitor) :
    tryOnSocket true fd monitor = (.ok (), monitor.onSocket fd) := by
  rw [tryOnSocket, tryRecord, onSocket, assign]
  split <;> simp

/-- The monitor and what lies behind the hooks. -/
structure IoWorld (Fs : Type) where
  monitor : IoMonitor
  fs : Fs

/-- The end of a hook: a descriptor that is not negative is handed to the monitor, then
it is returned. -/
def IoWorld.finish (fd : Int) (record : IoMonitor → Except Thrown Unit × IoMonitor)
    (world : IoWorld Fs) : Except Thrown Int × IoWorld Fs :=
  if 0 ≤ fd then
    let (result, monitor) := record world.monitor
    (result.map fun _ => fd, { world with monitor := monitor })
  else (.ok fd, world)

/-- The body that the four opening hooks share.  The mode is read from the argument
list only under `O_CREAT`. -/
def openHook (realFn : OpenFunc Fs) (room : Bool) (path : Option CString)
    (oflag : OFlag) (mode : Mode) (world : IoWorld Fs) : Except Thrown Int × IoWorld Fs :=
  let mode := if oflag.Creates then mode else 0
  let (fd, fs) := realFn path oflag mode world.fs
  { world with fs := fs }.finish fd (IoMonitor.tryOnOpen room fd path)

def hookedOpen (real : RealIo Fs) := openHook real.realOpen

def hookedOpen64 (real : RealIo Fs) :=
  openHook (real.realOpen64.getD real.realOpen)

def hookedOpenat (real : RealIo Fs) (dirfd : Int) := openHook (real.realOpenat dirfd)

def hookedOpenat64 (real : RealIo Fs) (dirfd : Int) :=
  openHook ((real.realOpenat64.getD real.realOpenat) dirfd)

/-- The record is dropped first. -/
def hookedClose (real : RealIo Fs) (fd : Int) (world : IoWorld Fs) : Int × IoWorld Fs :=
  let monitor := world.monitor.onClose fd
  match real.realClose with
  | some closeFn =>
      let (result, fs) := closeFn fd world.fs
      (result, ⟨monitor, fs⟩)
  | none => (-1, ⟨monitor, world.fs⟩)

def hookedSocket (real : RealIo Fs) (room : Bool) (domain type protocol : Int)
    (world : IoWorld Fs) : Except Thrown Int × IoWorld Fs :=
  let (fd, fs) := real.realSocket domain type protocol world.fs
  { world with fs := fs }.finish fd (IoMonitor.tryOnSocket room fd)

inductive OpenFunction where
  | open
  | open64
  | openat (dirfd : Int)
  | openat64 (dirfd : Int)
deriving DecidableEq

/-- A call of the host.  One that passes no mode has some word in its place. -/
structure OpenCall where
  function : OpenFunction
  path : Option CString
  oflag : OFlag
  mode : Mode
deriving DecidableEq

/-- The function that a call names. -/
def LibcIo.function (libc : LibcIo Fs) : OpenFunction → OpenFunc Fs
  | .open => libc.openFn
  | .open64 => libc.open64Fn
  | .openat dirfd => libc.openatFn dirfd
  | .openat64 dirfd => libc.openat64Fn dirfd

def OpenCall.hooked (real : RealIo Fs) (room : Bool) (call : OpenCall) :
    IoWorld Fs → Except Thrown Int × IoWorld Fs :=
  match call.function with
  | .open => hookedOpen real room call.path call.oflag call.mode
  | .open64 => hookedOpen64 real room call.path call.oflag call.mode
  | .openat dirfd => hookedOpenat real dirfd room call.path call.oflag call.mode
  | .openat64 dirfd => hookedOpenat64 real dirfd room call.path call.oflag call.mode

/-- The same call in a process without the library. -/
def OpenCall.unhooked (libc : LibcIo Fs) (call : OpenCall) (fs : Fs) : Int × Fs :=
  libc.function call.function call.path call.oflag call.mode fs

/-- Once the pointers are resolved every hook is the shared body around the function
that the host named. -/
theorem OpenCall.hooked_resolved (libc : LibcIo Fs) (room : Bool) (call : OpenCall) :
    call.hooked (initIoHooks libc) room =
      openHook (libc.function call.function) room call.path call.oflag call.mode := by
  rw [hooked]
  cases call.function <;> rfl

/-- A call and whether the pool could supply a record for it. -/
structure OpenEvent where
  call : OpenCall
  room : Bool
deriving DecidableEq

/-- What the calls return one after the other, and the last state. -/
def hookedCalls (real : RealIo Fs) :
    List OpenEvent → IoWorld Fs → List (Except Thrown Int) × IoWorld Fs
  | [], world => ([], world)
  | event :: events, world =>
      let (result, world) := event.call.hooked real event.room world
      let (results, world) := hookedCalls real events world
      (result :: results, world)

def unhookedCalls (libc : LibcIo Fs) : List OpenEvent → Fs → List Int × Fs
  | [], fs => ([], fs)
  | event :: events, fs =>
      let (fd, fs) := event.call.unhooked libc fs
      let (fds, fs) := unhookedCalls libc events fs
      (fd :: fds, fs)

/-- The mode is ignored unless `O_CREAT` or `O_TMPFILE` is given. -/
def OpenFunc.IgnoresMode (fn : OpenFunc Fs) : Prop :=
  ∀ path (oflag : OFlag) mode mode' fs, ¬ oflag.Creates → ¬ oflag.MakesTmpfile →
    fn path oflag mode fs = fn path oflag mode' fs

def LibcIo.IgnoresMode (libc : LibcIo Fs) : Prop :=
  ∀ function, (libc.function function).IgnoresMode

/-- Over any C library and kernel and from any of its states, the host sees the same
descriptors, and the kernel the same effects, as without the hooks. -/
def HooksTransparent (monitor : IoMonitor) (events : List OpenEvent) : Prop :=
  ∀ (Fs : Type) (libc : LibcIo Fs), libc.IgnoresMode → ∀ fs : Fs,
    let hooked := hookedCalls (initIoHooks libc) events ⟨monitor, fs⟩
    let unhooked := unhookedCalls libc events fs
    hooked.1 = unhooked.1.map .ok ∧ hooked.2.fs = unhooked.2

/-- The mode that the host gives reaches the kernel where it matters: the call is no
`O_TMPFILE` without `O_CREAT`, or its mode is zero. -/
def OpenCall.ModeKept (call : OpenCall) : Prop :=
  call.oflag.MakesTmpfile → call.oflag.Creates ∨ call.mode = 0

/-- The call keeps its mode, and its record can be stored if one is to be made. -/
def OpenEvent.Unseen (monitor : IoMonitor) (event : OpenEvent) : Prop :=
  event.call.ModeKept ∧ (monitor.enabled = true → event.room = true)

theorem IoWorld.finish_fs (fd : Int) (record : IoMonitor → Except Thrown Unit × IoMonitor)
    (world : IoWorld Fs) : (world.finish fd record).2.fs = world.fs := by
  rw [finish]
  split <;> rfl

theorem IoWorld.finish_enabled {fd : Int}
    {record : IoMonitor → Except Thrown Unit × IoMonitor} {world : IoWorld Fs}
    (hrecord : (record world.monitor).2.enabled = world.monitor.enabled) :
    (world.finish fd record).2.monitor.enabled = world.monitor.enabled := by
  rw [finish]
  split
  · exact hrecord
  · rfl

theorem IoWorld.finish_returns {fd : Int}
    {record : IoMonitor → Except Thrown Unit × IoMonitor} {world : IoWorld Fs}
    (hrecord : (record world.monitor).1 = .ok ()) :
    (world.finish fd record).1 = .ok fd := by
  rw [finish]
  split
  · simp only [hrecord, Except.map]
  · rfl

section Records

variable (room : Bool) (fd : Int) (info : FdInfo) (monitor : IoMonitor)

/-- The record needs a map entry that is not there yet. -/
def IoMonitor.needsEntry : Bool :=
  monitor.enabled && decide (0 ≤ fd) && decide (fd ∉ monitor.openFds)

theorem IoMonitor.tryRecord_fst :
    (monitor.tryRecord room fd info).1 =
      if room = false ∧ monitor.needsEntry fd = true then .error .badAlloc
      else .ok () := by
  rw [tryRecord, assign, needsEntry]
  cases henabled : monitor.enabled with
  | false => simp
  | true =>
      by_cases hnegative : fd < 0
      · simp [hnegative, Int.not_le.mpr hnegative]
      · by_cases hmem : fd ∈ monitor.openFds <;> cases room <;>
          simp [hnegative, Int.not_lt.mp hnegative, hmem]

theorem IoMonitor.tryRecord_enabled :
    (monitor.tryRecord room fd info).2.enabled = monitor.enabled := by
  rw [tryRecord, assign]
  split
  · rfl
  · split <;> rfl

/-- The records of other descriptors are as before. -/
theorem IoMonitor.tryRecord_lookup {fd' : Int} (hne : fd' ≠ fd) :
    (monitor.tryRecord room fd info).2.openFds.lookup fd' = monitor.openFds.lookup fd' := by
  rw [tryRecord, assign]
  split
  · rfl
  · split
    · exact AList.lookup_insert_ne hne
    · rfl

end Records

section OneCall

variable (realFn : OpenFunc Fs) (room : Bool) (path : Option CString) (oflag : OFlag)
  (mode : Mode) (world : IoWorld Fs)

/-- What the hook is answered by the real function. -/
def openAnswer : Int × Fs :=
  realFn path oflag (if oflag.Creates then mode else 0) world.fs

theorem openHook_eq :
    openHook realFn room path oflag mode world =
      { world with fs := (openAnswer realFn path oflag mode world).2 }.finish
        (openAnswer realFn path oflag mode world).1
        (IoMonitor.tryOnOpen room (openAnswer realFn path oflag mode world).1 path) :=
  rfl

theorem openHook_fs :
    (openHook realFn room path oflag mode world).2.fs =
      (openAnswer realFn path oflag mode world).2 := by
  rw [openHook_eq, IoWorld.finish_fs]

theorem openHook_enabled :
    (openHook realFn room path oflag mode world).2.monitor.enabled =
      world.monitor.enabled := by
  rw [openHook_eq]
  exact IoWorld.finish_enabled (IoMonitor.tryRecord_enabled room _ _ _)

/-- With monitoring off, or with room for a record, the hook returns what the real
function returned. -/
theorem openHook_returns (hroom : world.monitor.enabled = true → room = true) :
    (openHook realFn room path oflag mode world).1 =
      .ok (openAnswer realFn path oflag mode world).1 := by
  rw [openHook_eq]
  apply IoWorld.finish_returns
  rw [IoMonitor.tryOnOpen, IoMonitor.tryRecord_fst, if_neg]
  rintro ⟨hnone, hneeds⟩
  simp only [IoMonitor.needsEntry, Bool.and_eq_true] at hneeds
  rw [hroom hneeds.1.1] at hnone
  contradiction

variable {realFn room path oflag mode world}

/-- A record that is new and finds no room is an exception instead of a descriptor. -/
theorem openHook_throws (henabled : world.monitor.enabled = true)
    (hnonneg : 0 ≤ (openAnswer realFn path oflag mode world).1)
    (hfresh : (openAnswer realFn path oflag mode world).1 ∉ world.monitor.openFds) :
    (openHook realFn false path oflag mode world).1 = .error .badAlloc := by
  have hneeds : world.monitor.needsEntry (openAnswer realFn path oflag mode world).1 =
      true := by
    simp [IoMonitor.needsEntry, henabled, hnonneg, hfresh]
  rw [openHook_eq, IoWorld.finish, if_pos hnonneg]
  simp only [IoMonitor.tryOnOpen, IoMonitor.tryRecord_fst, hneeds, and_self, if_true,
    Except.map]

theorem mem_openHook {fd : Int}
    (hmem : fd ∈ (openHook realFn room path oflag mode world).2.monitor.openFds) :
    fd = (openAnswer realFn path oflag mode world).1 ∨ fd ∈ world.monitor.openFds := by
  rw [openHook_eq, IoWorld.finish] at hmem
  split at hmem
  · by_cases hsame : fd = (openAnswer realFn path oflag mode world).1
    · exact Or.inl hsame
    · have hlookup := IoMonitor.tryRecord_lookup room _ (FdInfo.ofPath path) world.monitor
        hsame
      rw [← AList.lookup_isSome] at hmem ⊢
      exact Or.inr (hlookup ▸ hmem)
  · exact Or.inr hmem

end OneCall

/-- A mode that is kept makes no difference to the real function. -/
theorem openAnswer_of_modeKept {libc : LibcIo Fs} (hlibc : libc.IgnoresMode)
    {call : OpenCall} (hkept : call.ModeKept) (world : IoWorld Fs) :
    openAnswer (libc.function call.function) call.path call.oflag call.mode world =
      call.unhooked libc world.fs := by
  rw [openAnswer, OpenCall.unhooked]
  by_cases hcreates : call.oflag.Creates
  · rw [if_pos hcreates]
  · rw [if_neg hcreates]
    by_cases htmpfile : call.oflag.MakesTmpfile
    · rw [(hkept htmpfile).resolve_left hcreates]
    · exact hlibc _ _ _ _ _ _ hcreates htmpfile

/-- The results of calls that go unseen, and the state that they leave. -/
theorem hookedCalls_unseen {libc : LibcIo Fs} (hlibc : libc.IgnoresMode)
    {events : List OpenEvent} {world : IoWorld Fs}
    (hunseen : ∀ event ∈ events, event.Unseen world.monitor) :
    (hookedCalls (initIoHooks libc) events world).1 =
        (unhookedCalls libc events world.fs).1.map .ok ∧
      (hookedCalls (initIoHooks libc) events world).2.fs =
        (unhookedCalls libc events world.fs).2 := by
  induction events generalizing world with
  | nil => exact ⟨rfl, rfl⟩
  | cons event events ih =>
      obtain ⟨hevent, hrest⟩ := List.forall_mem_cons.mp hunseen
      obtain ⟨hkept, hroom⟩ := hevent
      let after := (event.call.hooked (initIoHooks libc) event.room world).2
      have hresult : (event.call.hooked (initIoHooks libc) event.room world).1 =
          .ok (event.call.unhooked libc world.fs).1 := by
        rw [OpenCall.hooked_resolved, openHook_returns _ _ _ _ _ _ hroom,
          openAnswer_of_modeKept hlibc hkept]
      have hfs : after.fs = (event.call.unhooked libc world.fs).2 := by
        simp only [after]
        rw [OpenCall.hooked_resolved, openHook_fs, openAnswer_of_modeKept hlibc hkept]
      have henabled : after.monitor.enabled = world.monitor.enabled := by
        simp only [after]
        rw [OpenCall.hooked_resolved, openHook_enabled]
      have hrest' : ∀ other ∈ events, other.Unseen after.monitor := by
        intro other hother
        refine ⟨(hrest other hother).1, fun hafter => ?_⟩
        exact (hrest other hother).2 (henabled ▸ hafter)
      obtain ⟨hresults, hlast⟩ := ih hrest'
      simp only [hookedCalls, unhookedCalls, List.map_cons]
      rw [hresult, ← hfs]
      exact ⟨congrArg _ hresults, hlast⟩

/-- The calls that a kernel has seen, each with its mode where it consulted one. -/
structure KernelTrace where
  nextFd : Int
  calls : List OpenCall

def OpenCall.seen (call : OpenCall) : OpenCall :=
  if call.oflag.Creates ∨ call.oflag.MakesTmpfile then call else { call with mode := 0 }

/-- A kernel that hands out descriptors in ascending order and notes every call. -/
def traceOpen (function : OpenFunction) : OpenFunc KernelTrace :=
  fun path oflag mode trace =>
    (trace.nextFd,
      { nextFd := trace.nextFd + 1
        calls := trace.calls ++ [OpenCall.seen ⟨function, path, oflag, mode⟩] })

def traceLibc : LibcIo KernelTrace where
  openFn := traceOpen .open
  open64Fn := traceOpen .open64
  openatFn dirfd := traceOpen (.openat dirfd)
  openat64Fn dirfd := traceOpen (.openat64 dirfd)
  closeFn _ trace := (0, trace)
  socketFn _ _ _ trace := (-1, trace)

theorem traceLibc_function (function : OpenFunction) :
    traceLibc.function function = traceOpen function := by
  cases function <;> rfl

theorem traceLibc_ignoresMode : traceLibc.IgnoresMode := by
  intro function path oflag mode mode' trace hcreates htmpfile
  rw [traceLibc_function]
  simp [traceOpen, OpenCall.seen, hcreates, htmpfile]

/-- The call as the hook passes it on. -/
def OpenCall.passedOn (call : OpenCall) : OpenCall :=
  { call with mode := if call.oflag.Creates then call.mode else 0 }

theorem OpenCall.seen_passedOn_iff (call : OpenCall) :
    call.passedOn.seen = call.seen ↔ call.ModeKept := by
  obtain ⟨function, path, oflag, mode⟩ := call
  by_cases hcreates : oflag.Creates
  · simp [passedOn, ModeKept, hcreates]
  · by_cases htmpfile : oflag.MakesTmpfile
    · simp only [passedOn, seen, ModeKept, hcreates, htmpfile, false_or, if_true, if_false,
        true_implies, OpenCall.mk.injEq, true_and]
      exact eq_comm
    · simp [passedOn, seen, ModeKept, hcreates, htmpfile]

theorem hookedCalls_trace (events : List OpenEvent) (world : IoWorld KernelTrace) :
    (hookedCalls (initIoHooks traceLibc) events world).2.fs.calls =
      world.fs.calls ++ events.map fun event => event.call.passedOn.seen := by
  induction events generalizing world with
  | nil => simp [hookedCalls]
  | cons event events ih =>
      simp only [hookedCalls, List.map_cons]
      rw [ih, OpenCall.hooked_resolved, openHook_fs, traceLibc_function]
      simp [openAnswer, traceOpen, OpenCall.passedOn]

theorem unhookedCalls_trace (events : List OpenEvent) (trace : KernelTrace) :
    (unhookedCalls traceLibc events trace).2.calls =
      trace.calls ++ events.map fun event => event.call.seen := by
  induction events generalizing trace with
  | nil => simp [unhookedCalls]
  | cons event events ih =>
      simp only [unhookedCalls, List.map_cons]
      rw [ih, OpenCall.unhooked, traceLibc_function]
      simp [traceOpen]

/-- Where the next descriptor is new to the map, calls that all return have all found
room. -/
theorem hookedCalls_room {events : List OpenEvent} {world : IoWorld KernelTrace}
    (henabled : world.monitor.enabled = true) (hnonneg : 0 ≤ world.fs.nextFd)
    (hbelow : ∀ fd ∈ world.monitor.openFds, fd < world.fs.nextFd)
    (hok : ∀ result ∈ (hookedCalls (initIoHooks traceLibc) events world).1,
      result ≠ .error .badAlloc) :
    ∀ event ∈ events, event.room = true := by
  induction events generalizing world with
  | nil => simp
  | cons event events ih =>
      have hfresh : world.fs.nextFd ∉ world.monitor.openFds := by
        intro hmem
        exact absurd (hbelow _ hmem) (Int.lt_irrefl _)
      simp only [hookedCalls, List.forall_mem_cons] at hok
      obtain ⟨hfirst, hrest⟩ := hok
      rw [OpenCall.hooked_resolved, traceLibc_function] at hfirst hrest
      have hroom : event.room = true := by
        by_contra hnone
        rw [Bool.eq_false_of_not_eq_true hnone] at hfirst
        exact hfirst (openHook_throws henabled hnonneg hfresh)
      have hnext : (openHook (traceOpen event.call.function) event.room event.call.path
          event.call.oflag event.call.mode world).2.fs.nextFd = world.fs.nextFd + 1 := by
        rw [openHook_fs]
        rfl
      refine List.forall_mem_cons.mpr ⟨hroom, ih ?_ ?_ ?_ hrest⟩
      · rw [openHook_enabled]
        exact henabled
      · rw [hnext]
        omega
      · intro fd hfd
        rw [hnext]
        rcases mem_openHook hfd with rfl | hold
        · exact Int.lt_succ _
        · have hlt := hbelow fd hold
          omega

theorem FdMap.exists_bound (openFds : FdMap) :
    ∃ bound, 0 ≤ bound ∧ ∀ fd ∈ openFds, fd < bound := by
  obtain ⟨highest, hhighest⟩ := (List.finite_toSet openFds.keys).bddAbove
  refine ⟨max 0 (highest + 1), le_max_left _ _, fun fd hfd => ?_⟩
  have hle : fd ≤ highest := hhighest (AList.mem_keys.mp hfd)
  exact lt_max_of_lt_right (Int.lt_add_one_of_le hle)

/-- For any sequence of calls with any paths, flags and modes: over every C library and
kernel the host sees what it would see without the hooks if and only if every call
keeps its mode and, while monitoring is on, finds room for its record. -/
theorem hooks_transparent_iff (monitor : IoMonitor) (events : List OpenEvent) :
    HooksTransparent monitor events ↔ ∀ event ∈ events, event.Unseen monitor := by
  constructor
  · intro htransparent
    obtain ⟨bound, hnonneg, hbelow⟩ := FdMap.exists_bound monitor.openFds
    let start : IoWorld KernelTrace := ⟨monitor, { nextFd := bound, calls := [] }⟩
    obtain ⟨hresults, hfs⟩ :=
      htransparent KernelTrace traceLibc traceLibc_ignoresMode start.fs
    have hmodes := congrArg KernelTrace.calls hfs
    rw [hookedCalls_trace events start, unhookedCalls_trace, List.append_cancel_left_eq,
      List.map_inj_left] at hmodes
    intro event hevent
    refine ⟨event.call.seen_passedOn_iff.mp (hmodes event hevent), fun henabled => ?_⟩
    have hok : ∀ result ∈ (hookedCalls (initIoHooks traceLibc) events start).1,
        result ≠ .error .badAlloc := by
      intro result hresult
      rw [hresults] at hresult
      obtain ⟨fd, -, rfl⟩ := List.mem_map.mp hresult
      simp
    exact hookedCalls_room henabled hnonneg hbelow hok event hevent
  · intro hunseen Fs libc hlibc fs
    exact hookedCalls_unseen hlibc hunseen

namespace IoHooksWitness

/-- `open("/tmp", O_TMPFILE | O_RDWR, 0600)` with monitoring off. -/
def tmpfile : OpenEvent where
  call :=
    { function := .open
      path := some { bytes := literal "/tmp", nulFree := by decide }
      oflag := oTmpfile ||| 0o2
      mode := 0o600 }
  room := true

/-- The kernel is given mode 0. -/
theorem tmpfile_not_transparent : ¬ HooksTransparent IoMonitor.initial [tmpfile] := by
  intro htransparent
  have hfs := (htransparent KernelTrace traceLibc traceLibc_ignoresMode
    { nextFd := 3, calls := [] }).2
  have hmodes : [(0 : Mode)] = [0o600] :=
    congrArg (fun trace => trace.calls.map OpenCall.mode) hfs
  exact absurd hmodes (by decide)

end IoHooksWitness

end Domovoy
