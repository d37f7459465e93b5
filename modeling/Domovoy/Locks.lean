/-
The mutexes under the call stacks of the threads: the pool's, which every allocation
takes, those of the submaps of the allocation map, and that of the IO monitor, which
stays locked while its report is written.
-/
import Domovoy.IoToggle
import Domovoy.LockStacks

namespace Domovoy

open LockStacks

/-- `g_allocations` is made of `2^4` maps, each with a mutex of its own. -/
inductive MutexId where
  | pool
  | submap (index : Fin (2 ^ 4))
  | io
deriving DecidableEq, Repr

/-- The platform writes the report file through the hooked primitives, and there is a
reporter. -/
structure LockEnv where
  hooked : Bool
  reporter : Bool
deriving DecidableEq, Repr

inductive PoolMethod where
  | initializePool
  | allocate
  | shutdown
deriving DecidableEq, Repr

/-- `throwing` is the `throw` of `AllocateOSBlock`, which asks `malloc` for the memory of
the exception. -/
inductive PoolPc where
  | locking
  | holding
  | throwing
deriving DecidableEq, Repr

/-- The two calls of the allocation hooks that go to the map. -/
inductive RecordCall where
  | addAllocation
  | removeAllocation
deriving DecidableEq, Repr

inductive GuardPc where
  | testing
  | locking
  | holding
deriving DecidableEq, Repr

inductive ReportPc where
  | testing
  | locking
  | building
  | reporting
deriving DecidableEq, Repr

/-- An exception that leaves `dump` closes the file on its way: `unwinding`. -/
inductive WritePc where
  | naming
  | dumping (fd : Int)
  | closed
  | unwinding
deriving DecidableEq, Repr

inductive CrashPc where
  | tracing
  | building
  | chaining
deriving DecidableEq, Repr

/-- A call that has not returned, and where it stands; `thrown` is an exception on its
way through the call below it. -/
inductive LockFrame where
  | pool (call : PoolMethod) (pc : PoolPc)
  | record (call : RecordCall) (submap : Fin (2 ^ 4)) (locked : Bool)
  | opened (fd : Int) (call : IoCall) (pc : GuardPc)
  | closed (fd : Int) (pc : GuardPc)
  | disable (pc : GuardPc)
  | reportLeakedFds (pc : ReportPc)
  | writeToFile (pc : WritePc)
  | handleCrashSignal (pc : CrashPc)
  | thrown
deriving DecidableEq

/-- The mutex that the next step of the frame locks. -/
def LockFrame.wants : LockFrame → Option MutexId
  | .pool _ .locking => some .pool
  | .record _ submap false => some (.submap submap)
  | .opened _ _ .locking => some .io
  | .closed _ .locking => some .io
  | .disable .locking => some .io
  | .reportLeakedFds .locking => some .io
  | _ => none

/-- The mutex that the frame has locked: it never has two. -/
def LockFrame.guard : LockFrame → Option MutexId
  | .pool _ .holding => some .pool
  | .pool _ .throwing => some .pool
  | .record _ submap true => some (.submap submap)
  | .opened _ _ .holding => some .io
  | .closed _ .holding => some .io
  | .disable .holding => some .io
  | .reportLeakedFds .building => some .io
  | .reportLeakedFds .reporting => some .io
  | _ => none

def LockFrame.holds (frame : LockFrame) (lock : MutexId) : Bool :=
  frame.guard = some lock

/-- Where memory from the pool may be asked for: a larger submap, a new map node, a
document, a name. -/
def LockFrame.allocates : LockFrame → Bool
  | .record .addAllocation _ true => true
  | .opened _ _ .holding => true
  | .reportLeakedFds .building => true
  | .writeToFile .naming => true
  | .writeToFile (.dumping _) => true
  | .handleCrashSignal .building => true
  | _ => false

/-- Where a hooked allocation function may be called: for the memory of an exception, the
name and the buffer of a file, the frames of a stack trace. -/
def LockFrame.mallocs : LockFrame → Bool
  | .pool _ .throwing => true
  | .writeToFile _ => true
  | .handleCrashSignal _ => true
  | _ => false

/-- The functions that the frames are calls of. -/
inductive LockFunction where
  | pool
  | record
  | opened
  | closed
  | disable
  | reportLeakedFds
  | writeToFile
  | handleCrashSignal
  | thrown
deriving DecidableEq, Repr

def LockFrame.function : LockFrame → LockFunction
  | .pool _ _ => .pool
  | .record _ _ _ => .record
  | .opened _ _ _ => .opened
  | .closed _ _ => .closed
  | .disable _ => .disable
  | .reportLeakedFds _ => .reportLeakedFds
  | .writeToFile _ => .writeToFile
  | .handleCrashSignal _ => .handleCrashSignal
  | .thrown => .thrown

def LockFrame.isHandler (frame : LockFrame) : Bool :=
  frame.function = .handleCrashSignal

abbrev LockEffect := Effect MutexId LockFrame

/-- An exception passes through a call: its mutex is unlocked, and its file is closed.
What it does past a signal handler is undefined, and one that is thrown for the memory of
another ends the process. -/
def LockFrame.unwind (env : LockEnv) (below : List LockFrame) :
    LockFrame → Option LockEffect
  | .handleCrashSignal _ => none
  | .pool _ .throwing => none
  | .writeToFile (.dumping fd) =>
      some (.goto (if 0 ≤ fd ∧ env.hooked then
        .closed fd .testing :: .writeToFile .unwinding :: below else .thrown :: below))
  | frame =>
      match frame.guard with
      | some lock => some (.drop lock (.thrown :: below))
      | none => some (.goto (.thrown :: below))

/-- The next step of a call: the monitor after it, and the stack, of which `below` are
the callers. -/
def LockFrame.advance (env : LockEnv) (monitor : IoMonitor) (below : List LockFrame) :
    LockFrame → Option (IoMonitor × LockEffect)
  | .pool call .locking => some (monitor, .take .pool (.pool call .holding :: below))
  | .pool _ .holding => some (monitor, .drop .pool below)
  | .pool _ .throwing => some (monitor, .drop .pool (.thrown :: below))
  | .record call submap false =>
      some (monitor, .take (.submap submap) (.record call submap true :: below))
  | .record _ submap true => some (monitor, .drop (.submap submap) below)
  | .opened fd call .testing =>
      some (monitor, .goto (if monitor.enabled = false ∨ fd < 0 then below
        else .opened fd call .locking :: below))
  | .opened fd call .locking =>
      some (monitor, .take .io (.opened fd call .holding :: below))
  | .opened fd call .holding => some (monitor.insertFd fd call.info, .drop .io below)
  | .closed fd .testing =>
      some (monitor, .goto (if monitor.enabled = false ∨ fd < 0 then below
        else .closed fd .locking :: below))
  | .closed fd .locking => some (monitor, .take .io (.closed fd .holding :: below))
  | .closed fd .holding => some (monitor.eraseFd fd, .drop .io below)
  | .disable .testing =>
      some ({ monitor with enabled := false },
        .goto (if monitor.enabled then .disable .locking :: below else below))
  | .disable .locking => some (monitor, .take .io (.disable .holding :: below))
  | .disable .holding => some (monitor.swapFds, .drop .io below)
  | .reportLeakedFds .testing =>
      some (monitor, .goto (if monitor.enabled then .reportLeakedFds .locking :: below
        else below))
  | .reportLeakedFds .locking =>
      some (monitor, .take .io (.reportLeakedFds .building :: below))
  | .reportLeakedFds .building =>
      some (monitor, if monitor.leakedFds ≠ [] ∧ env.reporter then
        .goto (.writeToFile .naming :: .reportLeakedFds .reporting :: below)
        else .drop .io below)
  | .reportLeakedFds .reporting => some (monitor, .drop .io below)
  -- the file is opened by a label of its own
  | .writeToFile .naming => none
  | .writeToFile (.dumping fd) =>
      some (monitor, .goto (if 0 ≤ fd ∧ env.hooked then
        .closed fd .testing :: .writeToFile .closed :: below else below))
  | .writeToFile .closed => some (monitor, .goto below)
  | .writeToFile .unwinding => some (monitor, .goto (.thrown :: below))
  -- the document begins with a request to the pool
  | .handleCrashSignal .tracing =>
      some (monitor, .goto (.pool .allocate .locking :: .handleCrashSignal .building ::
        below))
  | .handleCrashSignal .building =>
      some (monitor, .goto (if env.reporter then
        .writeToFile .naming :: .handleCrashSignal .chaining :: below
        else .handleCrashSignal .chaining :: below))
  | .handleCrashSignal .chaining => some (monitor, .goto below)
  | .thrown =>
      match below with
      | [] => some (monitor, .goto [])
      | frame :: below => (frame.unwind env below).map fun effect => (monitor, effect)

/-- The calls that a thread makes with no other call open; `report` is any report but the
one on descriptors. -/
inductive EntryCall where
  | pool (call : PoolMethod)
  | record (call : RecordCall) (submap : Fin (2 ^ 4))
  | opened (fd : Int) (call : IoCall)
  | closed (fd : Int)
  | enable
  | disable
  | reportLeakedFds
  | report
deriving DecidableEq

def EntryCall.frames : EntryCall → List LockFrame
  | .pool call => [.pool call .locking]
  | .record call submap => [.record call submap false]
  | .opened fd call => [.opened fd call .testing]
  | .closed fd => [.closed fd .testing]
  | .enable => []
  | .disable => [.disable .testing]
  | .reportLeakedFds => [.reportLeakedFds .testing]
  | .report => [.writeToFile .naming]

/-- `signal` delivers a crash signal, `record` is a hooked allocation function called by
what is running. -/
inductive LockMove where
  | call (entry : EntryCall)
  | advance
  | allocate
  | record (call : RecordCall) (submap : Fin (2 ^ 4))
  | openFile (fd : Int) (path : Option CString)
  | throw
  | signal
deriving DecidableEq

/-- A refused mapping in the pool, or an exception of `dump` or of a string. -/
def LockFrame.throws (below : List LockFrame) : LockFrame → Option LockEffect
  | .pool .initializePool .holding => some (.goto (.pool .initializePool .throwing :: below))
  | .pool .allocate .holding => some (.goto (.pool .allocate .throwing :: below))
  | .writeToFile .naming => some (.goto (.thrown :: .writeToFile .naming :: below))
  | .writeToFile (.dumping fd) =>
      some (.goto (.thrown :: .writeToFile (.dumping fd) :: below))
  | _ => none

/-- What a move of a thread does, given its stack. -/
def LockMove.effect (env : LockEnv) (monitor : IoMonitor) :
    LockMove → List LockFrame → Option (IoMonitor × LockEffect)
  | .call entry, [] =>
      some (if entry = .enable then monitor.enable else monitor, .goto entry.frames)
  | .advance, frame :: below => frame.advance env monitor below
  | .allocate, frame :: below =>
      if frame.allocates then
        some (monitor, .goto (.pool .allocate .locking :: frame :: below))
      else none
  | .record hook submap, frame :: below =>
      if frame.mallocs then
        some (monitor, .goto (.record hook submap false :: frame :: below))
      else none
  | .openFile fd path, .writeToFile .naming :: below =>
      some (monitor, .goto (if env.hooked then
        .opened fd (.open path) .testing :: .writeToFile (.dumping fd) :: below
        else .writeToFile (.dumping fd) :: below))
  | .throw, frame :: below => (frame.throws below).map fun effect => (monitor, effect)
  | .signal, frames => some (monitor, .goto (.handleCrashSignal .tracing :: frames))
  | _, _ => none

structure LockStep (Tid : Type) where
  thread : Tid
  move : LockMove

structure LockState (Tid : Type) where
  monitor : IoMonitor
  threads : Threads Tid MutexId LockFrame

/-- Nobody is in a call; the monitor is in any state. -/
def LockState.initial (Tid : Type) (monitor : IoMonitor) : LockState Tid where
  monitor := monitor
  threads := Threads.initial

variable {Tid : Type} [DecidableEq Tid]

def LockState.step (env : LockEnv) (s : LockState Tid) (label : LockStep Tid) :
    Option (LockState Tid) := do
  let (monitor, effect) ← label.move.effect env s.monitor (s.threads.stack label.thread)
  let threads ← s.threads.apply label.thread effect
  return { monitor := monitor, threads := threads }

theorem LockState.step_eq_some {env : LockEnv} {s next : LockState Tid}
    {label : LockStep Tid} (hstep : s.step env label = some next) :
    ∃ effect, label.move.effect env s.monitor (s.threads.stack label.thread) =
        some (next.monitor, effect) ∧
      s.threads.apply label.thread effect = some next.threads := by
  simp only [step, Option.bind_eq_bind, Option.bind_eq_some_iff, Prod.exists] at hstep
  obtain ⟨monitor, effect, heffect, threads, happly, hnext⟩ := hstep
  obtain rfl := Option.some.inj hnext
  exact ⟨effect, heffect, happly⟩

end Domovoy
