/-
The two reports that carry a backtrace: that of a crash and that of a thread that
spins.
-/
import Domovoy.CrashHandler
import Domovoy.Json

namespace Domovoy

open WordAlign

/-- One resolved frame of a trace. -/
structure StackFrame where
  symbol : Bytes
  filename : Bytes
  line : Option Nat
deriving DecidableEq, Repr

/-- What `c_str()` shows of a string. -/
def cStr (bytes : Bytes) : Bytes :=
  bytes.takeWhile (· ≠ 0)

def orUnknown (bytes : Bytes) : Bytes :=
  if bytes = [] then literal "<unknown>" else cStr bytes

def StackFrame.json (frame : StackFrame) : Json :=
  .object [("filename", .string (orUnknown frame.filename)),
    ("line", .number (frame.line.getD 0)), ("symbol", .string (orUnknown frame.symbol))]

def backtraceJson (trace : List StackFrame) : Json :=
  .array (trace.map StackFrame.json)

/-- The numbers of the signals on Linux. -/
def CrashSignal.number : CrashSignal → Int
  | .sigsegv => 11
  | .sigabrt => 6
  | .sigill => 4
  | .sigfpe => 8
  | .sigbus => 7

def crashJson (sig : CrashSignal) (trace : List StackFrame) : Json :=
  .object [("backtrace", backtraceJson trace), ("signal", .number sig.number),
    ("type", .string (literal "crash"))]

def highCpuJson (threadId : Word) (trace : List StackFrame) : Json :=
  .object [("backtrace", backtraceJson trace), ("thread_id", .number threadId.toNat),
    ("type", .string (literal "high_cpu_thread"))]

end Domovoy
