/-
The configuration record of the framework and the C++ values that every
component shares: the null pointer and the exceptions that can be thrown.
-/
import Domovoy.WordAlign

namespace Domovoy

open WordAlign

/-- The null pointer. -/
def nullptr : Word := 0

/-- The exceptions that leave a library call: `std::bad_alloc` from the isolated
pool and `type_error` from the JSON serialiser. -/
inductive Thrown where
  | badAlloc
  | typeError
deriving DecidableEq, Repr

structure DomovoyConfig where
  allocatorCapacityBytes : Word := 2 * 1024 * 1024
  enableLeakDetection : Bool := false
  enableHeapCorruptionDetection : Bool := false
  enableCpuProfiler : Bool := false
  enableIoMonitoring : Bool := false
  enableCrashHandler : Bool := false
  enableLeakReportSummary : Bool := true
  enableLeakReportDetails : Bool := true
  outputDir : String := "."
deriving DecidableEq, Repr

end Domovoy
