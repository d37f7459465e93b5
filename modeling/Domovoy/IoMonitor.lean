/-
The IO monitor: the map of descriptors opened through the hooks and the report on
those that were never closed.
-/
import Mathlib.Data.List.AList
import Domovoy.Json

namespace Domovoy

/-- A NUL-terminated string. -/
structure CString where
  bytes : Bytes
  nulFree : 0 ∉ bytes
deriving DecidableEq

/-- `sizeof(FdInfo::path)`. -/
def pathCapacity : Nat := 1024

/-- What is kept of one descriptor; the path fits its buffer with the NUL. -/
structure FdInfo where
  path : CString
  isSocket : Bool
  fits : path.bytes.length < pathCapacity
deriving DecidableEq

/-- `snprintf(path, sizeof(path), "%s", text)`. -/
def snprintf (text : CString) : CString where
  bytes := text.bytes.take (pathCapacity - 1)
  nulFree := fun hmem => text.nulFree (List.mem_of_mem_take hmem)

theorem snprintf_fits (text : CString) : (snprintf text).bytes.length < pathCapacity := by
  have hle : (snprintf text).bytes.length ≤ pathCapacity - 1 := List.length_take_le ..
  exact Nat.lt_of_le_pred (by decide) hle

def emptyPath : CString where
  bytes := []
  nulFree := by decide

def socketPath : CString where
  bytes := literal "socket"
  nulFree := by decide

def FdInfo.ofPath : Option CString → FdInfo
  | some path => { path := snprintf path, isSocket := false, fits := snprintf_fits path }
  | none => { path := emptyPath, isSocket := false, fits := by decide }

def FdInfo.ofSocket : FdInfo where
  path := snprintf socketPath
  isSocket := true
  fits := snprintf_fits socketPath

abbrev FdMap := AList fun _ : Int => FdInfo

structure IoMonitor where
  enabled : Bool
  openFds : FdMap

def IoMonitor.initial : IoMonitor where
  enabled := false
  openFds := ∅

def IoMonitor.enable (monitor : IoMonitor) : IoMonitor :=
  if monitor.enabled then monitor else { monitor with enabled := true }

def IoMonitor.disable (monitor : IoMonitor) : IoMonitor :=
  if monitor.enabled then { enabled := false, openFds := ∅ } else monitor

def IoMonitor.onOpen (fd : Int) (path : Option CString) (monitor : IoMonitor) :
    IoMonitor :=
  if monitor.enabled = false ∨ fd < 0 then monitor
  else { monitor with openFds := monitor.openFds.insert fd (FdInfo.ofPath path) }

def IoMonitor.onClose (fd : Int) (monitor : IoMonitor) : IoMonitor :=
  if monitor.enabled = false ∨ fd < 0 then monitor
  else { monitor with openFds := monitor.openFds.erase fd }

def IoMonitor.onSocket (fd : Int) (monitor : IoMonitor) : IoMonitor :=
  if monitor.enabled = false ∨ fd < 0 then monitor
  else { monitor with openFds := monitor.openFds.insert fd FdInfo.ofSocket }

def fdJson (fd : Int) (info : FdInfo) : Json :=
  .object [("fd", .number fd), ("is_socket", .bool info.isSocket),
    ("path", .string info.path.bytes)]

def fdLeakJson (leaked : List (Int × FdInfo)) : Json :=
  .object [("fds", .array (leaked.map fun entry => fdJson entry.1 entry.2)),
    ("type", .string (literal "fd_leak"))]

/-- The entries of the map in the order in which it is walked. -/
def IoMonitor.leakedFds (monitor : IoMonitor) : List (Int × FdInfo) :=
  monitor.openFds.entries.map fun entry => (entry.1, entry.2)

/-- The report handed to the reporter, if one is made. -/
def IoMonitor.reportLeakedFds (monitor : IoMonitor) : Option Json :=
  if monitor.enabled = false ∨ monitor.leakedFds = [] then none
  else some (fdLeakJson monitor.leakedFds)

theorem IoMonitor.leakedFds_nodup (monitor : IoMonitor) :
    (monitor.leakedFds.map Prod.fst).Nodup := by
  have hnodup := monitor.openFds.nodupKeys
  rw [leakedFds, List.map_map]
  exact hnodup

theorem IoMonitor.mem_leakedFds {monitor : IoMonitor} {fd : Int} {info : FdInfo} :
    (fd, info) ∈ monitor.leakedFds ↔ monitor.openFds.lookup fd = some info := by
  rw [← Option.mem_def, AList.mem_lookup_iff, leakedFds, List.mem_map]
  constructor
  · rintro ⟨⟨fd', info'⟩, hentry, heq⟩
    obtain ⟨rfl, rfl⟩ := Prod.mk.inj heq
    exact hentry
  · intro hentry
    exact ⟨⟨fd, info⟩, hentry, rfl⟩

theorem fdJson_utf8_iff (fd : Int) (info : FdInfo) :
    (fdJson fd info).Utf8 ↔ ValidUtf8 info.path.bytes := by
  simp [fdJson]

/-- The report can be serialised exactly when every recorded path is valid UTF-8. -/
theorem fdLeakJson_utf8_iff (leaked : List (Int × FdInfo)) :
    (fdLeakJson leaked).Utf8 ↔ ∀ entry ∈ leaked, ValidUtf8 entry.2.path.bytes := by
  rw [fdLeakJson, Json.utf8_object, List.forall_mem_cons, Json.utf8_array,
    List.forall_mem_map]
  simp only [fdJson_utf8_iff, List.mem_singleton, forall_eq, Json.utf8_string,
    validUtf8_literal, and_true]

end Domovoy
