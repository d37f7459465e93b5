/-
The type lookup of the leak report on Windows, as MinGW and as Visual C++ compile it: when
`resolve_type` returns, whatever the leaked block and the memory hold.
-/
import Domovoy.ResolveType

namespace Domovoy

open WordAlign LoggedReads

/-- `IsBadReadPtr(ptr, size)` finds nothing. -/
def ProcessImage.Readable (image : ProcessImage) (ptr : Word) (size : Nat) : Prop :=
  ∀ i < size, (image.memory (ptr + BitVec.ofNat 64 i)).isSome

instance (image : ProcessImage) (ptr : Word) (size : Nat) :
    Decidable (image.Readable ptr size) :=
  inferInstanceAs (Decidable (∀ i < size, _))

def isAlnum (c : UInt8) : Bool :=
  (48 ≤ c && c ≤ 57) || (65 ≤ c && c ≤ 90) || (97 ≤ c && c ≤ 122)

/-- The heuristic for a mangled name. -/
def looksMangled (c : UInt8) : Bool :=
  isAlnum c || c == 78 || c == 90

/-- MinGW: the Itanium type information, each part checked before it is read.  `none`
falls through to `cpptrace`. -/
def ProcessImage.mingwName (env : SymbolEnv) (image : ProcessImage) (vptr : Word) :
    Reading Word (Option Bytes) :=
  if image.Readable (vptr - 8) 8 then do
    let pType ← image.loadPointer (vptr - 8)
    if pType ≠ nullptr ∧ image.Readable pType 16 then do
      let typeNameStr ← image.loadPointer (pType + 8)
      if typeNameStr ≠ nullptr ∧ image.Readable typeNameStr 1 then do
        let first ← load image.memory typeNameStr
        if looksMangled first = true then do
          let mangled ← image.loadCString typeNameStr
          pure ((env.demangle mangled).map cStr)
        else pure none
      else pure none
    else pure none
  else pure none

/-- An `unsigned long`, which has four bytes. -/
def ProcessImage.loadLong (image : ProcessImage) (ptr : Word) : Reading Word Word := do
  let bytes ← loads image.memory ((pointerBytes ptr).take 4)
  pure (littleEndian bytes)

/-- The base of the module that `RtlPcToFileHeader` finds. -/
def ProcessImage.fileHeader (image : ProcessImage) (ptr : Word) : Word :=
  ((image.modules.find? fun range => range.Contains ptr).map ModuleRange.base).getD nullptr

/-- What stands between `__try` and `__except`, for 64-bit code; `typeInfoName` is
`std::type_info::name` with the memory that it reads, and `none` is the empty literal. -/
def ProcessImage.msvcTypeNameStr (typeInfoName : Word → Reading Word Word)
    (image : ProcessImage) (vptr : Word) : Reading Word (Option Word) := do
  let pLocator ← image.loadPointer (vptr - 8)
  if pLocator ≠ nullptr then do
    let signature ← image.loadLong pLocator
    if signature = 1 ∧ image.fileHeader pLocator ≠ nullptr then do
      let pTypeDescriptor ← image.loadLong (pLocator + 12)
      let typeNameStr ← typeInfoName (image.fileHeader pLocator + pTypeDescriptor)
      pure (some typeNameStr)
    else pure none
  else pure none

/-- The name without "class " or "struct ". -/
def className (typeNameStr : Bytes) : Bytes :=
  if literal "class " <+: typeNameStr then typeNameStr.drop 6
  else if literal "struct " <+: typeNameStr then typeNameStr.drop 7
  else typeNameStr

/-- The name at a pointer, if there is one; its bytes are read after `__except`. -/
def ProcessImage.nameAt (image : ProcessImage) (typeNameStr : Word) :
    Reading Word (Option Bytes) :=
  if typeNameStr ≠ nullptr then do
    let first ← load image.memory typeNameStr
    if first ≠ 0 then do
      let name ← image.loadCString typeNameStr
      pure (some (cStr (className name)))
    else pure none
  else pure none

/-- Visual C++: an access violation on the way to the name leaves it empty. -/
def ProcessImage.msvcName (typeInfoName : Word → Reading Word Word) (image : ProcessImage)
    (vptr : Word) : Reading Word (Option Bytes) := do
  let typeNameStr ← (image.msvcTypeNameStr typeInfoName vptr).caught none
  (typeNameStr.map image.nameAt).getD (pure none)

inductive WindowsCompiler where
  | mingw
  | msvc
deriving DecidableEq

/-- The libraries that `resolve_type` calls on Windows. -/
structure WindowsEnv extends SymbolEnv where
  typeInfoName : Word → Reading Word Word

def ProcessImage.compiledName (compiler : WindowsCompiler) (env : WindowsEnv)
    (image : ProcessImage) (vptr : Word) : Reading Word (Option Bytes) :=
  match compiler with
  | .mingw => image.mingwName env.toSymbolEnv vptr
  | .msvc => image.msvcName env.typeInfoName vptr

/-- `GetModuleHandleEx` by an address finds what `dladdr` does. -/
def ProcessImage.resolveTypeWindows (compiler : WindowsCompiler) (env : WindowsEnv)
    (image : ProcessImage) (address size : Word) : Reading Word Bytes :=
  if size < 8 then pure []
  else do
    let vptr ← image.loadPointer address
    if image.Dladdr vptr then do
      let name ← image.compiledName compiler env vptr
      pure (name.getD (env.traceName vptr))
    else pure []

section

variable {image : ProcessImage}

/-- The string at `ptr` has its NUL before the end of what is mapped. -/
def ProcessImage.StringEnds (image : ProcessImage) (ptr : Word) : Prop :=
  ∃ length : Nat, image.memory (ptr + BitVec.ofNat 64 length) = some 0 ∧
    image.Readable ptr length

/-- If the checks lead from the first word of the block to a name that looks mangled, that
name ends. -/
def LiveBlock.NameEnds (block : LiveBlock image) : Prop :=
  ∀ vptr pType typeNameStr first, image.pointerAt block.address = some vptr →
    image.Dladdr vptr → image.pointerAt (vptr - 8) = some pType → pType ≠ nullptr →
      image.Readable pType 16 → image.pointerAt (pType + 8) = some typeNameStr →
        typeNameStr ≠ nullptr → image.memory typeNameStr = some first →
          looksMangled first = true → image.StringEnds typeNameStr

/-- If the structures of Visual C++ lead from the first word of the block to the pointer of
a name, and every read on the way is good, that name ends. -/
def LiveBlock.TypeNameEnds (block : LiveBlock image)
    (typeInfoName : Word → Reading Word Word) : Prop :=
  ∀ vptr typeNameStr, image.pointerAt block.address = some vptr → image.Dladdr vptr →
    (image.msvcTypeNameStr typeInfoName vptr).result = some (some typeNameStr) →
      typeNameStr ≠ nullptr → image.StringEnds typeNameStr

theorem loadPointer_isSome_iff (ptr : Word) :
    (image.loadPointer ptr).result.isSome ↔ image.Readable ptr 8 := by
  have hloads : (image.loadPointer ptr).result.isSome ↔
      (loads image.memory (pointerBytes ptr)).result.isSome := by
    rw [ProcessImage.loadPointer, bind_result]
    cases (loads image.memory (pointerBytes ptr)).result <;> simp
  rw [hloads, loads_isSome_iff]
  simp [pointerBytes, ProcessImage.Readable]

theorem loadCString_isSome_iff (ptr : Word) :
    (image.loadCString ptr).result.isSome ↔ image.StringEnds ptr := by
  rw [ProcessImage.loadCString, loadUntil_isSome_iff]
  simp only [iterate_succ_word]
  constructor
  · rintro ⟨n, -, hnul, hbefore⟩
    exact ⟨n, hnul, hbefore⟩
  · rintro ⟨n, hnul, hbefore⟩
    have hwrap : BitVec.ofNat 64 n = BitVec.ofNat 64 (n % 2 ^ 64) :=
      BitVec.eq_of_toNat_eq (by simp)
    refine ⟨n % 2 ^ 64, Nat.mod_lt n (by decide), ?_, fun i hi => ?_⟩
    · rw [← hwrap]
      exact hnul
    · exact hbefore i (Nat.lt_of_lt_of_le hi (Nat.mod_le n _))

theorem ProcessImage.Readable.drop {ptr : Word} (hreadable : image.Readable ptr 16) :
    image.Readable (ptr + 8) 8 := by
  intro i hi
  have hsum : ptr + 8 + BitVec.ofNat 64 i = ptr + BitVec.ofNat 64 (8 + i) := by
    rw [BitVec.ofNat_add, ← BitVec.add_assoc]
    rfl
  rw [hsum]
  exact hreadable (8 + i) (Nat.add_lt_add_left hi 8)

theorem readable_one_iff (ptr : Word) :
    image.Readable ptr 1 ↔ (image.memory ptr).isSome := by
  constructor
  · intro hreadable
    simpa using hreadable 0 Nat.one_pos
  · intro hmapped i hi
    obtain rfl : i = 0 := Nat.lt_one_iff.mp hi
    simpa using hmapped

theorem LiveBlock.readable_address (block : LiveBlock image) (hsize : ¬ block.size < 8) :
    image.Readable block.address 8 := by
  intro i hi
  have hbyte : block.address + BitVec.ofNat 64 i ∈ pointerBytes block.address :=
    List.mem_map_of_mem (List.mem_range.mpr hi)
  exact (block.whole_address hsize _ hbyte).mapped

/-- A pointer that can be read is read. -/
theorem ProcessImage.Readable.pointerAt {ptr : Word} (hreadable : image.Readable ptr 8) :
    ∃ value, image.pointerAt ptr = some value :=
  Option.isSome_iff_exists.mp ((loadPointer_isSome_iff ptr).mpr hreadable)

theorem readable_of_pointerAt {ptr value : Word} (hvalue : image.pointerAt ptr = some value) :
    image.Readable ptr 8 := by
  apply (loadPointer_isSome_iff ptr).mp
  change (image.pointerAt ptr).isSome
  rw [hvalue]
  rfl

/-- The checks leave one read that can fault: the rest of a name that looks mangled. -/
theorem mingwName_isSome_iff (env : SymbolEnv) (vptr : Word) :
    (image.mingwName env vptr).result.isSome ↔
      ∀ pType typeNameStr first, image.pointerAt (vptr - 8) = some pType → pType ≠ nullptr →
        image.Readable pType 16 → image.pointerAt (pType + 8) = some typeNameStr →
          typeNameStr ≠ nullptr → image.memory typeNameStr = some first →
            looksMangled first = true → image.StringEnds typeNameStr := by
  have hname : ∀ typeNameStr,
      (do
        let mangled ← image.loadCString typeNameStr
        pure ((env.demangle mangled).map cStr) : Reading Word (Option Bytes)).result.isSome ↔
          image.StringEnds typeNameStr := by
    intro typeNameStr
    rw [← loadCString_isSome_iff, bind_result]
    cases (image.loadCString typeNameStr).result <;> simp
  have hsecond : ∀ pType, pType ≠ nullptr ∧ image.Readable pType 16 →
      (image.loadPointer (pType + 8)).result.isSome := fun pType hguard =>
    (loadPointer_isSome_iff _).mpr hguard.2.drop
  have hfirst : ∀ typeNameStr, typeNameStr ≠ nullptr ∧ image.Readable typeNameStr 1 →
      (load image.memory typeNameStr).result.isSome := fun typeNameStr hguard =>
    (readable_one_iff typeNameStr).mp hguard.2
  rw [ProcessImage.mingwName, guarded_isSome_iff fun hloc => (loadPointer_isSome_iff _).mpr hloc]
  constructor
  · intro hall pType typeNameStr first hpType hne hreadable htypeNameStr hne' hbyte hlooks
    have htype := hall (readable_of_pointerAt hpType) pType hpType
    rw [guarded_isSome_iff (hsecond pType)] at htype
    have hstring := htype ⟨hne, hreadable⟩ typeNameStr htypeNameStr
    rw [guarded_isSome_iff (hfirst typeNameStr)] at hstring
    have hone : image.Readable typeNameStr 1 := by
      rw [readable_one_iff, hbyte]
      rfl
    have hmangled := hstring ⟨hne', hone⟩ first hbyte
    rw [if_pos hlooks] at hmangled
    exact (hname typeNameStr).mp hmangled
  · intro hall _ pType hpType
    rw [guarded_isSome_iff (hsecond pType)]
    rintro ⟨hne, hreadable⟩ typeNameStr htypeNameStr
    rw [guarded_isSome_iff (hfirst typeNameStr)]
    rintro ⟨hne', -⟩ first hbyte
    by_cases hlooks : looksMangled first = true
    · rw [if_pos hlooks]
      exact (hname typeNameStr).mpr
        (hall pType typeNameStr first hpType hne hreadable htypeNameStr hne' hbyte hlooks)
    · rw [if_neg hlooks]
      rfl

theorem nameAt_isSome_iff (typeNameStr : Word) :
    (image.nameAt typeNameStr).result.isSome ↔
      (typeNameStr ≠ nullptr → image.StringEnds typeNameStr) := by
  rw [ProcessImage.nameAt]
  by_cases hnull : typeNameStr = nullptr
  · rw [if_neg (not_not.mpr hnull)]
    exact iff_of_true rfl (absurd hnull)
  rw [if_pos hnull, forall_prop_of_true hnull, bind_result, load_result]
  constructor
  · intro hname
    cases hfirst : image.memory typeNameStr with
    | none =>
        rw [hfirst] at hname
        contradiction
    | some first =>
        rw [hfirst, Option.bind_some] at hname
        by_cases hzero : first = 0
        · refine ⟨0, ?_, fun i hi => absurd hi (Nat.not_lt_zero i)⟩
          simpa [hzero] using hfirst
        · rw [if_pos hzero, bind_result] at hname
          rw [← loadCString_isSome_iff]
          cases hstring : (image.loadCString typeNameStr).result with
          | none =>
              rw [hstring] at hname
              contradiction
          | some name => rfl
  · intro hends
    obtain ⟨name, hname⟩ :=
      Option.isSome_iff_exists.mp ((loadCString_isSome_iff typeNameStr).mpr hends)
    obtain ⟨length, hnul, hbefore⟩ := hends
    have hfirst : (image.memory typeNameStr).isSome := by
      cases length with
      | zero => simpa using congrArg Option.isSome hnul
      | succ length => simpa using hbefore 0 (Nat.succ_pos length)
    obtain ⟨first, hfirst⟩ := Option.isSome_iff_exists.mp hfirst
    rw [hfirst, Option.bind_some]
    by_cases hzero : first = 0
    · rw [if_neg (not_not.mpr hzero)]
      rfl
    · rw [if_pos hzero, bind_result, hname]
      rfl

/-- The handler catches every read but those of the name itself. -/
theorem msvcName_isSome_iff (typeInfoName : Word → Reading Word Word) (vptr : Word) :
    (image.msvcName typeInfoName vptr).result.isSome ↔
      ∀ typeNameStr,
        (image.msvcTypeNameStr typeInfoName vptr).result = some (some typeNameStr) →
          typeNameStr ≠ nullptr → image.StringEnds typeNameStr := by
  rw [ProcessImage.msvcName, bind_result, caught_result, Option.bind_some]
  cases (image.msvcTypeNameStr typeInfoName vptr).result with
  | none => exact iff_of_true rfl nofun
  | some typeNameStr =>
      cases typeNameStr with
      | none => exact iff_of_true rfl (by simp)
      | some typeNameStr =>
          simp [nameAt_isSome_iff]

theorem LiveBlock.nameEnds_iff (block : LiveBlock image) (env : SymbolEnv) {vptr : Word}
    (hvptr : image.pointerAt block.address = some vptr) :
    block.NameEnds ↔ (image.Dladdr vptr → (image.mingwName env vptr).result.isSome) := by
  rw [mingwName_isSome_iff]
  constructor
  · intro hall hloaded pType typeNameStr first
    exact hall vptr pType typeNameStr first hvptr hloaded
  · intro hall vptr' pType typeNameStr first hvptr' hloaded
    obtain rfl := Option.some.inj (hvptr.symm.trans hvptr')
    exact hall hloaded pType typeNameStr first

theorem LiveBlock.typeNameEnds_iff (block : LiveBlock image)
    (typeInfoName : Word → Reading Word Word) {vptr : Word}
    (hvptr : image.pointerAt block.address = some vptr) :
    block.TypeNameEnds typeInfoName ↔
      (image.Dladdr vptr → (image.msvcName typeInfoName vptr).result.isSome) := by
  rw [msvcName_isSome_iff]
  constructor
  · intro hall hloaded typeNameStr
    exact hall vptr typeNameStr hvptr hloaded
  · intro hall vptr' typeNameStr hvptr' hloaded
    obtain rfl := Option.some.inj (hvptr.symm.trans hvptr')
    exact hall hloaded typeNameStr

/-- What `resolve_type` does with the name that it has read, or not read. -/
theorem compiledName_bind_isSome (compiler : WindowsCompiler) (env : WindowsEnv)
    (vptr : Word) :
    ((image.compiledName compiler env vptr).result.bind fun name =>
      (pure (name.getD (env.traceName vptr)) : Reading Word Bytes).result).isSome ↔
        (image.compiledName compiler env vptr).result.isSome := by
  cases (image.compiledName compiler env vptr).result <;> simp

/-- `resolve_type` on Windows returns, whatever the memory and the modules are, exactly when
the block is too small for a pointer, or the name that the checks of MinGW or the structures
of Visual C++ lead to ends. -/
theorem resolveTypeWindows_returns_iff (compiler : WindowsCompiler) (env : WindowsEnv)
    (image : ProcessImage) (block : LiveBlock image) :
    (image.resolveTypeWindows compiler env block.address block.size).result.isSome ↔
      block.size < 8 ∨ compiler = .mingw ∧ block.NameEnds ∨
        compiler = .msvc ∧ block.TypeNameEnds env.typeInfoName := by
  rw [ProcessImage.resolveTypeWindows]
  by_cases hsize : block.size < 8
  · rw [if_pos hsize]
    exact iff_of_true rfl (Or.inl hsize)
  rw [if_neg hsize]
  obtain ⟨vptr, hvptr⟩ := (block.readable_address hsize).pointerAt
  have hvptr' : (image.loadPointer block.address).result = some vptr := hvptr
  rw [bind_result, hvptr', Option.bind_some, block.nameEnds_iff env.toSymbolEnv hvptr,
    block.typeNameEnds_iff env.typeInfoName hvptr]
  by_cases hloaded : image.Dladdr vptr
  · rw [if_pos hloaded, bind_result, compiledName_bind_isSome]
    cases compiler with
    | msvc =>
        change (image.msvcName env.typeInfoName vptr).result.isSome ↔ _
        simp only [reduceCtorEq, hsize, hloaded, true_implies, true_and, false_and, false_or]
    | mingw =>
        change (image.mingwName env.toSymbolEnv vptr).result.isSome ↔ _
        simp only [reduceCtorEq, hsize, hloaded, true_implies, true_and, false_and, false_or,
          or_false]
  · rw [if_neg hloaded]
    refine iff_of_true rfl (Or.inr ?_)
    cases compiler with
    | mingw => exact Or.inl ⟨rfl, fun hloaded' => absurd hloaded' hloaded⟩
    | msvc => exact Or.inr ⟨rfl, fun hloaded' => absurd hloaded' hloaded⟩

end

end Domovoy
