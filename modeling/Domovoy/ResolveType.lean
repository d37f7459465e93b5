/-
The type lookup of the leak report on Linux and macOS: which bytes `resolve_type` reads on
its way from a leaked block to the name of the block's type.
-/
import Domovoy.Backtrace
import Domovoy.LoggedReads

namespace Domovoy

open WordAlign LoggedReads

/-- A loaded module's mapped region. -/
structure ModuleRange where
  base : Word
  size : Word
  end_fits : base.toNat + size.toNat ≤ 2 ^ 64

def ModuleRange.Contains (range : ModuleRange) (ptr : Word) : Prop :=
  range.base ≤ ptr ∧ ptr.toNat < range.base.toNat + range.size.toNat

instance (range : ModuleRange) (ptr : Word) : Decidable (range.Contains ptr) :=
  inferInstanceAs (Decidable (_ ∧ _))

/-- The memory of the process, and the modules in it. -/
structure ProcessImage where
  memory : Word → Option UInt8
  modules : List ModuleRange
  readable : ∀ range ∈ modules, ∀ ptr, range.Contains ptr → (memory ptr).isSome

/-- `dladdr` succeeds. -/
def ProcessImage.Dladdr (image : ProcessImage) (ptr : Word) : Prop :=
  ∃ range ∈ image.modules, range.Contains ptr

instance (image : ProcessImage) (ptr : Word) : Decidable (image.Dladdr ptr) :=
  inferInstanceAs (Decidable (∃ range ∈ image.modules, _))

/-- A leaked block that has not been freed. -/
structure LiveBlock (image : ProcessImage) where
  address : Word
  size : Word
  end_fits : address.toNat + size.toNat ≤ 2 ^ 64
  mapped : ∀ ptr, address ≤ ptr → ptr.toNat < address.toNat + size.toNat →
    (image.memory ptr).isSome

/-- What the other libraries answer: `dli_sname` for an address inside a module,
`__cxa_demangle`, and the symbol of the first frame that `cpptrace` resolves. -/
structure SymbolEnv where
  sname : Word → Option Bytes
  demangle : Bytes → Option Bytes
  frameSymbol : Word → Option Bytes

/-- `sname.find("class_type_info")` or `sname.find("type_info")` finds it. -/
def namesTypeInfo (sname : Option Bytes) : Bool :=
  match sname with
  | some sname =>
      decide (literal "class_type_info" <:+: sname) || decide (literal "type_info" <:+: sname)
  | none => false

/-- The addresses of the eight bytes of a pointer. -/
def pointerBytes (ptr : Word) : List Word :=
  (List.range 8).map fun i => ptr + BitVec.ofNat 64 i

/-- The least significant byte comes first. -/
def littleEndian (bytes : Bytes) : Word :=
  bytes.foldr (fun byte word => word <<< 8 ||| byte.toBitVec.setWidth 64) 0

/-- `*(void**)ptr`. -/
def ProcessImage.loadPointer (image : ProcessImage) (ptr : Word) : Reading Word Word := do
  let bytes ← loads image.memory (pointerBytes ptr)
  pure (littleEndian bytes)

/-- The bytes from `ptr` up to the first NUL, which is read, too. -/
def ProcessImage.loadCString (image : ProcessImage) (ptr : Word) : Reading Word Bytes :=
  loadUntil image.memory 0 (· + 1) (2 ^ 64) ptr

/-- The name found through the type information; `none` falls through to `cpptrace`. -/
def ProcessImage.rttiName (env : SymbolEnv) (image : ProcessImage) (vptr : Word) :
    Reading Word (Option Bytes) :=
  if image.Dladdr vptr then do
    let typeInfoPtr ← image.loadPointer (vptr - 8)
    if image.Dladdr typeInfoPtr then do
      let tiVptr ← image.loadPointer typeInfoPtr
      if image.Dladdr tiVptr ∧ namesTypeInfo (env.sname tiVptr) = true then do
        let typeNameStr ← image.loadPointer (typeInfoPtr + 8)
        if image.Dladdr typeNameStr then do
          let mangled ← image.loadCString typeNameStr
          pure (some (((env.demangle mangled).map cStr).getD mangled))
        else pure none
      else pure none
    else pure none
  else pure none

/-- The name of the symbol that `cpptrace` finds, without "vtable for ". -/
def SymbolEnv.traceName (env : SymbolEnv) (vptr : Word) : Bytes :=
  match env.frameSymbol vptr with
  | none => []
  | some sym =>
      if literal "vtable for " <+: sym then cStr (sym.drop 11) else cStr sym

def ProcessImage.resolveType (env : SymbolEnv) (image : ProcessImage) (address size : Word) :
    Reading Word Bytes :=
  if size < 8 then pure []
  else do
    let vptr ← image.loadPointer address
    let name ← image.rttiName env vptr
    pure (name.getD (env.traceName vptr))

section

variable {image : ProcessImage}

/-- Inside the leaked block or a module. -/
def LiveBlock.Verified (block : LiveBlock image) (ptr : Word) : Prop :=
  (block.address ≤ ptr ∧ ptr.toNat < block.address.toNat + block.size.toNat) ∨
    image.Dladdr ptr

/-- The pointer that the memory holds at `ptr`. -/
def ProcessImage.pointerAt (image : ProcessImage) (ptr : Word) : Option Word :=
  (image.loadPointer ptr).result

/-- All eight bytes of a pointer. -/
def LiveBlock.Whole (block : LiveBlock image) (ptr : Word) : Prop :=
  ∀ byte ∈ pointerBytes ptr, block.Verified byte

/-- From `ptr` on, the memory leaves the block and the modules before it holds a NUL. -/
def LiveBlock.RunsOut (block : LiveBlock image) (ptr : Word) : Prop :=
  ∃ n : Nat, (∀ i < n, block.Verified (ptr + BitVec.ofNat 64 i) ∧
      image.memory (ptr + BitVec.ofNat 64 i) ≠ some 0) ∧
    ¬ block.Verified (ptr + BitVec.ofNat 64 n)

/-- The type information behind a pointer into a module is whole, and so is its name. -/
def LiveBlock.TypeInfoWhole (block : LiveBlock image) (env : SymbolEnv)
    (typeInfoPtr : Word) : Prop :=
  block.Whole typeInfoPtr ∧
    ∀ tiVptr, image.pointerAt typeInfoPtr = some tiVptr → image.Dladdr tiVptr →
      namesTypeInfo (env.sname tiVptr) = true →
        block.Whole (typeInfoPtr + 8) ∧
          ∀ typeNameStr, image.pointerAt (typeInfoPtr + 8) = some typeNameStr →
            image.Dladdr typeNameStr → ¬ block.RunsOut typeNameStr

/-- Where the first word of the block points into a module, the pointer before that place
is whole, and so is what it points to. -/
def LiveBlock.FirstWordWhole (block : LiveBlock image) (env : SymbolEnv) : Prop :=
  ∀ vptr, image.pointerAt block.address = some vptr → image.Dladdr vptr →
    block.Whole (vptr - 8) ∧
      ∀ typeInfoPtr, image.pointerAt (vptr - 8) = some typeInfoPtr →
        image.Dladdr typeInfoPtr → block.TypeInfoWhole env typeInfoPtr

theorem LiveBlock.Verified.mapped {block : LiveBlock image} {ptr : Word}
    (hverified : block.Verified ptr) : (image.memory ptr).isSome := by
  rcases hverified with ⟨hlow, hhigh⟩ | ⟨range, hrange, hcontains⟩
  · exact block.mapped ptr hlow hhigh
  · exact image.readable range hrange ptr hcontains

theorem iterate_succ_word (n : Nat) (ptr : Word) :
    (fun ptr : Word => ptr + 1)^[n] ptr = ptr + BitVec.ofNat 64 n := by
  induction n with
  | zero => simp
  | succ n ih =>
      rw [Function.iterate_succ_apply', ih, BitVec.add_assoc]
      rw [BitVec.ofNat_add]
      rfl

theorem loadPointer_within (block : LiveBlock image) (ptr : Word) :
    (image.loadPointer ptr).Within block.Verified ↔ block.Whole ptr := by
  have hmapped : ∀ ptr, block.Verified ptr → (image.memory ptr).isSome :=
    fun _ hverified => hverified.mapped
  simp [ProcessImage.loadPointer, within_loads hmapped, LiveBlock.Whole]

theorem loadCString_within (block : LiveBlock image) (ptr : Word) :
    (image.loadCString ptr).Within block.Verified ↔ ¬ block.RunsOut ptr := by
  have hmapped : ∀ ptr, block.Verified ptr → (image.memory ptr).isSome :=
    fun _ hverified => hverified.mapped
  rw [ProcessImage.loadCString, within_loadUntil hmapped]
  simp only [iterate_succ_word, LiveBlock.RunsOut, not_exists, not_and, not_not]
  constructor
  · intro hall n hbefore
    by_cases hn : n < 2 ^ 64
    · exact hall n hn hbefore
    · -- the scan has been through the whole address space
      have hwrap : ptr + BitVec.ofNat 64 n = ptr + BitVec.ofNat 64 (n % 2 ^ 64) := by
        congr 1
        exact BitVec.eq_of_toNat_eq (by simp)
      rw [hwrap]
      exact (hbefore (n % 2 ^ 64) (by omega)).1
  · intro hall n _ hbefore
    exact hall n hbefore

theorem rttiName_within (env : SymbolEnv) (block : LiveBlock image) (vptr : Word) :
    (image.rttiName env vptr).Within block.Verified ↔
      (image.Dladdr vptr → block.Whole (vptr - 8) ∧
        ∀ typeInfoPtr, image.pointerAt (vptr - 8) = some typeInfoPtr →
          image.Dladdr typeInfoPtr → block.TypeInfoWhole env typeInfoPtr) := by
  simp only [ProcessImage.rttiName, within_ite, within_bind, within_pure,
    loadPointer_within, loadCString_within, implies_true, and_true, and_imp]
  rfl

/-- All of these bytes lie in the module. -/
def ModuleRange.Spans (range : ModuleRange) (ptr : Word) (count : Nat) : Prop :=
  range.base ≤ ptr ∧ ptr.toNat + count ≤ range.base.toNat + range.size.toNat

theorem ModuleRange.Spans.contains {range : ModuleRange} {ptr : Word} {count i : Nat}
    (hspans : range.Spans ptr count) (hi : i < count) :
    range.Contains (ptr + BitVec.ofNat 64 i) := by
  obtain ⟨hlow, hhigh⟩ := hspans
  have hfits := range.end_fits
  have hnat : (ptr + BitVec.ofNat 64 i).toNat = ptr.toNat + i := by
    rw [BitVec.toNat_add, BitVec.toNat_ofNat]
    omega
  rw [BitVec.le_def] at hlow
  refine ⟨?_, ?_⟩
  · rw [BitVec.le_def, hnat]
    omega
  · rw [hnat]
    omega

theorem ModuleRange.Spans.whole {range : ModuleRange} {ptr : Word}
    (hspans : range.Spans ptr 8) (hrange : range ∈ image.modules)
    (block : LiveBlock image) : block.Whole ptr := by
  intro byte hbyte
  obtain ⟨i, hi, rfl⟩ := List.mem_map.mp hbyte
  exact Or.inr ⟨range, hrange, hspans.contains (List.mem_range.mp hi)⟩

/-- A string that ends in its module does not run out. -/
theorem ModuleRange.Spans.not_runsOut {range : ModuleRange} {ptr : Word} {length : Nat}
    (hspans : range.Spans ptr (length + 1)) (hrange : range ∈ image.modules)
    (hnul : image.memory (ptr + BitVec.ofNat 64 length) = some 0)
    (block : LiveBlock image) : ¬ block.RunsOut ptr := by
  rintro ⟨n, hbefore, hout⟩
  by_cases hn : n ≤ length
  · exact hout (Or.inr ⟨range, hrange, hspans.contains (Nat.lt_succ_of_le hn)⟩)
  · exact (hbefore length (by omega)).2 hnul

/-- The layout that compilers give to the type information of a polymorphic class, each part
in one module, is read safely. -/
theorem LiveBlock.firstWordWhole_of_layout (env : SymbolEnv) (block : LiveBlock image)
    (hlayout : ∀ vptr, image.pointerAt block.address = some vptr → image.Dladdr vptr →
      (∃ range ∈ image.modules, range.Spans (vptr - 8) 8) ∧
        ∀ typeInfoPtr, image.pointerAt (vptr - 8) = some typeInfoPtr →
          image.Dladdr typeInfoPtr →
            (∃ range ∈ image.modules,
              range.Spans typeInfoPtr 8 ∧ range.Spans (typeInfoPtr + 8) 8) ∧
              ∀ typeNameStr, image.pointerAt (typeInfoPtr + 8) = some typeNameStr →
                image.Dladdr typeNameStr → ∃ range ∈ image.modules, ∃ length : Nat,
                  range.Spans typeNameStr (length + 1) ∧
                    image.memory (typeNameStr + BitVec.ofNat 64 length) = some 0) :
    block.FirstWordWhole env := by
  intro vptr hvptr hloaded
  obtain ⟨⟨range, hrange, hspans⟩, htypeInfo⟩ := hlayout vptr hvptr hloaded
  refine ⟨hspans.whole hrange block, fun typeInfoPtr hptr hinside => ?_⟩
  obtain ⟨⟨range, hrange, hfirst, hsecond⟩, hname⟩ := htypeInfo typeInfoPtr hptr hinside
  refine ⟨hfirst.whole hrange block, fun _ _ _ _ => ?_⟩
  refine ⟨hsecond.whole hrange block, fun typeNameStr hstr hmapped => ?_⟩
  obtain ⟨range, hrange, length, hspans, hnul⟩ := hname typeNameStr hstr hmapped
  exact hspans.not_runsOut hrange hnul block

/-- A block of at least eight bytes holds a pointer. -/
theorem LiveBlock.whole_address (block : LiveBlock image) (hsize : ¬ block.size < 8) :
    block.Whole block.address := by
  intro byte hbyte
  obtain ⟨i, hi, rfl⟩ := List.mem_map.mp hbyte
  rw [List.mem_range] at hi
  have hroom : 8 ≤ block.size.toNat := by
    rw [BitVec.not_lt, BitVec.le_def] at hsize
    exact hsize
  have hfits := block.end_fits
  have hnat : (block.address + BitVec.ofNat 64 i).toNat = block.address.toNat + i := by
    rw [BitVec.toNat_add, BitVec.toNat_ofNat]
    omega
  left
  rw [BitVec.le_def, hnat]
  omega

/-- `resolve_type` reads nothing outside the block and the modules exactly when the block is
too small for a pointer or its first word is whole; then no read faults. -/
theorem resolveType_reads_iff (env : SymbolEnv) (image : ProcessImage)
    (block : LiveBlock image) :
    ((∀ ptr ∈ (image.resolveType env block.address block.size).reads, block.Verified ptr) ↔
        block.size < 8 ∨ block.FirstWordWhole env) ∧
      (block.size < 8 ∨ block.FirstWordWhole env →
        ∀ ptr ∈ (image.resolveType env block.address block.size).reads,
          (image.memory ptr).isSome) := by
  have hiff : (image.resolveType env block.address block.size).Within block.Verified ↔
      block.size < 8 ∨ block.FirstWordWhole env := by
    rw [ProcessImage.resolveType]
    by_cases hsize : block.size < 8
    · rw [if_pos hsize]
      exact iff_of_true (within_pure _) (Or.inl hsize)
    · simp only [hsize, if_false, within_bind, loadPointer_within, rttiName_within,
        within_pure, implies_true, and_true, false_or]
      exact and_iff_right (block.whole_address hsize)
  exact ⟨hiff, fun hwhole ptr hptr => (hiff.mpr hwhole ptr hptr).mapped⟩

end

namespace ResolveWitness

instance {image : ProcessImage} (block : LiveBlock image) (ptr : Word) :
    Decidable (block.Verified ptr) :=
  inferInstanceAs (Decidable (_ ∨ _))

def loaded : ModuleRange where
  base := 0x400000
  size := 0x1000
  end_fits := by decide

/-- One module, and a block of eight bytes that hold the address the module starts at. -/
def oneModule : ProcessImage where
  memory := fun ptr =>
    if loaded.Contains ptr then some 0
    else if ptr = 0x10002 then some 0x40
    else if 0x10000 ≤ ptr ∧ ptr.toNat < 0x10008 then some 0
    else none
  modules := [loaded]
  readable := by
    intro range hrange ptr hcontains
    rw [List.mem_singleton.mp hrange] at hcontains
    rw [if_pos hcontains]
    rfl

def startPointer : LiveBlock oneModule where
  address := 0x10000
  size := 8
  end_fits := by decide
  mapped := by
    intro ptr hlow hhigh
    have hinside : 0x10000 ≤ ptr ∧ ptr.toNat < 0x10008 := ⟨hlow, hhigh⟩
    simp only [oneModule, if_pos hinside]
    split
    next => rfl
    next => split <;> rfl

def noSymbols : SymbolEnv where
  sname := fun _ => none
  demangle := fun _ => none
  frameSymbol := fun _ => none

/-- The lookup reads the eight bytes below the module, and faults. -/
theorem moduleStart_unverified :
    (oneModule.resolveType noSymbols startPointer.address startPointer.size).result = none ∧
      ¬ ∀ ptr ∈
          (oneModule.resolveType noSymbols startPointer.address startPointer.size).reads,
        startPointer.Verified ptr := by
  refine ⟨by decide +kernel, fun hall => ?_⟩
  have hread : (0x3ffff8 : Word) ∈
      (oneModule.resolveType noSymbols startPointer.address startPointer.size).reads := by
    decide +kernel
  have hbelow : ¬ startPointer.Verified 0x3ffff8 := by decide +kernel
  exact hbelow (hall _ hread)

end ResolveWitness

end Domovoy
