/-
The arithmetic of the pool at the ends of `size_t`: which requests are met with memory
that is there, for all sizes, counts and capacities and in every state the calls can reach.
-/
import Domovoy.PoolMappings
import Domovoy.StlAllocator

namespace Domovoy

open WordAlign LinkedChain

/-- A region of whole pages whose end is an address, too. -/
structure Region.InSpace (region : Region) : Prop where
  pageAligned : 4096 ∣ region.base.toNat
  limit : region.base.toNat + region.length.toNat < 2 ^ 64

/-- `mmap` fails when the length does not fit in the address space. -/
structure Mmap.InSpace (os : Mmap) : Prop extends os.FreshRegions where
  placed : ∀ call mapped length base, os call mapped length = some base →
    Region.InSpace ⟨base, length⟩

/-- The headers lie at the start of their regions. -/
structure Pool.InSpace (pool : Pool) : Prop where
  memory : ∀ address block, pool.heap address = some block →
    block.memory = address + sizeofBlock
  regions : ∀ region ∈ pool.mapped, region.InSpace

/-- The requests that the pool is asked to meet. -/
inductive PoolRequest where
  | initializePool (initialCapacityBytes : Word)
  | allocate (size alignment : Word)
  | stlAllocate (request : StlRequest)
deriving DecidableEq, Repr

/-- The bytes of the block at `key` that are taken. -/
def Pool.usedAt (pool : Pool) (key : Word) : Nat :=
  match pool.heap key with
  | some block => block.used.toNat
  | none => 0

/-- `[ptr, ptr + size)` lies in the region of the block at `key`, behind its header and the
part of it that was taken before. -/
def Pool.HasRoom (before after : Pool) (key ptr : Word) (size : Nat) : Prop :=
  ∃ region ∈ after.mapped, region.base = key ∧
    key.toNat + 32 + before.usedAt key ≤ ptr.toNat ∧
      ptr.toNat + size ≤ region.base.toNat + region.length.toNat

/-- The memory of the block at `key` lies in the region that was mapped for it. -/
def Pool.BlockMapped (pool : Pool) (key : Word) : Prop :=
  ∃ block, pool.heap key = some block ∧ ∃ region ∈ pool.mapped, region.base = key ∧
    region.base.toNat ≤ block.memory.toNat ∧
      block.memory.toNat + block.size.toNat ≤ region.base.toNat + region.length.toNat

/-- The request throws `bad_alloc`, or what it promises is there: room for the chunk in the
block that it is taken from, or a block whose memory is mapped. -/
def Pool.Meets (os : Mmap) (pool : Pool) : PoolRequest → Prop
  | .initializePool initialCapacityBytes =>
      let result := initializePool os initialCapacityBytes pool
      result.1 = .error .badAlloc ∨ result.1 = .ok () ∧
        (pool.headBlock = nullptr → result.2.BlockMapped result.2.headBlock)
  | .allocate size alignment =>
      let result := allocate os size alignment pool
      result.1 = .error .badAlloc ∨ ∃ ptr, result.1 = .ok ptr ∧
        pool.HasRoom result.2 (pool.blockFor os size alignment) ptr size.toNat
  | .stlAllocate request =>
      let result := Domovoy.stlAllocate os request pool
      result.1 = .error .badAlloc ∨ ∃ ptr, result.1 = .ok ptr ∧
        pool.HasRoom result.2
          (pool.blockFor os (request.n * request.sizeofT) request.alignofT) ptr
          (request.n.toNat * request.sizeofT.toNat)

/-- The first block whose test, as the code computes it, lets the request pass. -/
def Pool.firstPassing (size alignment : Word) (pool : Pool) (keys : List Word) :
    Option Word :=
  keys.find? fun key => (pool.heap key).any fun block => block.fits size alignment

/-- Neither the length that the block was mapped with nor the sum in its test wraps. -/
def Block.Unwrapped (block : Block) (size alignment : Word) : Prop :=
  block.size.toNat + 32 < 2 ^ 64 ∧
    block.used.toNat + (block.padding alignment).toNat + size.toNat < 2 ^ 64

/-- Twice the size and a header do not wrap, and the padding from `base` on leaves room. -/
def NewBlockSuffices (base size alignment : Word) : Prop :=
  size.toNat * 2 + 32 < 2 ^ 64 ∧
    (alignUp (base + sizeofBlock) alignment - (base + sizeofBlock)).toNat + size.toNat ≤
      max (size.toNat * 2) (2 ^ 21)

/-- What decides about a request on a list that is not empty. Where a null pointer is
thrown away, nothing is asked of a chunk at the null address. -/
structure Pool.Suffices (os : Mmap) (size alignment : Word) (nullThrows : Prop)
    (pool : Pool) : Prop where
  found : ∀ keys, pool.Linked keys → ∀ key block,
    pool.firstPassing size alignment keys = some key → pool.heap key = some block →
      block.Unwrapped size alignment ∨ nullThrows ∧ block.alignedAddr alignment = nullptr
  grown : ∀ keys, pool.Linked keys → pool.firstPassing size alignment keys = none →
    ∀ base, pool.nextMapping os (newBlockSize size) = some base →
      NewBlockSuffices base size alignment ∨
        nullThrows ∧ alignUp (base + sizeofBlock) alignment = nullptr

/-- The sizes, counts and capacities for which nothing that matters wraps. -/
def Pool.WithinLimits (os : Mmap) (pool : Pool) : PoolRequest → Prop
  | .initializePool initialCapacityBytes =>
      pool.headBlock = nullptr →
        initialCapacityBytes.toNat + 32 < 2 ^ 64 ∨
          pool.nextMapping os initialCapacityBytes = none
  | .allocate size alignment =>
      pool.Ready os → (ensureHead os pool).2.Suffices os size alignment False
  | .stlAllocate request =>
      request.n ≤ maxSize / request.sizeofT → pool.Ready os →
        (ensureHead os pool).2.Suffices os (request.n * request.sizeofT) request.alignofT
          True

section

variable {os : Mmap} {pool : Pool}

theorem Pool.InSpace.modifyBlock (hspace : pool.InSpace) (key : Word) {f : Block → Block}
    (hmemory : ∀ block, (f block).memory = block.memory) :
    (pool.modifyBlock key f).InSpace := by
  rw [Pool.modifyBlock]
  cases hblock : pool.heap key with
  | none => exact hspace
  | some block =>
      refine ⟨?_, hspace.regions⟩
      intro address other hother
      by_cases haddress : address = key
      · rw [haddress, Pool.writeBlock_heap, Function.update_self] at hother
        rw [← Option.some.inj hother, hmemory, haddress, hspace.memory key block hblock]
      · rw [Pool.writeBlock_heap, Function.update_of_ne haddress] at hother
        exact hspace.memory address other hother

theorem Pool.InSpace.mapBlock (hos : os.InSpace) (hspace : pool.InSpace) {base size : Word}
    (hanswer : os pool.mmapCalls pool.mapped (size + sizeofBlock) = some base) :
    (pool.mapBlock base size).InSpace := by
  refine ⟨?_, ?_⟩
  · intro address block hblock
    rw [Pool.mapBlock_heap] at hblock
    by_cases haddress : address = base
    · rw [haddress, Function.update_self] at hblock
      rw [← Option.some.inj hblock, haddress]
    · rw [Function.update_of_ne haddress] at hblock
      exact hspace.memory address block hblock
  · intro region hregion
    rcases List.mem_append.mp hregion with hregion | hregion
    · exact hspace.regions region hregion
    · rw [List.mem_singleton.mp hregion]
      exact hos.placed _ _ _ _ hanswer

theorem Pool.InSpace.linkBlock (hspace : pool.InSpace) (last newBlock : Word) :
    (pool.linkBlock last newBlock).InSpace := by
  rw [Pool.linkBlock]
  split
  · exact hspace.modifyBlock last fun _ => rfl
  · exact ⟨hspace.memory, hspace.regions⟩

theorem Pool.InSpace.initializePool (hos : os.InSpace) (hspace : pool.InSpace)
    (capacity : Word) : (Domovoy.initializePool os capacity pool).2.InSpace := by
  rw [Domovoy.initializePool]
  split
  · rcases allocateOSBlock_fresh hos.toFreshRegions (maxWord capacity minBlockSize) pool with
      ⟨-, hresult⟩ | ⟨base, -, hanswer, hresult⟩
    · simp only [hresult]
      exact ⟨hspace.memory, hspace.regions⟩
    · simp only [hresult]
      have hmapped := hspace.mapBlock hos hanswer
      exact ⟨hmapped.memory, hmapped.regions⟩
  · exact hspace

/-- How `Allocate` meets a request from a list that is not empty. -/
theorem Pool.Linked.allocate_ends (hos : os.FreshRegions) (size alignment : Word)
    {ready : Pool} {keys : List Word} (hready : ensureHead os pool = (.ok (), ready))
    (hlinked : ready.Linked keys) :
    (∃ key block, ready.firstPassing size alignment keys = some key ∧
        ready.heap key = some block ∧ block.fits size alignment ∧
        allocate os size alignment pool = (.ok (block.alignedAddr alignment),
          ready.writeBlock key (block.take size alignment)) ∧
        pool.blockFor os size alignment = key) ∨
      ready.firstPassing size alignment keys = none ∧
        (ready.nextMapping os (newBlockSize size) = none ∧
            allocate os size alignment pool =
              (.error .badAlloc, { ready with mmapCalls := ready.mmapCalls + 1 }) ∨
          ∃ base, base ≠ nullptr ∧ ready.nextMapping os (newBlockSize size) = some base ∧
            allocate os size alignment pool =
              (.ok (alignUp (base + sizeofBlock) alignment),
                ready.grow (keys.getLastD nullptr) base size alignment) ∧
            pool.blockFor os size alignment = base) := by
  rcases findBlock_spec size alignment nullptr hlinked.chain
    (Nat.lt_succ_of_le hlinked.short) with
    ⟨before, key, behind, block, hsplit, hblock, hfits, hbefore, hfound⟩ | ⟨hnone, hfound⟩
  · refine Or.inl ⟨key, block, ?_, hblock, hfits, ?_, ?_⟩
    · rw [Pool.firstPassing, List.find?_eq_some_iff_append]
      refine ⟨by simp [hblock, hfits], before, behind, hsplit, ?_⟩
      intro other hother
      cases hskipped : ready.heap other with
      | none => rfl
      | some skipped => simp [hbefore other hother skipped hskipped]
    · simp [allocate, hready, hfound]
    · simp [Pool.blockFor, Pool.walk, hready, hfound]
  · refine Or.inr ⟨?_, ?_⟩
    · rw [Pool.firstPassing, List.find?_eq_none]
      intro other hother
      cases hskipped : ready.heap other with
      | none => simp
      | some skipped => simp [hnone other hother skipped hskipped]
    · rcases allocateOSBlock_fresh hos (newBlockSize size) ready with
        ⟨hrefused, hresult⟩ | ⟨base, hbase, hanswer, hresult⟩
      · exact Or.inl ⟨hrefused, by simp [allocate, hready, hfound,
          growAndTake_of_refused hresult]⟩
      · refine Or.inr ⟨base, hbase, hanswer, ?_, ?_⟩
        · simp [allocate, hready, hfound, growAndTake_of_mapped hresult]
        · simp [Pool.blockFor, Pool.walk, hready, hfound, Pool.nextMapping, hanswer]

theorem Pool.InSpace.allocate (hos : os.InSpace) (hspace : pool.InSpace)
    {keys : List Word} (haccounted : pool.Accounted keys) (size alignment : Word) :
    (Domovoy.allocate os size alignment pool).2.InSpace := by
  have hstarted := hspace.initializePool hos minBlockSize
  rcases haccounted.initializePool hos.toFreshRegions minBlockSize with
    ⟨ready, keys', hready, hkeys, -⟩ | ⟨after, hresult, -⟩
  · rw [hready] at hstarted
    rw [← ensureHead_eq_initializePool] at hready
    rcases hkeys.toLinked.allocate_ends hos.toFreshRegions size alignment hready with
      ⟨key, block, -, hblock, -, hresult, -⟩ |
        ⟨-, ⟨-, hresult⟩ | ⟨base, -, hanswer, hresult, -⟩⟩
    · rw [hresult, ← Pool.modifyBlock_eq hblock fun block => block.take size alignment]
      exact hstarted.modifyBlock key fun _ => rfl
    · rw [hresult]
      exact ⟨hstarted.memory, hstarted.regions⟩
    · rw [hresult]
      exact ((hstarted.mapBlock hos hanswer).linkBlock _ base).modifyBlock base fun _ => rfl
  · rw [hresult] at hstarted
    rw [← ensureHead_eq_initializePool] at hresult
    rw [show Domovoy.allocate os size alignment pool = (.error .badAlloc, after) by
      simp [Domovoy.allocate, hresult]]
    exact hstarted

theorem Pool.InSpace.empty (calls : Nat) :
    Pool.InSpace { Pool.initial with mmapCalls := calls } :=
  ⟨nofun, nofun⟩

theorem Pool.run_inSpace (hos : os.InSpace) (events : List PoolEvent) :
    (Pool.run os events).InSpace := by
  induction events using List.reverseRecOn with
  | nil => exact Pool.InSpace.empty 0
  | append_singleton events event ih =>
      obtain ⟨keys, hkeys⟩ := Pool.run_accounted hos.toFreshRegions events
      rw [Pool.run, List.foldl_append]
      change ((Pool.run os events).call os event).2.InSpace
      cases event with
      | initializePool capacity => exact ih.initializePool hos capacity
      | allocate size alignment => exact ih.allocate hos hkeys size alignment
      | shutdown =>
          rw [Pool.call, hkeys.shutdown.1]
          exact Pool.InSpace.empty _

/-- The only region at a block's address is the one that its header stands for. -/
theorem Pool.Accounted.region_eq {keys : List Word} (haccounted : pool.Accounted keys)
    {region : Region} (hregion : region ∈ pool.mapped) :
    region = pool.regionAt region.base := by
  rw [← haccounted.regions.mem_iff, List.mem_map] at hregion
  obtain ⟨key, -, rfl⟩ := hregion
  rw [Pool.regionAt_base]

theorem Pool.Accounted.hasRoom_iff {before : Pool} {keys : List Word}
    (haccounted : pool.Accounted keys) {key ptr : Word} {block : Block}
    (hblock : pool.heap key = some block) (size : Nat) :
    before.HasRoom pool key ptr size ↔
      key.toNat + 32 + before.usedAt key ≤ ptr.toNat ∧
        ptr.toNat + size ≤ key.toNat + (block.size + sizeofBlock).toNat := by
  have hregion : pool.regionAt key = ⟨key, block.size + sizeofBlock⟩ :=
    Pool.regionAt_eq hblock
  constructor
  · rintro ⟨region, hmem, rfl, hlow, hhigh⟩
    rw [haccounted.region_eq hmem, Pool.regionAt_base, hregion] at hhigh
    exact ⟨hlow, hhigh⟩
  · rintro ⟨hlow, hhigh⟩
    refine ⟨pool.regionAt key, ?_, Pool.regionAt_base pool key, hlow, ?_⟩
    · rw [← haccounted.regions.mem_iff]
      exact List.mem_map_of_mem (haccounted.complete key block hblock)
    · rw [hregion]
      exact hhigh

/-- The header of a block, next to its region. -/
theorem Pool.InSpace.block {keys : List Word} (hspace : pool.InSpace)
    (haccounted : pool.Accounted keys) {key : Word} {block : Block}
    (hblock : pool.heap key = some block) :
    block.memory.toNat = key.toNat + 32 ∧
      key.toNat + (block.size + sizeofBlock).toNat < 2 ^ 64 := by
  have hmem : pool.regionAt key ∈ pool.mapped := by
    rw [← haccounted.regions.mem_iff]
    exact List.mem_map_of_mem (haccounted.complete key block hblock)
  obtain ⟨haligned, hlimit⟩ := hspace.regions _ hmem
  rw [Pool.regionAt_eq hblock] at haligned hlimit
  have hkey := key.isLt
  have hroom : key.toNat + 32 < 2 ^ 64 := by
    obtain ⟨pages, hpages⟩ := haligned
    change key.toNat = 4096 * pages at hpages
    omega
  refine ⟨?_, hlimit⟩
  rw [hspace.memory key block hblock, BitVec.toNat_add]
  exact Nat.mod_eq_of_lt hroom

/-- The first chunk behind a header and behind what is taken has room in the region if and
only if nothing wraps on the way to it. -/
theorem Block.room_iff {block : Block} {key size alignment : Word}
    (hmemory : block.memory.toNat = key.toNat + 32)
    (hlimit : key.toNat + (block.size + sizeofBlock).toNat < 2 ^ 64)
    (hfits : block.fits size alignment) :
    (key.toNat + 32 + block.used.toNat ≤ (block.alignedAddr alignment).toNat ∧
        (block.alignedAddr alignment).toNat + size.toNat ≤
          key.toNat + (block.size + sizeofBlock).toNat) ↔
      block.Unwrapped size alignment := by
  have hheader : sizeofBlock.toNat = 32 := rfl
  have hblockSize := block.size.isLt
  have hsum : (block.used + block.padding alignment + size).toNat =
      (block.used.toNat + (block.padding alignment).toNat + size.toNat) % 2 ^ 64 := by
    rw [BitVec.toNat_add, BitVec.toNat_add, Nat.mod_add_mod]
  rw [Block.fits, BitVec.le_def, hsum] at hfits
  rw [BitVec.toNat_add, hheader] at hlimit ⊢
  constructor
  · rintro ⟨hlow, hhigh⟩
    have hlength : block.size.toNat + 32 < 2 ^ 64 := by
      by_contra hwraps
      omega
    rw [Nat.mod_eq_of_lt hlength] at hlimit hhigh
    have hbump : (block.memory + block.used).toNat =
        block.memory.toNat + block.used.toNat := by
      rw [BitVec.toNat_add, Nat.mod_eq_of_lt (by omega)]
    have hpadding : (block.padding alignment).toNat =
        (block.alignedAddr alignment).toNat - (block.memory.toNat + block.used.toNat) := by
      rw [← hbump, Block.padding, BitVec.toNat_sub_of_le]
      rw [BitVec.le_def, hbump]
      omega
    exact ⟨hlength, by omega⟩
  · rintro ⟨hlength, hunwrapped⟩
    rw [Nat.mod_eq_of_lt hlength] at hlimit ⊢
    rw [Nat.mod_eq_of_lt hunwrapped] at hfits
    have haligned : (block.alignedAddr alignment).toNat =
        block.memory.toNat + block.used.toNat + (block.padding alignment).toNat :=
      Block.toNat_alignedAddr (by omega)
    omega

/-- The length of the region that is mapped for a new block. -/
theorem toNat_newRegion (size : Word) :
    (newBlockSize size + sizeofBlock).toNat =
      (max (size.toNat * 2 % 2 ^ 64) (2 ^ 21) + 32) % 2 ^ 64 := by
  have hheader : sizeofBlock.toNat = 32 := rfl
  have hminimum : minBlockSize.toNat = 2 ^ 21 := rfl
  have htwo : (2 : Word).toNat = 2 := rfl
  rw [BitVec.toNat_add, hheader, newBlockSize, toNat_maxWord, hminimum, BitVec.toNat_mul,
    htwo]

/-- A block that is mapped for the request has room for it if and only if its size does
not wrap and the padding fits behind it. -/
theorem newBlock_room_iff {base size alignment : Word} (hbase : base.toNat + 32 < 2 ^ 64)
    (hlimit : base.toNat + (newBlockSize size + sizeofBlock).toNat < 2 ^ 64) :
    (base.toNat + 32 ≤ (alignUp (base + sizeofBlock) alignment).toNat ∧
        (alignUp (base + sizeofBlock) alignment).toNat + size.toNat ≤
          base.toNat + (newBlockSize size + sizeofBlock).toNat) ↔
      NewBlockSuffices base size alignment := by
  have hmemory : (base + sizeofBlock).toNat = base.toNat + 32 := by
    rw [BitVec.toNat_add]
    exact Nat.mod_eq_of_lt hbase
  have hlength := toNat_newRegion size
  have hsize := size.isLt
  constructor
  · rintro ⟨hlow, hhigh⟩
    have hpadding : (alignUp (base + sizeofBlock) alignment - (base + sizeofBlock)).toNat =
        (alignUp (base + sizeofBlock) alignment).toNat - (base.toNat + 32) := by
      rw [← hmemory, BitVec.toNat_sub_of_le]
      rw [BitVec.le_def, hmemory]
      exact hlow
    rw [NewBlockSuffices]
    omega
  · rintro ⟨hunwrapped, hroom⟩
    have hexact : (newBlockSize size + sizeofBlock).toNat =
        max (size.toNat * 2) (2 ^ 21) + 32 := by
      omega
    have haligned := toNat_alignUp_eq (x := base + sizeofBlock) (a := alignment) (by omega)
    omega

/-- An empty list has taken nothing, and neither has the block it is given first. -/
theorem Pool.Linked.usedAt_ready {keys : List Word} (hlinked : pool.Linked keys) {ready : Pool}
    (hready : ensureHead os pool = (.ok (), ready)) (key : Word) :
    pool.usedAt key = ready.usedAt key := by
  rw [ensureHead] at hready
  split at hready
  next hhead =>
    obtain rfl := hlinked.nil_iff.mp hhead
    have hnone : pool.heap key = none := hlinked.heap_eq_none List.not_mem_nil
    rcases allocateOSBlock_cases os minBlockSize pool with
      ⟨refused, hresult, -⟩ | ⟨base, -, -, hresult⟩
    · simp only [hresult] at hready
      cases hready
    · simp only [hresult] at hready
      obtain rfl := (Prod.mk.inj hready).2
      rw [Pool.usedAt, hnone, Pool.usedAt]
      change _ = match Function.update pool.heap base _ key with
        | some block => block.used.toNat
        | none => 0
      by_cases hkey : key = base
      · rw [hkey, Function.update_self]
        rfl
      · rw [Function.update_of_ne hkey, hnone]
  next =>
    obtain rfl := (Prod.mk.inj hready).2
    rfl

/-- Where a block passes the test, its own arithmetic decides. -/
theorem Pool.Linked.suffices_found {keys : List Word} (hlinked : pool.Linked keys)
    {size alignment key : Word} {block : Block}
    (hfirst : pool.firstPassing size alignment keys = some key)
    (hblock : pool.heap key = some block) (nullThrows : Prop) :
    pool.Suffices os size alignment nullThrows ↔
      block.Unwrapped size alignment ∨ nullThrows ∧ block.alignedAddr alignment = nullptr := by
  constructor
  · intro hsuffices
    exact hsuffices.found keys hlinked key block hfirst hblock
  · intro hroom
    refine ⟨?_, ?_⟩
    · intro others hothers key' block' hpassing hblock'
      rw [hothers.chain.unique hlinked.chain, hfirst] at hpassing
      obtain rfl := Option.some.inj hpassing
      rw [hblock] at hblock'
      exact Option.some.inj hblock' ▸ hroom
    · intro others hothers hpassing
      rw [hothers.chain.unique hlinked.chain, hfirst] at hpassing
      contradiction

/-- Where none does, the arithmetic of the next mapping decides, if there is one. -/
theorem Pool.Linked.suffices_grown {keys : List Word} (hlinked : pool.Linked keys)
    {size alignment : Word} (hfirst : pool.firstPassing size alignment keys = none)
    (nullThrows : Prop) :
    pool.Suffices os size alignment nullThrows ↔
      ∀ base, pool.nextMapping os (newBlockSize size) = some base →
        NewBlockSuffices base size alignment ∨
          nullThrows ∧ alignUp (base + sizeofBlock) alignment = nullptr := by
  constructor
  · intro hsuffices
    exact hsuffices.grown keys hlinked hfirst
  · intro hgrown
    refine ⟨?_, fun _ _ _ => hgrown⟩
    intro others hothers key block hpassing
    rw [hothers.chain.unique hlinked.chain, hfirst] at hpassing
    contradiction

/-- In a block on the list the arithmetic decides whether the chunk has room. -/
theorem Pool.InSpace.suffices_found_iff {ready : Pool} (hspace : ready.InSpace)
    {keys keys' : List Word} (haccounted : ready.Accounted keys) {size alignment key : Word}
    {block : Block} (hfirst : ready.firstPassing size alignment keys = some key)
    (hblock : ready.heap key = some block) (hfits : block.fits size alignment)
    (hafter : (ready.writeBlock key (block.take size alignment)).Accounted keys')
    (hused : pool.usedAt key = ready.usedAt key) (nullThrows : Prop) :
    ready.Suffices os size alignment nullThrows ↔
      pool.HasRoom (ready.writeBlock key (block.take size alignment)) key
          (block.alignedAddr alignment) size.toNat ∨
        nullThrows ∧ block.alignedAddr alignment = nullptr := by
  have htaken : (ready.writeBlock key (block.take size alignment)).heap key =
      some (block.take size alignment) := by
    rw [Pool.writeBlock_heap, Function.update_self]
  have husedKey : pool.usedAt key = block.used.toNat := by
    rw [hused, Pool.usedAt, hblock]
  obtain ⟨hmemory, hlimit⟩ := hspace.block haccounted hblock
  rw [hafter.hasRoom_iff htaken, husedKey]
  change _ ↔ (_ ∧ _ ≤ key.toNat + (block.size + sizeofBlock).toNat) ∨ _
  rw [Block.room_iff hmemory hlimit hfits]
  exact haccounted.toLinked.suffices_found hfirst hblock nullThrows

/-- The same in a block that the operating system has just given. -/
theorem Pool.Accounted.suffices_grown_iff (hos : os.InSpace) {ready : Pool} {front : List Word}
    {last base : Word} {keys' : List Word} (haccounted : ready.Accounted (front ++ [last]))
    {size alignment : Word}
    (hfirst : ready.firstPassing size alignment (front ++ [last]) = none)
    (hbase : base ≠ nullptr)
    (hanswer : ready.nextMapping os (newBlockSize size) = some base)
    (hafter : (ready.grow last base size alignment).Accounted keys')
    (hused : pool.usedAt base = ready.usedAt base) (nullThrows : Prop) :
    ready.Suffices os size alignment nullThrows ↔
      pool.HasRoom (ready.grow last base size alignment) base
          (alignUp (base + sizeofBlock) alignment) size.toNat ∨
        nullThrows ∧ alignUp (base + sizeofBlock) alignment = nullptr := by
  have hfresh := haccounted.not_mem hos.toFreshRegions hanswer
  obtain ⟨-, -, -, lastBlock, -, hheap⟩ :=
    haccounted.toLinked.grow hbase hfresh size alignment
  have hnew : (ready.grow last base size alignment).heap base =
      some ((Block.fresh base (newBlockSize size)).take size alignment) := by
    rw [hheap, Function.update_self]
  have husedBase : pool.usedAt base = 0 := by
    rw [hused, Pool.usedAt, haccounted.toLinked.heap_eq_none hfresh]
  obtain ⟨⟨pages, hpages⟩, hlimit⟩ := hos.placed _ _ _ _ hanswer
  have hroom : base.toNat + 32 < 2 ^ 64 := by
    have hpages : base.toNat = 4096 * pages := hpages
    omega
  rw [hafter.hasRoom_iff hnew, husedBase]
  change _ ↔ (_ ∧ _ ≤ base.toNat + (newBlockSize size + sizeofBlock).toNat) ∨ _
  rw [Nat.add_zero, newBlock_room_iff hroom hlimit,
    haccounted.toLinked.suffices_grown hfirst, hanswer]
  constructor
  · intro hsuffices
    exact hsuffices base rfl
  · intro hsuffices base' hbase'
    obtain rfl := Option.some.inj hbase'
    exact hsuffices

/-- What the arithmetic decides about a call of `Allocate` that can begin. -/
theorem Pool.InSpace.chunk_cases (hos : os.InSpace) (hspace : pool.InSpace)
    {keys : List Word} (haccounted : pool.Accounted keys) (hready : pool.Ready os)
    (size alignment : Word) :
    (Domovoy.allocate os size alignment pool).1 = .error .badAlloc ∧
        (∀ nullThrows, (ensureHead os pool).2.Suffices os size alignment nullThrows) ∨
      ∃ ptr, (Domovoy.allocate os size alignment pool).1 = .ok ptr ∧ ∀ nullThrows,
        (ensureHead os pool).2.Suffices os size alignment nullThrows ↔
          pool.HasRoom (Domovoy.allocate os size alignment pool).2
              (pool.blockFor os size alignment) ptr size.toNat ∨
            nullThrows ∧ ptr = nullptr := by
  obtain ⟨_, after, keys'', hallocate, hafter, -⟩ :=
    haccounted.allocate hos.toFreshRegions size alignment
  have hstarted := hspace.initializePool hos minBlockSize
  have hbegins := (ensureHead_ok_iff os pool).mpr hready
  rcases haccounted.initializePool hos.toFreshRegions minBlockSize with
    ⟨ready, keys', hresult, hkeys, hne⟩ | ⟨refused, hresult, -⟩
  · rw [hresult] at hstarted
    rw [← ensureHead_eq_initializePool] at hresult
    have hused := haccounted.toLinked.usedAt_ready hresult
    rw [hresult]
    rcases hkeys.toLinked.allocate_ends hos.toFreshRegions size alignment hresult with
      ⟨key, block, hfirst, hblock, hfits, hends, hserves⟩ |
        ⟨hfirst, ⟨hrefused, hends⟩ | ⟨base, hbase, hanswer, hends, hserves⟩⟩
    · rw [hends] at hallocate ⊢
      obtain rfl := (Prod.mk.inj hallocate).2
      refine Or.inr ⟨_, rfl, fun nullThrows => ?_⟩
      rw [hserves]
      exact hstarted.suffices_found_iff hkeys hfirst hblock hfits hafter (hused key) nullThrows
    · refine Or.inl ⟨by rw [hends], fun nullThrows => ?_⟩
      rw [hkeys.toLinked.suffices_grown hfirst, hrefused]
      intro base hanswer
      contradiction
    · rw [hends] at hallocate ⊢
      obtain rfl := (Prod.mk.inj hallocate).2
      obtain ⟨front, last, rfl⟩ := List.eq_nil_or_concat' keys' |>.resolve_left hne
      rw [List.getLastD_concat] at hafter ⊢
      refine Or.inr ⟨_, rfl, fun nullThrows => ?_⟩
      rw [hserves]
      exact hkeys.suffices_grown_iff hos hfirst hbase hanswer hafter (hused base) nullThrows
  · rw [← ensureHead_eq_initializePool] at hresult
    rw [hresult] at hbegins
    contradiction

/-- Without a first block `Allocate` throws. -/
theorem Pool.Accounted.allocate_of_not_ready (hos : os.FreshRegions) {keys : List Word}
    (haccounted : pool.Accounted keys) (hready : ¬ pool.Ready os) (size alignment : Word) :
    (Domovoy.allocate os size alignment pool).1 = .error .badAlloc := by
  rw [← ensureHead_ok_iff, ensureHead_eq_initializePool] at hready
  rcases haccounted.initializePool hos minBlockSize with
    ⟨ready, keys', hresult, -⟩ | ⟨after, hresult, -⟩
  · rw [hresult] at hready
    contradiction
  · rw [← ensureHead_eq_initializePool] at hresult
    simp [Domovoy.allocate, hresult]

theorem Pool.InSpace.allocate_meets_iff (hos : os.InSpace) (hspace : pool.InSpace)
    {keys : List Word} (haccounted : pool.Accounted keys) (size alignment : Word) :
    pool.Meets os (.allocate size alignment) ↔
      pool.WithinLimits os (.allocate size alignment) := by
  simp only [Meets, WithinLimits]
  by_cases hready : pool.Ready os
  · simp only [hready, true_implies]
    rcases hspace.chunk_cases hos haccounted hready size alignment with
      ⟨hresult, hsuffices⟩ | ⟨ptr, hresult, hiff⟩
    · exact iff_of_true (Or.inl hresult) (hsuffices False)
    · rw [hiff, hresult]
      simp
  · exact iff_of_true
      (Or.inl (haccounted.allocate_of_not_ready hos.toFreshRegions hready size alignment))
      fun habsurd => absurd habsurd hready

/-- The count that `allocate(n)` lets pass does not wrap. -/
theorem toNat_mul_of_le_div {n sizeofT : Word} (hcount : n ≤ maxSize / sizeofT) :
    (n * sizeofT).toNat = n.toNat * sizeofT.toNat := by
  have hmax : maxSize.toNat = 2 ^ 64 - 1 := rfl
  rw [BitVec.le_def, BitVec.toNat_udiv, hmax] at hcount
  have hle := Nat.mul_le_of_le_div _ _ _ hcount
  rw [BitVec.toNat_mul, Nat.mod_eq_of_lt (by omega)]

theorem Pool.InSpace.stlAllocate_meets_iff (hos : os.InSpace) (hspace : pool.InSpace)
    {keys : List Word} (haccounted : pool.Accounted keys) (request : StlRequest) :
    pool.Meets os (.stlAllocate request) ↔ pool.WithinLimits os (.stlAllocate request) := by
  simp only [Meets, WithinLimits, Domovoy.stlAllocate]
  by_cases hcount : maxSize / request.sizeofT < request.n
  · rw [if_pos hcount]
    exact iff_of_true (Or.inl rfl) fun hle => absurd hcount (BitVec.not_lt.mpr hle)
  · have hle := BitVec.not_lt.mp hcount
    rw [if_neg hcount, ← toNat_mul_of_le_div hle]
    simp only [hle, true_implies]
    by_cases hready : pool.Ready os
    · simp only [hready, true_implies]
      rcases hspace.chunk_cases hos haccounted hready (request.n * request.sizeofT)
        request.alignofT with ⟨hresult, hsuffices⟩ | ⟨ptr, hresult, hiff⟩
      · refine iff_of_true (Or.inl ?_) (hsuffices True)
        rcases hallocate : Domovoy.allocate os (request.n * request.sizeofT)
          request.alignofT pool with ⟨result, after⟩
        rw [hallocate] at hresult
        obtain rfl := hresult
        rfl
      · rw [hiff]
        rcases hallocate : Domovoy.allocate os (request.n * request.sizeofT)
          request.alignofT pool with ⟨result, after⟩
        rw [hallocate] at hresult
        obtain rfl := hresult
        by_cases hnull : ptr = nullptr
        · simp [hnull]
        · simp [hnull]
    · refine iff_of_true (Or.inl ?_) fun habsurd => absurd habsurd hready
      have hresult := haccounted.allocate_of_not_ready hos.toFreshRegions hready
        (request.n * request.sizeofT) request.alignofT
      rcases hallocate : Domovoy.allocate os (request.n * request.sizeofT)
        request.alignofT pool with ⟨result, after⟩
      rw [hallocate] at hresult
      obtain rfl := hresult
      rfl

/-- The first block's memory is mapped if and only if its length did not wrap. -/
theorem Pool.blockMapped_first {base size : Word}
    (hplaced : Region.InSpace ⟨base, size + sizeofBlock⟩)
    (hafter : Pool.Accounted { pool.mapBlock base size with headBlock := base } [base]) :
    Pool.BlockMapped { pool.mapBlock base size with headBlock := base } base ↔
      size.toNat + 32 < 2 ^ 64 := by
  have hheader : sizeofBlock.toNat = 32 := rfl
  have hblock : ({ pool.mapBlock base size with headBlock := base } : Pool).heap base =
      some (Block.fresh base size) := Function.update_self ..
  obtain ⟨⟨pages, hpages⟩, hlimit⟩ := hplaced
  have hpages : base.toNat = 4096 * pages := hpages
  have hmemory : (base + sizeofBlock).toNat = base.toNat + 32 := by
    rw [BitVec.toNat_add, hheader, Nat.mod_eq_of_lt (by omega)]
  have hlength : (size + sizeofBlock).toNat = (size.toNat + 32) % 2 ^ 64 := by
    rw [BitVec.toNat_add, hheader]
  have hsize := size.isLt
  constructor
  · rintro ⟨block, hblock', region, hregion, hbase, -, hhigh⟩
    obtain rfl := Option.some.inj (hblock.symm.trans hblock')
    rw [hafter.region_eq hregion, hbase, Pool.regionAt_eq hblock] at hhigh
    change (base + sizeofBlock).toNat + size.toNat ≤
      base.toNat + (size + sizeofBlock).toNat at hhigh
    omega
  · intro hunwrapped
    refine ⟨Block.fresh base size, hblock, ⟨base, size + sizeofBlock⟩,
      List.mem_append_right _ List.mem_cons_self, rfl, ?_, ?_⟩
    · change base.toNat ≤ (base + sizeofBlock).toNat
      omega
    · change (base + sizeofBlock).toNat + size.toNat ≤
        base.toNat + (size + sizeofBlock).toNat
      omega

theorem Pool.Accounted.initializePool_meets_iff (hos : os.InSpace) {keys : List Word}
    (haccounted : pool.Accounted keys) (capacity : Word) :
    pool.Meets os (.initializePool capacity) ↔
      pool.WithinLimits os (.initializePool capacity) := by
  have hminimum : minBlockSize.toNat = 2 ^ 21 := rfl
  have hlarge : ¬ capacity.toNat + 32 < 2 ^ 64 → maxWord capacity minBlockSize = capacity := by
    intro hlength
    apply BitVec.eq_of_toNat_eq
    rw [toNat_maxWord, hminimum]
    omega
  simp only [Meets, WithinLimits]
  by_cases hhead : pool.headBlock = nullptr
  · obtain rfl := haccounted.toLinked.nil_iff.mp hhead
    simp only [hhead, true_implies, Domovoy.initializePool, if_true]
    rcases allocateOSBlock_fresh hos.toFreshRegions (maxWord capacity minBlockSize) pool with
      ⟨hrefused, hresult⟩ | ⟨base, hbase, hanswer, hresult⟩
    · rw [hresult]
      refine iff_of_true (Or.inl rfl) ?_
      by_cases hlength : capacity.toNat + 32 < 2 ^ 64
      · exact Or.inl hlength
      · rw [hlarge hlength] at hrefused
        exact Or.inr hrefused
    · rw [hresult]
      have hplaced := hos.placed _ _ _ _ hanswer
      have hafter := haccounted.mapHead hos.toFreshRegions hbase hanswer
      simp only [reduceCtorEq, false_or, true_and]
      rw [Pool.blockMapped_first hplaced hafter]
      constructor
      · intro hlength
        rw [toNat_maxWord] at hlength
        exact Or.inl (by omega)
      · rintro (hlength | hrefused)
        · rw [toNat_maxWord, hminimum]
          omega
        · by_contra hlength
          rw [toNat_maxWord, hminimum] at hlength
          rw [hlarge (by omega)] at hanswer
          rw [Pool.nextMapping, hanswer] at hrefused
          contradiction
  · refine iff_of_true (Or.inr ⟨?_, fun habsurd => absurd habsurd hhead⟩)
      fun habsurd => absurd habsurd hhead
    rw [Domovoy.initializePool, if_neg hhead]

end

/-- In every state that calls with any sizes, alignments and capacities can reach, a
request throws or is met with memory that is there, above what the block had given out, if
and only if the sums on its way do not wrap. -/
theorem pool_limits_iff (os : Mmap) (hos : os.InSpace) (events : List PoolEvent)
    (request : PoolRequest) :
    (Pool.run os events).Meets os request ↔ (Pool.run os events).WithinLimits os request := by
  obtain ⟨keys, haccounted⟩ := Pool.run_accounted hos.toFreshRegions events
  have hspace := Pool.run_inSpace hos events
  cases request with
  | initializePool capacity => exact haccounted.initializePool_meets_iff hos capacity
  | allocate size alignment => exact hspace.allocate_meets_iff hos haccounted size alignment
  | stlAllocate request => exact hspace.stlAllocate_meets_iff hos haccounted request

namespace LimitsWitness

/-- Regions in strides of `2 ^ 40` bytes, of any length that ends before the end of the
address space. -/
def wideMmap : Mmap := fun call mapped length =>
  let address := (call + 1) * 2 ^ 40
  if 0 < length.toNat ∧ address + length.toNat < 2 ^ 64 ∧
      ∀ region ∈ mapped, region.base.toNat + region.length.toNat ≤ address then
    some (BitVec.ofNat 64 address)
  else none

theorem wideMmap_inSpace : wideMmap.InSpace := by
  have hsplit : ∀ call mapped length base, wideMmap call mapped length = some base →
      base.toNat = (call + 1) * 2 ^ 40 ∧ 0 < length.toNat ∧
        base.toNat + length.toNat < 2 ^ 64 ∧
          ∀ region ∈ mapped, region.base.toNat + region.length.toNat ≤ base.toNat := by
    intro call mapped length base hanswer
    simp only [wideMmap, Option.ite_none_right_eq_some, Option.some.injEq] at hanswer
    obtain ⟨⟨hpositive, hfits, hbelow⟩, rfl⟩ := hanswer
    have haddress : (call + 1) * 2 ^ 40 < 2 ^ 64 :=
      Nat.lt_of_le_of_lt (Nat.le_add_right _ _) hfits
    rw [BitVec.toNat_ofNat, Nat.mod_eq_of_lt haddress]
    exact ⟨rfl, hpositive, hfits, hbelow⟩
  refine ⟨.of_above ?_, ?_⟩
  · intro call mapped length base hanswer
    obtain ⟨haddress, hpositive, -, hbelow⟩ := hsplit call mapped length base hanswer
    exact ⟨by omega, hpositive, hbelow⟩
  · intro call mapped length base hanswer
    obtain ⟨haddress, -, hlimit, -⟩ := hsplit call mapped length base hanswer
    refine ⟨⟨(call + 1) * 2 ^ 28, ?_⟩, hlimit⟩
    change base.toNat = _
    omega

theorem huge_limits_iff :
    (Pool.run wideMmap [.initializePool 0x400000]).Meets wideMmap
        (.allocate 0x8000000000000000 8) ↔
      (Pool.run wideMmap [.initializePool 0x400000]).WithinLimits wideMmap
        (.allocate 0x8000000000000000 8) :=
  pool_limits_iff wideMmap wideMmap_inSpace _ _

/-- Twice `2 ^ 63` is zero: the chunk of `2 ^ 63` bytes is handed out of a new block of
2 MiB, and no block has room for it. -/
theorem huge_overflows : ∃ ptr, (allocate wideMmap 0x8000000000000000 8 Pool.initial).1 =
    .ok ptr ∧ ∀ key, ¬ Pool.initial.HasRoom
      (allocate wideMmap 0x8000000000000000 8 Pool.initial).2 key ptr (2 ^ 63) := by
  refine ⟨0x20000000020, by decide +kernel, ?_⟩
  rintro key ⟨region, hregion, rfl, hlow, hhigh⟩
  have hshort : ∀ region ∈ (allocate wideMmap 0x8000000000000000 8 Pool.initial).2.mapped,
      region.length.toNat < 2 ^ 63 := by
    decide
  have hlength := hshort region hregion
  omega

end LimitsWitness

end Domovoy
