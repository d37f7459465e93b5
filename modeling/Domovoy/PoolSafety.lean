/-
Memory safety of the isolated allocator over whole runs: chunks are aligned,
stay inside the memory of one block, and never overlap.
-/
import Mathlib.Data.List.Pairwise
import Domovoy.PoolList

namespace Domovoy

open WordAlign LinkedChain

def Region.range (region : Region) : Set Nat :=
  WordAlign.range region.base.toNat region.length.toNat

def Region.Apart (left right : Region) : Prop :=
  Disjoint left.range right.range

instance : Std.Symm Region.Apart where
  symm _ _ hapart := Disjoint.symm hapart

/-- `mmap` fails or returns a page-aligned region in the lower half of the
address space that is disjoint from the regions already mapped. -/
structure Mmap.FreshLowerHalf (os : Mmap) : Prop where
  pageAligned : ∀ call mapped length base,
    os call mapped length = some base → 4096 ∣ base.toNat
  lowerHalf : ∀ call mapped length base,
    os call mapped length = some base →
      base.toNat + length.toNat ≤ 2 ^ 63
  fresh : ∀ call mapped length base,
    os call mapped length = some base →
      ∀ region ∈ mapped, region.Apart ⟨base, length⟩

/-- The requests of the framework: moderate sizes, aligned within a page. -/
structure ModerateRequest (size alignment : Word) : Prop where
  size : size.toNat ≤ 2 ^ 62
  pow2 : IsPow2 alignment
  alignment : alignment.toNat ≤ 4096

/-- A header describes the region it was mapped in, and its bump pointer has not
passed the end. -/
structure Block.Placed (block : Block) (address : Word) (mapped : List Region) :
    Prop where
  memory : block.memory.toNat = address.toNat + 32
  region : ∃ region ∈ mapped, region.base = address ∧
    region.length.toNat = block.size.toNat + 32
  used : block.used.toNat ≤ block.size.toNat

structure Pool.Placed (pool : Pool) : Prop where
  blocks : ∀ address block, pool.heap address = some block →
    block.Placed address pool.mapped
  lowerHalf : ∀ region ∈ pool.mapped,
    region.base.toNat + region.length.toNat ≤ 2 ^ 63
  apart : pool.mapped.Pairwise Region.Apart

theorem Pool.Placed.bound {pool : Pool} (hplaced : pool.Placed) {address : Word}
    {block : Block} (hblock : pool.heap address = some block) :
    block.memory.toNat + block.size.toNat ≤ 2 ^ 63 := by
  have hheader := hplaced.blocks address block hblock
  obtain ⟨region, hregion, hbase, hlength⟩ := hheader.region
  have hbound := hplaced.lowerHalf region hregion
  have hmemory := hheader.memory
  rw [hbase, hlength] at hbound
  omega

/-- The header of a block together with its memory. -/
def blockRange (address : Word) (block : Block) : Set Nat :=
  WordAlign.range address.toNat (block.size.toNat + 32)

theorem Pool.Placed.blockRange_disjoint {pool : Pool} (hplaced : pool.Placed)
    {left right : Word} {leftBlock rightBlock : Block}
    (hleft : pool.heap left = some leftBlock)
    (hright : pool.heap right = some rightBlock) (hne : left ≠ right) :
    Disjoint (blockRange left leftBlock) (blockRange right rightBlock) := by
  obtain ⟨region, hregion, hbase, hlength⟩ :=
    (hplaced.blocks left leftBlock hleft).region
  obtain ⟨region', hregion', hbase', hlength'⟩ :=
    (hplaced.blocks right rightBlock hright).region
  have hregions : region ≠ region' := by
    intro heq
    apply hne
    rw [← hbase, ← hbase', heq]
  have hapart := hplaced.apart.forall hregion hregion' hregions
  rw [Region.Apart, Region.range, Region.range, hbase, hbase', hlength,
    hlength'] at hapart
  exact hapart

/-- A region that the operating system answers with is not the address of any
block already mapped. -/
theorem Pool.Placed.heap_fresh {pool : Pool} (hplaced : pool.Placed)
    {base length : Word} (hpositive : 0 < length.toNat)
    (hfresh : ∀ region ∈ pool.mapped, region.Apart ⟨base, length⟩) :
    pool.heap base = none := by
  cases hblock : pool.heap base with
  | none => rfl
  | some block =>
      obtain ⟨region, hregion, hbase, hlength⟩ :=
        (hplaced.blocks base block hblock).region
      have hapart := hfresh region hregion
      rw [Region.Apart, Region.range, Region.range, hbase, hlength,
        Set.disjoint_left] at hapart
      refine absurd ?_ (hapart (a := base.toNat) ?_)
      · exact ⟨Nat.le_refl _, Nat.lt_add_of_pos_right hpositive⟩
      · exact ⟨Nat.le_refl _, by omega⟩

/-- Where the padding ends, if nothing wraps on the way there. -/
theorem Block.toNat_alignedAddr {block : Block} {alignment : Word}
    (hroom : block.memory.toNat + block.used.toNat + (block.padding alignment).toNat <
      2 ^ 64) :
    (block.alignedAddr alignment).toNat =
      block.memory.toNat + block.used.toNat + (block.padding alignment).toNat := by
  have hbump : (block.memory + block.used).toNat =
      block.memory.toNat + block.used.toNat := by
    rw [BitVec.toNat_add, Nat.mod_eq_of_lt (by omega)]
  rw [← hbump]
  apply toNat_alignUp_eq
  rw [hbump]
  exact hroom

/-- Room arithmetic of a placed block: nothing wraps, so the fit test and the
bump agree with their unbounded readings. -/
theorem Block.take_room (block : Block) {size alignment : Word}
    (hrequest : ModerateRequest size alignment)
    (hbound : block.memory.toNat + block.size.toNat ≤ 2 ^ 63)
    (hused : block.used.toNat ≤ block.size.toNat) :
    (block.alignedAddr alignment).toNat = block.memory.toNat +
        block.used.toNat + (block.padding alignment).toNat ∧
      (block.padding alignment).toNat < alignment.toNat ∧
      (block.fits size alignment ↔ block.used.toNat +
        (block.padding alignment).toNat + size.toNat ≤ block.size.toNat) ∧
      (block.take size alignment).used.toNat = block.used.toNat +
        (block.padding alignment).toNat + size.toNat := by
  have hsize := hrequest.size
  have halignment := hrequest.alignment
  have hbump : (block.memory + block.used).toNat =
      block.memory.toNat + block.used.toNat := by
    rw [BitVec.toNat_add, Nat.mod_eq_of_lt (by omega)]
  have hroom : (block.memory + block.used).toNat + alignment.toNat ≤ 2 ^ 64 := by
    omega
  obtain ⟨hpadding, hshort⟩ := toNat_padding hrequest.pow2 hroom
  have hpad : (block.padding alignment).toNat < alignment.toNat := hshort
  have hsum : (block.used + block.padding alignment + size).toNat =
      block.used.toNat + (block.padding alignment).toNat + size.toNat := by
    rw [BitVec.toNat_add, BitVec.toNat_add,
      Nat.mod_eq_of_lt (by omega), Nat.mod_eq_of_lt (by omega)]
  have htake : (block.take size alignment).used =
      block.used + block.padding alignment + size := by
    rw [Block.take, BitVec.add_assoc]
  refine ⟨?_, hpad, ?_, ?_⟩
  · rw [← hbump]
    exact hpadding.symm
  · rw [Block.fits, BitVec.le_def, hsum]
  · rw [htake, hsum]

/-- A chunk handed out by `Allocate`, with the request it answers. -/
structure Grant where
  ptr : Word
  size : Word
  alignment : Word
deriving DecidableEq, Repr

def Grant.range (grant : Grant) : Set Nat :=
  WordAlign.range grant.ptr.toNat grant.size.toNat

def Grant.Apart (left right : Grant) : Prop :=
  Disjoint left.range right.range

/-- The chunk lies in the part of a block below its bump pointer. -/
def Grant.Inside (grant : Grant) (pool : Pool) : Prop :=
  ∃ address block, pool.heap address = some block ∧
    block.memory.toNat ≤ grant.ptr.toNat ∧
      grant.ptr.toNat + grant.size.toNat ≤
        block.memory.toNat + block.used.toNat

/-- Every block is still there, with the same memory and no lower bump
pointer. -/
def Pool.Grows (before after : Pool) : Prop :=
  ∀ address block, before.heap address = some block →
    ∃ block', after.heap address = some block' ∧
      block'.memory = block.memory ∧ block.used.toNat ≤ block'.used.toNat

theorem Grant.Inside.mono {grant : Grant} {before after : Pool}
    (hinside : grant.Inside before) (hgrows : before.Grows after) :
    grant.Inside after := by
  obtain ⟨address, block, hblock, hlow, hhigh⟩ := hinside
  obtain ⟨block', hblock', hmemory, hused⟩ := hgrows address block hblock
  refine ⟨address, block', hblock', ?_, ?_⟩
  · rw [hmemory]
    exact hlow
  · rw [hmemory]
    omega

/-- The invariant of a run: a well-formed list of placed blocks and the chunks
handed out so far. -/
structure PoolSafe (pool : Pool) (grants : List Grant) : Prop where
  linked : ∃ keys, pool.Linked keys
  placed : pool.Placed
  inside : ∀ grant ∈ grants, grant.Inside pool
  aligned : ∀ grant ∈ grants, grant.alignment.toNat ∣ grant.ptr.toNat
  apart : grants.Pairwise Grant.Apart

theorem poolSafe_initial : PoolSafe Pool.initial [] := by
  refine ⟨⟨[], rfl, ?_, Nat.le_refl _⟩, ⟨?_, ?_, List.Pairwise.nil⟩, ?_, ?_,
    List.Pairwise.nil⟩
  all_goals simp [Pool.initial]

/-- Steps that only add blocks or raise bump pointers keep the chunks already
handed out. -/
theorem PoolSafe.of_grows {before after : Pool} {grants : List Grant}
    (hsafe : PoolSafe before grants) (hgrows : before.Grows after)
    (hlinked : ∃ keys, after.Linked keys) (hplaced : after.Placed) :
    PoolSafe after grants :=
  ⟨hlinked, hplaced,
    fun grant hgrant => (hsafe.inside grant hgrant).mono hgrows,
    hsafe.aligned, hsafe.apart⟩

theorem Pool.grows_of_heap_eq {before after : Pool}
    (hheap : after.heap = before.heap) : before.Grows after := by
  intro address block hblock
  exact ⟨block, by rw [hheap, hblock], rfl, Nat.le_refl _⟩

theorem Pool.Grows.trans {first second third : Pool}
    (hfirst : first.Grows second) (hsecond : second.Grows third) :
    first.Grows third := by
  intro address block hblock
  obtain ⟨block', hblock', hmemory, hused⟩ := hfirst address block hblock
  obtain ⟨block'', hblock'', hmemory', hused'⟩ := hsecond address block' hblock'
  exact ⟨block'', hblock'', hmemory'.trans hmemory, Nat.le_trans hused hused'⟩

theorem Pool.grows_writeBlock {pool : Pool} {address : Word} {old new : Block}
    (hold : pool.heap address = some old) (hmemory : new.memory = old.memory)
    (hused : old.used.toNat ≤ new.used.toNat) :
    pool.Grows (pool.writeBlock address new) := by
  intro key block hblock
  by_cases hkey : key = address
  · rw [hkey, hold] at hblock
    obtain rfl := Option.some.inj hblock
    exact ⟨new, by rw [hkey]; simp, hmemory, hused⟩
  · exact ⟨block, by simp [hkey, hblock], rfl, Nat.le_refl _⟩

theorem Pool.grows_mapBlock {pool : Pool} {base : Word}
    (hfresh : pool.heap base = none) (size : Word) :
    pool.Grows (pool.mapBlock base size) := by
  intro address block hblock
  have hne : address ≠ base := by
    intro heq
    rw [heq, hfresh] at hblock
    contradiction
  refine ⟨block, ?_, rfl, Nat.le_refl _⟩
  rw [Pool.mapBlock_heap, Function.update_of_ne hne, hblock]

/-- Mapping a further region keeps the blocks placed. -/
theorem Pool.Placed.addRegion {pool after : Pool} (hplaced : pool.Placed)
    {region : Region}
    (hlower : region.base.toNat + region.length.toNat ≤ 2 ^ 63)
    (hfresh : ∀ other ∈ pool.mapped, other.Apart region)
    (hheap : after.heap = pool.heap)
    (hmapped : after.mapped = pool.mapped ++ [region]) : after.Placed := by
  refine ⟨?_, ?_, ?_⟩
  · intro address block hblock
    rw [hheap] at hblock
    have hheader := hplaced.blocks address block hblock
    obtain ⟨owner, howner, howned⟩ := hheader.region
    refine ⟨hheader.memory, ⟨owner, ?_, howned⟩, hheader.used⟩
    rw [hmapped]
    exact List.mem_append_left _ howner
  · intro other hother
    rw [hmapped, List.mem_append, List.mem_singleton] at hother
    rcases hother with hother | rfl
    · exact hplaced.lowerHalf other hother
    · exact hlower
  · rw [hmapped, List.pairwise_append]
    refine ⟨hplaced.apart, List.pairwise_singleton _ _, ?_⟩
    intro left hleft right hright
    rw [List.mem_singleton] at hright
    rw [hright]
    exact hfresh left hleft

theorem Pool.Placed.writeBlock {pool : Pool} (hplaced : pool.Placed)
    {address : Word} {new : Block} (hnew : new.Placed address pool.mapped) :
    (pool.writeBlock address new).Placed := by
  refine ⟨?_, hplaced.lowerHalf, hplaced.apart⟩
  intro key block hblock
  by_cases hkey : key = address
  · rw [hkey, Pool.writeBlock_heap, Function.update_self] at hblock
    rw [hkey, ← Option.some.inj hblock]
    exact hnew
  · rw [Pool.writeBlock_heap, Function.update_of_ne hkey] at hblock
    exact hplaced.blocks key block hblock

/-- A block mapped where the operating system says is placed, and its address
was not in use. -/
theorem Pool.Placed.mapBlock {os : Mmap} (hos : os.FreshLowerHalf) {pool : Pool}
    (hplaced : pool.Placed) {base size : Word} (hsize : size.toNat ≤ 2 ^ 63)
    (hanswer : os pool.mmapCalls pool.mapped (size + sizeofBlock) = some base) :
    (pool.mapBlock base size).Placed ∧ pool.heap base = none := by
  have hheader : sizeofBlock.toNat = 32 := rfl
  have htotal : (size + sizeofBlock).toNat = size.toNat + 32 := by
    rw [BitVec.toNat_add, hheader, Nat.mod_eq_of_lt (by omega)]
  have hlower := hos.lowerHalf _ _ _ _ hanswer
  have hfresh := hos.fresh _ _ _ _ hanswer
  have hgrown : (pool.addRegion ⟨base, size + sizeofBlock⟩).Placed :=
    hplaced.addRegion hlower hfresh rfl rfl
  have hregion : ⟨base, size + sizeofBlock⟩ ∈
      (pool.addRegion ⟨base, size + sizeofBlock⟩).mapped :=
    List.mem_append_right _ List.mem_cons_self
  refine ⟨hgrown.writeBlock ⟨?_, ⟨_, hregion, rfl, htotal⟩, Nat.zero_le _⟩,
    hplaced.heap_fresh (by omega) hfresh⟩
  change (base + sizeofBlock).toNat = base.toNat + 32
  rw [BitVec.toNat_add, hheader, Nat.mod_eq_of_lt (by omega)]

/-- A refused mapping leaves a safe pool safe. -/
theorem PoolSafe.refused {os : Mmap} (hos : os.FreshLowerHalf)
    {pool refused : Pool} {grants : List Grant} {length : Word}
    (hsafe : PoolSafe pool grants) (hhead : refused.headBlock = pool.headBlock)
    (hheap : refused.heap = pool.heap)
    (hmapped : refused.mapped = pool.mapped ∨
      ∃ base, os pool.mmapCalls pool.mapped length = some base ∧
        refused.mapped = pool.mapped ++ [⟨base, length⟩]) :
    PoolSafe refused grants := by
  have hlonger : pool.mapped.length ≤ refused.mapped.length := by
    rcases hmapped with hmapped | ⟨base, _, hmapped⟩
    · exact Nat.le_of_eq (by rw [hmapped])
    · simp [hmapped]
  apply hsafe.of_grows (Pool.grows_of_heap_eq hheap)
  · obtain ⟨keys, hlinked⟩ := hsafe.linked
    refine ⟨keys, ?_, ?_, Nat.le_trans hlinked.short hlonger⟩
    · rw [hheap, hhead]
      exact hlinked.chain
    · rw [hheap]
      exact hlinked.complete
  · rcases hmapped with hmapped | ⟨base, hanswer, hmapped⟩
    · refine ⟨?_, ?_, ?_⟩
      · rw [hheap, hmapped]
        exact hsafe.placed.blocks
      · rw [hmapped]
        exact hsafe.placed.lowerHalf
      · rw [hmapped]
        exact hsafe.placed.apart
    · exact hsafe.placed.addRegion (hos.lowerHalf _ _ _ _ hanswer)
        (hos.fresh _ _ _ _ hanswer) hheap hmapped

theorem initializePool_safe {os : Mmap} (hos : os.FreshLowerHalf) {pool : Pool}
    {grants : List Grant} (hsafe : PoolSafe pool grants) {capacity : Word}
    (hcapacity : capacity.toNat ≤ 2 ^ 62) :
    (∃ after, initializePool os capacity pool = (.ok (), after) ∧
        PoolSafe after grants ∧ after.headBlock ≠ nullptr) ∨
      ∃ after, initializePool os capacity pool = (.error .badAlloc, after) ∧
        PoolSafe after grants := by
  by_cases hhead : pool.headBlock = nullptr
  · have hminimum : minBlockSize.toNat = 2 ^ 21 := rfl
    have hsize : (maxWord capacity minBlockSize).toNat ≤ 2 ^ 63 := by
      rw [toNat_maxWord, hminimum]
      omega
    rcases allocateOSBlock_cases os (maxWord capacity minBlockSize) pool with
      ⟨refused, hresult, hrefusedHead, hheap, hmapped⟩ | ⟨base, hbase, hanswer, hresult⟩
    · right
      exact ⟨refused, by simp [initializePool, hhead, hresult],
        hsafe.refused hos hrefusedHead hheap hmapped⟩
    · left
      obtain ⟨keys, hlinked⟩ := hsafe.linked
      obtain rfl := hlinked.nil_iff.mp hhead
      obtain ⟨hplaced, hfresh⟩ := hsafe.placed.mapBlock hos hsize hanswer
      refine ⟨_, by simp [initializePool, hhead, hresult]; rfl, ?_, hbase⟩
      apply hsafe.of_grows
      · exact Pool.grows_mapBlock hfresh _
      · exact ⟨[base], hlinked.mapHead hbase⟩
      · exact ⟨hplaced.blocks, hplaced.lowerHalf, hplaced.apart⟩
  · left
    exact ⟨pool, by simp [initializePool, hhead], hsafe, hhead⟩

/-- Auto-initialisation is initialisation with the minimum capacity. -/
theorem ensureHead_eq_initializePool (os : Mmap) (pool : Pool) :
    ensureHead os pool = initializePool os minBlockSize pool := rfl

/-- A chunk carved above the bump pointer of a block meets no earlier chunk. -/
theorem PoolSafe.take {pool : Pool} {grants : List Grant}
    (hsafe : PoolSafe pool grants) {key size alignment : Word} {block : Block}
    (hrequest : ModerateRequest size alignment)
    (hblock : pool.heap key = some block) (hfits : block.fits size alignment) :
    PoolSafe (pool.writeBlock key (block.take size alignment))
      (grants ++ [⟨block.alignedAddr alignment, size, alignment⟩]) := by
  have hheader := hsafe.placed.blocks key block hblock
  have hbound := hsafe.placed.bound hblock
  obtain ⟨haddr, _, hfit, hused⟩ :=
    Block.take_room block hrequest hbound hheader.used
  have hroom := hfit.mp hfits
  have hgrows : pool.Grows (pool.writeBlock key (block.take size alignment)) :=
    Pool.grows_writeBlock hblock rfl (by omega)
  have htaken : (block.take size alignment).Placed key pool.mapped :=
    ⟨hheader.memory, hheader.region, by rw [hused]; exact hroom⟩
  have hold : PoolSafe (pool.writeBlock key (block.take size alignment)) grants := by
    apply hsafe.of_grows hgrows
    · obtain ⟨keys, hlinked⟩ := hsafe.linked
      exact ⟨keys, hlinked.writeBlock hblock rfl⟩
    · exact hsafe.placed.writeBlock htaken
  refine ⟨hold.linked, hold.placed, ?_, ?_, ?_⟩
  · intro grant hgrant
    rcases List.mem_append.mp hgrant with hgrant | hgrant
    · exact hold.inside grant hgrant
    · obtain rfl := List.mem_singleton.mp hgrant
      refine ⟨key, block.take size alignment, by simp, ?_, ?_⟩
      · change block.memory.toNat ≤ (block.alignedAddr alignment).toNat
        omega
      · change (block.alignedAddr alignment).toNat + size.toNat ≤
          block.memory.toNat + (block.take size alignment).used.toNat
        omega
  · intro grant hgrant
    rcases List.mem_append.mp hgrant with hgrant | hgrant
    · exact hold.aligned grant hgrant
    · obtain rfl := List.mem_singleton.mp hgrant
      exact dvd_alignUp hrequest.pow2
  · rw [List.pairwise_append]
    refine ⟨hold.apart, List.pairwise_singleton _ _, ?_⟩
    intro grant hgrant new hnew
    obtain rfl := List.mem_singleton.mp hnew
    obtain ⟨address, other, hother, hlow, hhigh⟩ := hsafe.inside grant hgrant
    by_cases haddress : address = key
    · rw [haddress, hblock] at hother
      obtain rfl := Option.some.inj hother
      apply range_disjoint_of_le
      change grant.ptr.toNat + grant.size.toNat ≤ (block.alignedAddr alignment).toNat
      omega
    · have hotherHeader := hsafe.placed.blocks address other hother
      have hotherMemory := hotherHeader.memory
      have hotherUsed := hotherHeader.used
      have hmemory := hheader.memory
      apply range_disjoint_mono
        (hsafe.placed.blockRange_disjoint hother hblock haddress)
      · exact range_subset_range (by omega) (by omega)
      · apply range_subset_range
        · change key.toNat ≤ (block.alignedAddr alignment).toNat
          omega
        · change (block.alignedAddr alignment).toNat + size.toNat ≤ _
          omega

theorem toNat_newBlockSize {size : Word} (hsize : size.toNat ≤ 2 ^ 62) :
    (newBlockSize size).toNat = max (size.toNat * 2) (2 ^ 21) := by
  have hminimum : minBlockSize.toNat = 2 ^ 21 := rfl
  have hdouble : (size * 2).toNat = size.toNat * 2 := by
    rw [BitVec.toNat_mul]
    exact Nat.mod_eq_of_lt (by change size.toNat * 2 < _; omega)
  rw [newBlockSize, toNat_maxWord, hdouble, hminimum]

/-- A new block of at least twice the request, and at least 2 MiB, has room for
the request after any padding below a page. -/
theorem Block.fits_new (base next : Word) {size alignment : Word}
    (hrequest : ModerateRequest size alignment)
    (hbound : (base + sizeofBlock).toNat +
      (newBlockSize size).toNat ≤ 2 ^ 63) :
    Block.fits { memory := base + sizeofBlock, used := 0, next := next,
                 size := newBlockSize size } size alignment := by
  have hsize := hrequest.size
  have halignment := hrequest.alignment
  have hlarge := toNat_newBlockSize hsize
  obtain ⟨_, hpadding, hfit, _⟩ := Block.take_room
    { memory := base + sizeofBlock, used := 0, next := next,
      size := newBlockSize size } hrequest hbound (Nat.zero_le _)
  apply hfit.mpr
  change 0 + _ + size.toNat ≤ (newBlockSize size).toNat
  omega

/-- Growing the list at its tail and taking the request from the new block. -/
theorem growAndTake_safe {os : Mmap} (hos : os.FreshLowerHalf) {pool : Pool}
    {grants : List Grant} (hsafe : PoolSafe pool grants) {keys : List Word}
    {last size alignment : Word} (hrequest : ModerateRequest size alignment)
    (hlinked : pool.Linked (keys ++ [last])) :
    (∃ ptr after, growAndTake os size alignment last pool = (.ok ptr, after) ∧
        PoolSafe after (grants ++ [⟨ptr, size, alignment⟩])) ∨
      ∃ after, growAndTake os size alignment last pool = (.error .badAlloc, after) ∧
        PoolSafe after grants := by
  have hsize := hrequest.size
  have hnewSize : (newBlockSize size).toNat ≤ 2 ^ 63 := by
    rw [toNat_newBlockSize hsize]
    omega
  rcases allocateOSBlock_cases os (newBlockSize size) pool with
    ⟨refused, hresult, hhead, hheap, hmapped⟩ | ⟨base, hbase, hanswer, hresult⟩
  · right
    exact ⟨refused, growAndTake_of_refused hresult,
      hsafe.refused hos hhead hheap hmapped⟩
  · left
    obtain ⟨hplaced, hfresh⟩ := hsafe.placed.mapBlock hos hnewSize hanswer
    have hbaseNew : base ∉ keys ++ [last] := by
      intro hmem
      obtain ⟨block, hblock⟩ := hlinked.chain.exists_node hmem
      rw [hfresh] at hblock
      contradiction
    obtain ⟨lastBlock, hlastBlock, hlast, hne⟩ := hlinked.exists_last hbaseNew
    have hread : (pool.mapBlock base (newBlockSize size)).heap last =
        some lastBlock := by
      rw [Pool.mapBlock_heap, Function.update_of_ne hne, hlastBlock]
    have hlinkEq : (pool.mapBlock base (newBlockSize size)).linkBlock
        last base = (pool.mapBlock base (newBlockSize size)).writeBlock
          last { lastBlock with next := base } := by
      rw [Pool.linkBlock, if_pos hlast, Pool.modifyBlock_eq hread]
    have hgrown : PoolSafe ((pool.mapBlock base
        (newBlockSize size)).linkBlock last base) grants := by
      apply hsafe.of_grows
      · rw [hlinkEq]
        exact (Pool.grows_mapBlock hfresh _).trans
          (Pool.grows_writeBlock hread rfl (Nat.le_refl _))
      · exact ⟨_, hlinked.mapTail hbase hbaseNew⟩
      · rw [hlinkEq]
        have hheader := hplaced.blocks last lastBlock hread
        exact hplaced.writeBlock ⟨hheader.memory, hheader.region, hheader.used⟩
    have hnew : ((pool.mapBlock base (newBlockSize size)).linkBlock
        last base).heap base = some (Block.fresh base (newBlockSize size)) := by
      rw [Pool.linkBlock_heap _ hlast hne hlastBlock, Function.update_self]
      rfl
    have hfits := Block.fits_new base nullptr hrequest
      (hgrown.placed.bound hnew)
    refine ⟨_, _, growAndTake_of_mapped hresult, ?_⟩
    rw [Pool.grow_eq size alignment hlast hne hlastBlock, ← Block.fresh_alignedAddr]
    exact hgrown.take hrequest hnew hfits

/-- One `Allocate` call: it hands out a chunk that keeps the pool safe, or it
throws `bad_alloc` and hands out nothing. -/
theorem allocate_safe {os : Mmap} (hos : os.FreshLowerHalf) {pool : Pool}
    {grants : List Grant} (hsafe : PoolSafe pool grants) {size alignment : Word}
    (hrequest : ModerateRequest size alignment) :
    (∃ ptr after, allocate os size alignment pool = (.ok ptr, after) ∧
        PoolSafe after (grants ++ [⟨ptr, size, alignment⟩])) ∨
      ∃ after, allocate os size alignment pool = (.error .badAlloc, after) ∧
        PoolSafe after grants := by
  have hminimum : minBlockSize.toNat ≤ 2 ^ 62 := by decide
  rcases initializePool_safe hos hsafe hminimum with
    ⟨ready, hresult, hready, hhead⟩ | ⟨after, hresult, hafter⟩
  · rw [← ensureHead_eq_initializePool] at hresult
    obtain ⟨keys, hlinked⟩ := hready.linked
    have hkeys : keys ≠ [] := fun hnil => hhead (hlinked.nil_iff.mpr hnil)
    rw [allocate_of_ensureHead hresult size alignment]
    rcases hlinked.allocate_cases os size alignment hkeys with
      ⟨_, key, _, block, _, hblock, hfits, _, hfound⟩ | ⟨_, hgrow⟩
    · exact Or.inl ⟨_, _, hfound, hready.take hrequest hblock hfits⟩
    · obtain ⟨front, last, rfl⟩ := List.eq_nil_or_concat' keys |>.resolve_left hkeys
      rw [List.getLastD_concat] at hgrow
      rw [hgrow]
      exact growAndTake_safe hos hready hrequest hlinked
  · right
    rw [← ensureHead_eq_initializePool] at hresult
    exact ⟨after, by simp [allocate, hresult], hafter⟩

/-- The calls of the framework that reach the pool. -/
inductive PoolCall where
  | initializePool (initialCapacityBytes : Word)
  | allocate (size alignment : Word)
deriving DecidableEq, Repr

def PoolCall.Moderate : PoolCall → Prop
  | .initializePool initialCapacityBytes => initialCapacityBytes.toNat ≤ 2 ^ 62
  | .allocate size alignment => ModerateRequest size alignment

/-- The pool and every chunk it has handed out, in order. -/
structure PoolHistory where
  pool : Pool
  grants : List Grant

/-- One call under the lock; a call that throws hands out nothing. -/
def PoolHistory.call (os : Mmap) (history : PoolHistory) : PoolCall → PoolHistory
  | .initializePool initialCapacityBytes =>
      { history with
        pool := (initializePool os initialCapacityBytes history.pool).2 }
  | .allocate size alignment =>
      match allocate os size alignment history.pool with
      | (.ok ptr, pool) => ⟨pool, history.grants ++ [⟨ptr, size, alignment⟩]⟩
      | (.error _, pool) => { history with pool := pool }

/-- Any sequence of calls, in the order in which the lock serialises them. -/
def PoolHistory.run (os : Mmap) (calls : List PoolCall) : PoolHistory :=
  calls.foldl (PoolHistory.call os) ⟨Pool.initial, []⟩

theorem PoolHistory.call_safe {os : Mmap} (hos : os.FreshLowerHalf)
    {history : PoolHistory} (hsafe : PoolSafe history.pool history.grants)
    {call : PoolCall} (hcall : call.Moderate) :
    PoolSafe (history.call os call).pool (history.call os call).grants := by
  cases call with
  | initializePool capacity =>
      rcases initializePool_safe hos hsafe hcall with
        ⟨after, hresult, hafter, _⟩ | ⟨after, hresult, hafter⟩
      all_goals
        simp only [PoolHistory.call, hresult]
        exact hafter
  | allocate size alignment =>
      rcases allocate_safe hos hsafe hcall with
        ⟨ptr, after, hresult, hafter⟩ | ⟨after, hresult, hafter⟩
      all_goals
        simp only [PoolHistory.call, hresult]
        exact hafter

theorem PoolHistory.run_safe {os : Mmap} (hos : os.FreshLowerHalf)
    (calls : List PoolCall) (hcalls : ∀ call ∈ calls, call.Moderate) :
    PoolSafe (PoolHistory.run os calls).pool (PoolHistory.run os calls).grants := by
  induction calls using List.reverseRecOn with
  | nil => exact poolSafe_initial
  | append_singleton calls call ih =>
      have hbefore := ih fun other hother =>
        hcalls other (List.mem_append_left [call] hother)
      rw [PoolHistory.run, List.foldl_append]
      exact PoolHistory.call_safe hos hbefore (hcalls call (by simp))

/-- `block` is the header at `address` on the list from `headBlock`. -/
def Pool.OnList (pool : Pool) (address : Word) (block : Block) : Prop :=
  ∃ keys, Chain Block.next nullptr pool.heap pool.headBlock keys ∧
    address ∈ keys ∧ pool.heap address = some block

/-- What a client of the pool relies on. -/
structure PoolHistory.MemorySafe (history : PoolHistory) : Prop where
  used_le_size : ∀ address block, history.pool.OnList address block →
    block.used.toNat ≤ block.size.toNat
  aligned : ∀ grant ∈ history.grants, grant.alignment.toNat ∣ grant.ptr.toNat
  inside_block : ∀ grant ∈ history.grants, ∃ address block,
    history.pool.OnList address block ∧
      block.memory.toNat ≤ grant.ptr.toNat ∧
        grant.ptr.toNat + grant.size.toNat ≤
          block.memory.toNat + block.size.toNat
  off_headers : ∀ grant ∈ history.grants, ∀ address block,
    history.pool.OnList address block →
      Disjoint grant.range (WordAlign.range address.toNat sizeofBlock.toNat)
  apart : history.grants.Pairwise Grant.Apart

theorem Grant.Inside.off_header {grant : Grant} {pool : Pool}
    (hinside : grant.Inside pool) (hplaced : pool.Placed) {address : Word}
    {block : Block} (hblock : pool.heap address = some block) :
    Disjoint grant.range (WordAlign.range address.toNat sizeofBlock.toNat) := by
  have hheader : sizeofBlock.toNat = 32 := rfl
  obtain ⟨owner, ownerBlock, howner, hlow, hhigh⟩ := hinside
  have hplacedOwner := hplaced.blocks owner ownerBlock howner
  have hmemory := hplacedOwner.memory
  have hused := hplacedOwner.used
  by_cases haddress : address = owner
  · apply Disjoint.symm
    apply range_disjoint_of_le
    rw [haddress, hheader]
    omega
  · apply range_disjoint_mono
      (hplaced.blockRange_disjoint howner hblock (Ne.symm haddress))
    · exact range_subset_range (by omega) (by omega)
    · exact range_subset_range (Nat.le_refl _) (by omega)

/-- Every run of moderate calls is memory safe. -/
theorem poolRun_memorySafe (os : Mmap) (hos : os.FreshLowerHalf)
    (calls : List PoolCall) (hcalls : ∀ call ∈ calls, call.Moderate) :
    (PoolHistory.run os calls).MemorySafe := by
  have hsafe := PoolHistory.run_safe hos calls hcalls
  refine ⟨?_, hsafe.aligned, ?_, ?_, hsafe.apart⟩
  · rintro address block ⟨_, _, _, hblock⟩
    exact (hsafe.placed.blocks address block hblock).used
  · intro grant hgrant
    obtain ⟨keys, hlinked⟩ := hsafe.linked
    obtain ⟨address, block, hblock, hlow, hhigh⟩ := hsafe.inside grant hgrant
    have hused := (hsafe.placed.blocks address block hblock).used
    exact ⟨address, block,
      ⟨keys, hlinked.chain, hlinked.complete address block hblock, hblock⟩,
      hlow, by omega⟩
  · rintro grant hgrant address block ⟨_, _, _, hblock⟩
    exact (hsafe.inside grant hgrant).off_header hsafe.placed hblock

namespace PoolWitness

/-- An operating system that maps upwards in strides of `2 ^ 40` bytes. -/
def strideMmap : Mmap := fun call mapped length =>
  let base : Word := BitVec.ofNat 64 ((call + 1) * 2 ^ 40)
  if base.toNat + length.toNat ≤ 2 ^ 63 ∧
      ∀ region ∈ mapped, region.base.toNat + region.length.toNat ≤ base.toNat then
    some base
  else none

theorem strideMmap_fresh : strideMmap.FreshLowerHalf := by
  refine ⟨?_, ?_, ?_⟩
  · intro call mapped length base hanswer
    simp only [strideMmap, Option.ite_none_right_eq_some, Option.some.injEq] at hanswer
    rw [← hanswer.2, BitVec.toNat_ofNat,
      Nat.dvd_mod_iff (show 4096 ∣ 2 ^ 64 by decide)]
    exact Dvd.dvd.mul_left (by decide) _
  · intro call mapped length base hanswer
    simp only [strideMmap, Option.ite_none_right_eq_some, Option.some.injEq] at hanswer
    rw [← hanswer.2]
    exact hanswer.1.1
  · intro call mapped length base hanswer region hregion
    simp only [strideMmap, Option.ite_none_right_eq_some, Option.some.injEq] at hanswer
    apply range_disjoint_of_le
    change _ ≤ base.toNat
    rw [← hanswer.2]
    exact hanswer.1.2 region hregion

def calls : List PoolCall :=
  [.initializePool (1024 * 1024), .allocate 128 16, .allocate (4 * 1024 * 1024) 4096,
    .allocate 24 8]

theorem calls_moderate : ∀ call ∈ calls, call.Moderate := by
  intro call hcall
  simp only [calls, List.mem_cons, List.not_mem_nil, or_false] at hcall
  rcases hcall with rfl | rfl | rfl | rfl
  · change _ ≤ _
    decide
  · exact ⟨by decide, ⟨4, by decide, by decide⟩, by decide⟩
  · exact ⟨by decide, ⟨12, by decide, by decide⟩, by decide⟩
  · exact ⟨by decide, ⟨3, by decide, by decide⟩, by decide⟩

/-- The second chunk does not fit the first block and lands in a block of its
own; the third goes back to the first block. -/
example : (PoolHistory.run strideMmap calls).grants.map Grant.ptr =
    [0x10000000020, 0x20000001000, 0x100000000a0] := by
  decide

theorem calls_memorySafe : (PoolHistory.run strideMmap calls).MemorySafe :=
  poolRun_memorySafe strideMmap strideMmap_fresh calls calls_moderate

end PoolWitness

end Domovoy
