/-
`Allocate` next to first fit: the walk over the blocks with its mask rounding and its
wrapping test against the declarative choice of an arena.
-/
import Domovoy.FirstFit
import Domovoy.PoolSafety
import Domovoy.StlAllocator

namespace Domovoy

open WordAlign LinkedChain FirstFit

/-- A block as an arena; its link is left out. -/
def Block.arena (address : Word) (block : Block) : Arena Word where
  key := address
  start := block.memory.toNat
  capacity := block.size.toNat
  used := block.used.toNat

/-- The blocks of the list as arenas, in list order. -/
def Pool.arenas (pool : Pool) (keys : List Word) : List (Arena Word) :=
  keys.filterMap fun key => (pool.heap key).map (Block.arena key)

/-- A block below its bump pointer, no larger than one that is mapped for `2 ^ 62` bytes
and not at the end of the address space; among them are all in its lower half. -/
structure Block.Bounded (block : Block) : Prop where
  used : block.used.toNat ≤ block.size.toNat
  size : block.size.toNat ≤ 2 ^ 63
  limit : block.memory.toNat + block.size.toNat < 2 ^ 64

/-- The blocks of the pools that the framework reaches are bounded. -/
theorem Pool.Placed.bounded {pool : Pool} (hplaced : pool.Placed) {address : Word}
    {block : Block} (hblock : pool.heap address = some block) : block.Bounded := by
  have hused := (hplaced.blocks address block hblock).used
  have hlower := hplaced.bound hblock
  exact ⟨hused, by omega, by omega⟩

/-- The operating system maps a block of the size where the pool has none. -/
def Pool.MapsFresh (os : Mmap) (size : Word) (pool : Pool) : Prop :=
  ∃ base, pool.nextMapping os size = some base ∧ base ≠ nullptr ∧
    pool.heap base = none ∧ base.toNat + 32 + size.toNat < 2 ^ 64

/-- An empty list is given one block of 2 MiB first. -/
inductive Pool.Started (os : Mmap) (pool : Pool) : List Word → Pool → List Word → Prop
  | already {keys : List Word} (hkeys : keys ≠ []) : Started os pool keys pool keys
  | first {base : Word} (hbase : pool.nextMapping os minBlockSize = some base) :
      Started os pool [] { pool.mapBlock base minBlockSize with headBlock := base } [base]

/-- The result of first fit on the arenas, with the mappings it makes: none for an arena
of the list, one for a new one behind them. -/
def Pool.FitsFirst (size alignment : Word) (pool : Pool) (keys : List Word) (ptr : Word)
    (after : Pool) (keys' : List Word) : Prop :=
  FirstFit.Placed size.toNat alignment.toNat (pool.arenas keys) ptr.toNat
        (after.arenas keys') ∧
      keys' = keys ∧ after.mapped = pool.mapped ∧ after.mmapCalls = pool.mmapCalls ∨
    FirstFit.Grown size.toNat alignment.toNat (pool.arenas keys) ptr.toNat
        (after.arenas keys') ∧
      ∃ base, keys' = keys ++ [base] ∧
        after.mapped = pool.mapped ++ [⟨base, newBlockSize size + sizeofBlock⟩] ∧
        after.mmapCalls = pool.mmapCalls + 1

section

variable {pool : Pool} {size alignment : Word}

theorem Pool.arenas_append (pool : Pool) (keys keys' : List Word) :
    pool.arenas (keys ++ keys') = pool.arenas keys ++ pool.arenas keys' :=
  List.filterMap_append

theorem Pool.arenas_cons {key : Word} {block : Block} (hblock : pool.heap key = some block)
    (keys : List Word) : pool.arenas (key :: keys) = block.arena key :: pool.arenas keys := by
  rw [Pool.arenas, List.filterMap_cons_some (by rw [hblock]; rfl)]
  rfl

theorem Pool.mem_arenas {keys : List Word} {arena : Arena Word} :
    arena ∈ pool.arenas keys ↔
      ∃ key ∈ keys, ∃ block, pool.heap key = some block ∧ block.arena key = arena := by
  simp only [Pool.arenas, List.mem_filterMap, Option.map_eq_some_iff]

/-- The arenas do not depend on the links, nor on blocks that are not listed. -/
theorem Pool.arenas_congr {after : Pool} {keys : List Word}
    (hsame : ∀ key ∈ keys, (after.heap key).map (Block.arena key) =
      (pool.heap key).map (Block.arena key)) : after.arenas keys = pool.arenas keys :=
  List.filterMap_congr hsame

/-- What the rounding, the test and the bump of a bounded block come to: the least aligned
address, whether the request fits behind it, and the end of the request. -/
theorem Block.Bounded.room {block : Block} (hbounded : block.Bounded) (key : Word)
    (hrequest : ModerateRequest size alignment) :
    ∃ address, (block.arena key).Offers alignment.toNat address ∧
      (block.fits size alignment ↔ (block.arena key).Holds size.toNat alignment.toNat) ∧
      (block.fits size alignment →
        (block.alignedAddr alignment).toNat = address ∧
          (block.take size alignment).arena key =
            (block.arena key).advance (address + size.toNat)) := by
  have hused := hbounded.used
  have hsize := hbounded.size
  have hlimit := hbounded.limit
  have hrequestSize := hrequest.size
  have halignment := hrequest.alignment
  have hbump : (block.memory + block.used).toNat =
      block.memory.toNat + block.used.toNat := by
    rw [BitVec.toNat_add, Nat.mod_eq_of_lt (by omega)]
  have hpadding : (block.padding alignment).toNat < alignment.toNat :=
    padding_lt hrequest.pow2
  have hleast := isLeast_padded (x := block.memory + block.used) hrequest.pow2
  rw [hbump] at hleast
  have hsum : (block.used + block.padding alignment + size).toNat =
      block.used.toNat + (block.padding alignment).toNat + size.toNat := by
    rw [BitVec.toNat_add, BitVec.toNat_add,
      Nat.mod_eq_of_lt (by omega), Nat.mod_eq_of_lt (by omega)]
  have hfits : block.fits size alignment ↔ block.used.toNat +
      (block.padding alignment).toNat + size.toNat ≤ block.size.toNat := by
    rw [Block.fits, BitVec.le_def, hsum]
  have hoffers : (block.arena key).Offers alignment.toNat
      (block.memory.toNat + block.used.toNat + (block.padding alignment).toNat) := hleast
  refine ⟨_, hoffers, ?_, ?_⟩
  · rw [hfits, hoffers.holds_iff]
    change _ ↔ _ ≤ block.memory.toNat + block.size.toNat
    omega
  · intro hroom
    have hroom := hfits.mp hroom
    have haligned : (block.alignedAddr alignment).toNat =
        block.memory.toNat + block.used.toNat + (block.padding alignment).toNat :=
      Block.toNat_alignedAddr (by omega)
    have htake : (block.take size alignment).used.toNat = block.used.toNat +
        (block.padding alignment).toNat + size.toNat := by
      rw [Block.take, ← BitVec.add_assoc, hsum]
    refine ⟨haligned, ?_⟩
    simp only [Block.arena, Arena.advance, htake, Arena.mk.injEq, true_and]
    refine ⟨rfl, rfl, ?_⟩
    omega

/-- A new block has room for the request it is mapped for. -/
theorem Block.fresh_bounded {base : Word} (hrequest : ModerateRequest size alignment)
    (hlimit : base.toNat + 32 + (newBlockSize size).toNat < 2 ^ 64) :
    (Block.fresh base (newBlockSize size)).Bounded ∧
      (Block.fresh base (newBlockSize size)).fits size alignment := by
  have hsize := hrequest.size
  have halignment := hrequest.alignment
  have hnewSize := toNat_newBlockSize hsize
  have hmemory : (base + sizeofBlock).toNat = base.toNat + 32 := by
    rw [BitVec.toNat_add]
    exact Nat.mod_eq_of_lt (by change base.toNat + 32 < _; omega)
  have hbounded : (Block.fresh base (newBlockSize size)).Bounded := by
    refine ⟨Nat.zero_le _, ?_, ?_⟩
    · change (newBlockSize size).toNat ≤ _
      omega
    · change (base + sizeofBlock).toNat + (newBlockSize size).toNat < _
      omega
  obtain ⟨address, hoffers, hfits, -⟩ := hbounded.room base hrequest
  refine ⟨hbounded, hfits.mpr ?_⟩
  have hpadding := padding_lt (x := base + sizeofBlock) hrequest.pow2
  have hleast := isLeast_padded (x := base + sizeofBlock) hrequest.pow2
  refine ⟨_, hleast.1.1, hleast.1.2, ?_⟩
  change _ ≤ (base + sizeofBlock).toNat + (newBlockSize size).toNat
  omega

/-- The list that the walk begins with. -/
theorem Pool.started_spec (os : Mmap) {keys : List Word} (hlinked : pool.Linked keys)
    (hbounded : ∀ address block, pool.heap address = some block → block.Bounded)
    (hfirst : keys = [] → pool.MapsFresh os minBlockSize) :
    ∃ ready readyKeys, pool.Started os keys ready readyKeys ∧ ready.Linked readyKeys ∧
      readyKeys ≠ [] ∧
      (∀ address block, ready.heap address = some block → block.Bounded) ∧
      ∀ size alignment,
        allocate os size alignment pool = allocate os size alignment ready := by
  by_cases hkeys : keys = []
  · subst hkeys
    obtain ⟨base, hbase, hnull, -, hlimit⟩ := hfirst rfl
    have hhead : pool.headBlock = nullptr := hlinked.nil_iff.mpr rfl
    have hready : ensureHead os pool =
        (.ok (), { pool.mapBlock base minBlockSize with headBlock := base }) := by
      rw [Pool.nextMapping] at hbase
      simp [ensureHead, hhead, allocateOSBlock, hbase, hnull]
    refine ⟨_, [base], .first hbase, hlinked.mapHead hnull, by simp, ?_,
      allocate_of_ensureHead hready⟩
    intro address block hblock
    change Function.update pool.heap base _ address = some block at hblock
    by_cases haddress : address = base
    · rw [haddress, Function.update_self] at hblock
      obtain rfl := Option.some.inj hblock
      have hminimum : minBlockSize.toNat = 2 ^ 21 := rfl
      have hmemory : (base + sizeofBlock).toNat = base.toNat + 32 := by
        rw [BitVec.toNat_add]
        exact Nat.mod_eq_of_lt (by change base.toNat + 32 < _; omega)
      exact ⟨Nat.zero_le _, by rw [hminimum]; decide, by rw [hmemory]; exact hlimit⟩
    · rw [Function.update_of_ne haddress] at hblock
      exact hbounded address block hblock
  · exact ⟨pool, keys, .already hkeys, hlinked, hkeys, hbounded, fun _ _ => rfl⟩

/-- Taking a chunk from a block of the list advances its arena. -/
theorem Pool.arenas_take {before after : List Word} {key : Word} {block : Block}
    (hnodup : (before ++ key :: after).Nodup) (hblock : pool.heap key = some block)
    {arena : Arena Word} (htake : (block.take size alignment).arena key = arena) :
    (pool.writeBlock key (block.take size alignment)).arenas (before ++ key :: after) =
      pool.arenas before ++ arena :: pool.arenas after := by
  obtain ⟨-, hcons, hdisjoint⟩ := List.nodup_append.mp hnodup
  have hother : ∀ other, other ≠ key →
      ((pool.writeBlock key (block.take size alignment)).heap other).map
          (Block.arena other) = (pool.heap other).map (Block.arena other) := by
    intro other hother
    rw [Pool.writeBlock_heap, Function.update_of_ne hother]
  rw [Pool.arenas_append, Pool.arenas_cons (by rw [Pool.writeBlock_heap,
    Function.update_self]), htake]
  congr 1
  · apply Pool.arenas_congr
    intro other hmem
    exact hother other (hdisjoint other hmem key List.mem_cons_self)
  · congr 1
    apply Pool.arenas_congr
    intro other hmem
    apply hother
    rintro rfl
    exact (List.nodup_cons.mp hcons).1 hmem

/-- Growing leaves the arenas of the list alone and adds the new block's. -/
theorem Pool.arenas_grow {after : Pool} {keys : List Word} {last base : Word}
    {lastBlock new : Block} (hfresh : base ∉ keys) (hlast : pool.heap last = some lastBlock)
    (hheap : after.heap = Function.update (Function.update pool.heap last
      (some { lastBlock with next := base })) base (some new)) :
    after.arenas (keys ++ [base]) = pool.arenas keys ++ [new.arena base] := by
  have hnew : after.heap base = some new := by
    rw [hheap, Function.update_self]
  rw [Pool.arenas_append, Pool.arenas_cons hnew]
  congr 1
  apply Pool.arenas_congr
  intro key hkey
  have hne : key ≠ base := fun heq => hfresh (heq ▸ hkey)
  rw [hheap, Function.update_of_ne hne]
  by_cases hkeyLast : key = last
  · rw [hkeyLast, Function.update_self, hlast]
    rfl
  · rw [Function.update_of_ne hkeyLast]

/-- `Allocate` is first fit: it takes the least aligned address of the first block that
can hold the request and maps nothing, or, when none can, maps one more block behind the
others and takes the address there; everything else stays as it is. -/
theorem allocate_refines_firstFit (os : Mmap) {keys : List Word}
    (hlinked : pool.Linked keys)
    (hbounded : ∀ address block, pool.heap address = some block → block.Bounded)
    (hrequest : ModerateRequest size alignment)
    (hfirst : keys = [] → pool.MapsFresh os minBlockSize)
    (hmore : ∀ ready readyKeys, pool.Started os keys ready readyKeys →
      (∀ arena ∈ ready.arenas readyKeys, ¬ arena.Holds size.toNat alignment.toNat) →
        ready.MapsFresh os (newBlockSize size)) :
    ∃ ready readyKeys ptr after keys', pool.Started os keys ready readyKeys ∧
      allocate os size alignment pool = (.ok ptr, after) ∧ after.Linked keys' ∧
        ready.FitsFirst size alignment readyKeys ptr after keys' := by
  obtain ⟨ready, readyKeys, hstarted, hready, hkeys, hbounded, hallocate⟩ :=
    pool.started_spec os hlinked hbounded hfirst
  have hskipped : ∀ others : List Word, (∀ other ∈ others, ∀ skipped,
      ready.heap other = some skipped → ¬ skipped.fits size alignment) →
        ∀ arena ∈ ready.arenas others, ¬ arena.Holds size.toNat alignment.toNat := by
    intro others hothers arena harena
    obtain ⟨key, hkey, block, hblock, rfl⟩ := Pool.mem_arenas.mp harena
    obtain ⟨_, -, hfits, -⟩ := (hbounded key block hblock).room key hrequest
    rw [← hfits]
    exact hothers key hkey block hblock
  rw [hallocate]
  rcases hready.allocate_cases os size alignment hkeys with
    ⟨before, key, behind, block, rfl, hblock, hroom, hbefore, hresult⟩ | ⟨hnone, hresult⟩
  · obtain ⟨address, hoffers, hfits, htaken⟩ :=
      (hbounded key block hblock).room key hrequest
    obtain ⟨haligned, htake⟩ := htaken hroom
    refine ⟨ready, _, _, _, before ++ key :: behind, hstarted, hresult,
      hready.writeBlock hblock rfl, Or.inl ⟨?_, rfl, rfl, rfl⟩⟩
    rw [Pool.arenas_take hready.chain.nodup hblock htake, Pool.arenas_append,
      Pool.arenas_cons hblock, haligned]
    exact .first (hskipped before hbefore) (hfits.mp hroom) hoffers
  · obtain ⟨base, hbase, hnull, hfresh, hlimit⟩ :=
      hmore ready readyKeys hstarted (hskipped readyKeys hnone)
    obtain ⟨front, last, rfl⟩ := List.eq_nil_or_concat' readyKeys |>.resolve_left hkeys
    have hbaseNew : base ∉ front ++ [last] := by
      intro hmem
      obtain ⟨block, hblock⟩ := hready.chain.exists_node hmem
      rw [hfresh] at hblock
      contradiction
    have hmapped : allocateOSBlock os (newBlockSize size) ready =
        (.ok base, ready.mapBlock base (newBlockSize size)) := by
      rw [Pool.nextMapping] at hbase
      simp [allocateOSBlock, hbase, hnull]
    obtain ⟨hnewBounded, hroom⟩ := Block.fresh_bounded hrequest hlimit
    obtain ⟨address, hoffers, hfits, htaken⟩ := hnewBounded.room base hrequest
    obtain ⟨haligned, htake⟩ := htaken hroom
    obtain ⟨hlinked', hregions, hcalls, lastBlock, hlastBlock, hheap⟩ :=
      hready.grow hnull hbaseNew size alignment
    rw [List.getLastD_concat] at hresult
    refine ⟨ready, _, _, _, front ++ [last] ++ [base], hstarted,
      hresult.trans (growAndTake_of_mapped hmapped), hlinked',
      Or.inr ⟨?_, base, rfl, hregions, hcalls⟩⟩
    have haddress : (alignUp (base + sizeofBlock) alignment).toNat = address := by
      rw [← haligned, Block.fresh_alignedAddr]
    rw [Pool.arenas_grow hbaseNew hlastBlock hheap, htake, haddress]
    exact .behind (hskipped _ hnone) rfl (hfits.mp hroom) hoffers

end

namespace FirstFitWitness

/-- A request that the first block of 2 MiB cannot hold. -/
theorem request_moderate : ModerateRequest (4 * 1024 * 1024) 4096 :=
  ⟨by decide, ⟨12, by decide, by decide⟩, by decide⟩

theorem initial_linked : Pool.initial.Linked [] :=
  ⟨rfl, nofun, Nat.le_refl _⟩

theorem initial_maps : Pool.initial.MapsFresh PoolWitness.strideMmap minBlockSize :=
  ⟨0x10000000000, by decide, by decide, rfl, by decide⟩

theorem started_maps (ready : Pool) (readyKeys : List Word)
    (hstarted : Pool.initial.Started PoolWitness.strideMmap [] ready readyKeys) :
    ready.MapsFresh PoolWitness.strideMmap (newBlockSize (4 * 1024 * 1024)) := by
  cases hstarted with
  | already hkeys => contradiction
  | first hbase =>
      obtain rfl := Option.some.inj (hbase.symm.trans
        (show Pool.initial.nextMapping _ _ = some 0x10000000000 by decide))
      exact ⟨0x20000000000, by decide, by decide, rfl, by decide⟩

theorem initial_refines_firstFit : ∃ ready readyKeys ptr after keys',
    Pool.initial.Started PoolWitness.strideMmap [] ready readyKeys ∧
      allocate PoolWitness.strideMmap (4 * 1024 * 1024) 4096 Pool.initial =
        (.ok ptr, after) ∧ after.Linked keys' ∧
        ready.FitsFirst (4 * 1024 * 1024) 4096 readyKeys ptr after keys' :=
  allocate_refines_firstFit PoolWitness.strideMmap initial_linked nofun request_moderate
    (fun _ => initial_maps) (fun ready readyKeys hstarted _ =>
      started_maps ready readyKeys hstarted)

end FirstFitWitness

end Domovoy
