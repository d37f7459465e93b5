/-
How much the isolated pool maps over whole runs: twice what was asked of it since its
last shutdown, and one block.
-/
import Domovoy.PoolCapacity
import Domovoy.PoolFirstFit

namespace Domovoy

open WordAlign LinkedChain FirstFit

/-- What was asked of the pool since it was last shut down, alignments included, and the
largest block that this may have mapped. -/
structure PoolLoad where
  demand : Nat
  largest : Nat
deriving DecidableEq, Repr

/-- Nothing was asked; the least block is of 2 MiB. -/
def PoolLoad.none : PoolLoad where
  demand := 0
  largest := minBlockSize.toNat

def PoolLoad.after (load : PoolLoad) : PoolEvent → PoolLoad
  | .initializePool capacity => { load with largest := max load.largest capacity.toNat }
  | .allocate size alignment =>
      { demand := load.demand + (size.toNat + alignment.toNat)
        largest := max load.largest (2 * size.toNat) }
  | .shutdown => .none

def PoolEvent.Moderate : PoolEvent → Prop
  | .initializePool capacity => capacity.toNat ≤ 2 ^ 62
  | .allocate size alignment => ModerateRequest size alignment
  | .shutdown => True

/-- The blocks of the list, as arenas, in proportion to what was asked for. -/
structure Pool.Loaded (pool : Pool) (keys : List Word) (load : PoolLoad) : Prop extends
    pool.Accounted keys where
  placed : pool.Placed
  frugal : Frugal load.demand (pool.arenas keys)
  small : ∀ arena ∈ pool.arenas keys, minBlockSize.toNat ≤ arena.capacity
  large : ∀ arena ∈ pool.arenas keys, arena.capacity ≤ load.largest
  least : minBlockSize.toNat ≤ load.largest

section

variable {os : Mmap} {pool : Pool} {keys : List Word} {load : PoolLoad}
  {size alignment : Word}

theorem Pool.loaded_empty (calls : Nat) :
    Pool.Loaded { Pool.initial with mmapCalls := calls } [] .none where
  toAccounted := Pool.accounted_initial.setMmapCalls calls
  placed := ⟨by simp [initial], by simp [initial], .nil⟩
  frugal := ⟨Nat.le_refl 0, Nat.le_refl 0⟩
  small := by simp [arenas]
  large := by simp [arenas]
  least := Nat.le_refl _

theorem Pool.Loaded.mono (hloaded : pool.Loaded keys load) {load' : PoolLoad}
    (hdemand : load.demand ≤ load'.demand) (hlargest : load.largest ≤ load'.largest) :
    pool.Loaded keys load' where
  toAccounted := hloaded.toAccounted
  placed := hloaded.placed
  frugal := ⟨hloaded.frugal.taken.trans hdemand, hloaded.frugal.abandoned.trans hdemand⟩
  small := hloaded.small
  large := fun arena hmem => (hloaded.large arena hmem).trans hlargest
  least := hloaded.least.trans hlargest

theorem Pool.Loaded.setMmapCalls (hloaded : pool.Loaded keys load) (count : Nat) :
    Pool.Loaded { pool with mmapCalls := count } keys load where
  toAccounted := hloaded.toAccounted.setMmapCalls count
  placed := ⟨hloaded.placed.blocks, hloaded.placed.lowerHalf, hloaded.placed.apart⟩
  frugal := hloaded.frugal
  small := hloaded.small
  large := hloaded.large
  least := hloaded.least

theorem Pool.Loaded.safe (hloaded : pool.Loaded keys load) : PoolSafe pool [] :=
  ⟨⟨keys, hloaded.toLinked⟩, hloaded.placed, by simp, by simp, .nil⟩

/-- The first block of an empty list is mapped with the capacity asked for, or nothing
is. -/
theorem Pool.Loaded.initializePool (hos : os.FreshRegions) (hlower : os.FreshLowerHalf)
    (hloaded : pool.Loaded keys load) {capacity : Word}
    (hcapacity : capacity.toNat ≤ 2 ^ 62) :
    (∃ after keys', Domovoy.initializePool os capacity pool = (.ok (), after) ∧
        after.Loaded keys' { load with largest := max load.largest capacity.toNat } ∧
        keys' ≠ []) ∨
      ∃ after, Domovoy.initializePool os capacity pool = (.error .badAlloc, after) ∧
        after.Loaded keys load := by
  by_cases hhead : pool.headBlock = nullptr
  · obtain rfl := hloaded.toLinked.nil_iff.mp hhead
    rcases allocateOSBlock_fresh hos (maxWord capacity minBlockSize) pool with
      ⟨-, hresult⟩ | ⟨base, hbase, hanswer, hresult⟩
    · right
      exact ⟨{ pool with mmapCalls := pool.mmapCalls + 1 },
        by simp [Domovoy.initializePool, hhead, hresult], hloaded.setMmapCalls _⟩
    · left
      have hminimum : minBlockSize.toNat = 2 ^ 21 := rfl
      have hsize : (maxWord capacity minBlockSize).toNat ≤ 2 ^ 63 := by
        rw [toNat_maxWord, hminimum]
        omega
      have hplaced := (hloaded.placed.mapBlock hlower hsize hanswer).1
      have hresult' : Domovoy.initializePool os capacity pool = (.ok (),
          { pool.mapBlock base (maxWord capacity minBlockSize) with headBlock := base }) := by
        simp [Domovoy.initializePool, hhead, hresult]
      have harenas : Pool.arenas
          { pool.mapBlock base (maxWord capacity minBlockSize) with headBlock := base }
            [base] = [(Block.fresh base (maxWord capacity minBlockSize)).arena base] :=
        Pool.arenas_cons (Function.update_self ..) []
      have hcapacityEq : ((Block.fresh base (maxWord capacity minBlockSize)).arena
          base).capacity = max capacity.toNat minBlockSize.toNat := toNat_maxWord ..
      have hleast := hloaded.least
      refine ⟨_, [base], hresult', ⟨hloaded.toAccounted.mapHead hos hbase hanswer,
        ⟨hplaced.blocks, hplaced.lowerHalf, hplaced.apart⟩, ?_, ?_, ?_,
        hleast.trans (Nat.le_max_left _ _)⟩, by simp⟩
      · rw [harenas]
        exact ⟨Nat.zero_le _, Nat.zero_le _⟩
      · rw [harenas]
        intro arena hmem
        rw [List.mem_singleton.mp hmem, hcapacityEq]
        exact Nat.le_max_right _ _
      · rw [harenas]
        intro arena hmem
        rw [List.mem_singleton.mp hmem, hcapacityEq]
        simp only
        omega
  · left
    refine ⟨pool, keys, by simp [Domovoy.initializePool, hhead],
      hloaded.mono (Nat.le_refl _) (Nat.le_max_left _ _), ?_⟩
    exact fun hnil => hhead (hloaded.toLinked.nil_iff.mpr hnil)

/-- A bounded block tells whether its arena holds the request. -/
theorem Pool.Placed.fits_iff_holds (hplaced : pool.Placed) {key : Word} {block : Block}
    (hblock : pool.heap key = some block) (hrequest : ModerateRequest size alignment) :
    block.fits size alignment ↔ (block.arena key).Holds size.toNat alignment.toNat := by
  obtain ⟨_, -, hfits, -⟩ := (hplaced.bounded hblock).room key hrequest
  exact hfits

theorem Pool.Placed.not_holds (hplaced : pool.Placed)
    (hrequest : ModerateRequest size alignment) {others : List Word}
    (hothers : ∀ other ∈ others, ∀ skipped, pool.heap other = some skipped →
      ¬ skipped.fits size alignment) :
    ∀ arena ∈ pool.arenas others, ¬ arena.Holds size.toNat alignment.toNat := by
  intro arena harena
  obtain ⟨key, hkey, block, hblock, rfl⟩ := Pool.mem_arenas.mp harena
  rw [← hplaced.fits_iff_holds hblock hrequest]
  exact hothers key hkey block hblock

/-- A block of the list gives the chunk: its arena is advanced. -/
theorem Pool.Loaded.take (hloaded : pool.Loaded keys load)
    (hrequest : ModerateRequest size alignment) {before after : List Word} {key : Word}
    {block : Block} (hkeys : keys = before ++ key :: after)
    (hblock : pool.heap key = some block) (hfits : block.fits size alignment)
    (hbefore : ∀ other ∈ before, ∀ skipped, pool.heap other = some skipped →
      ¬ skipped.fits size alignment) :
    (pool.writeBlock key (block.take size alignment)).Loaded keys
      (load.after (.allocate size alignment)) := by
  subst hkeys
  obtain ⟨address, hoffers, hholds, htaken⟩ :=
    (hloaded.placed.bounded hblock).room key hrequest
  obtain ⟨-, htake⟩ := htaken hfits
  have harenas := Pool.arenas_take hloaded.chain.nodup hblock htake
  have hplaced : FirstFit.Placed size.toNat alignment.toNat
      (pool.arenas (before ++ key :: after)) address
      ((pool.writeBlock key (block.take size alignment)).arenas
        (before ++ key :: after)) := by
    rw [harenas, Pool.arenas_append, Pool.arenas_cons hblock]
    exact .first (hloaded.placed.not_holds hrequest hbefore) (hholds.mp hfits) hoffers
  have hcapacity : ∀ arena ∈ (pool.writeBlock key (block.take size alignment)).arenas
      (before ++ key :: after), ∃ old ∈ pool.arenas (before ++ key :: after),
        old.capacity = arena.capacity := by
    rw [harenas, Pool.arenas_append, Pool.arenas_cons hblock]
    intro arena hmem
    rcases List.mem_append.mp hmem with hmem | hmem
    · exact ⟨arena, List.mem_append_left _ hmem, rfl⟩
    · rcases List.mem_cons.mp hmem with rfl | hmem
      · exact ⟨block.arena key, by simp, rfl⟩
      · exact ⟨arena, by simp [hmem], rfl⟩
  refine ⟨hloaded.toAccounted.writeBlock hblock rfl rfl,
    (hloaded.safe.take hrequest hblock hfits).placed,
    hloaded.frugal.placed hrequest.pow2.pos hplaced, ?_, ?_,
    hloaded.least.trans (Nat.le_max_left _ _)⟩
  · intro arena hmem
    obtain ⟨old, hold, heq⟩ := hcapacity arena hmem
    rw [← heq]
    exact hloaded.small old hold
  · intro arena hmem
    obtain ⟨old, hold, heq⟩ := hcapacity arena hmem
    rw [← heq]
    exact (hloaded.large old hold).trans (Nat.le_max_left _ _)

/-- One more block is mapped behind the others and gives the chunk. -/
theorem Pool.Accounted.grow (hos : os.FreshRegions) {front : List Word} {last base : Word}
    (haccounted : pool.Accounted (front ++ [last])) (hbase : base ≠ nullptr)
    (hanswer : os pool.mmapCalls pool.mapped (newBlockSize size + sizeofBlock) = some base)
    (alignment : Word) :
    (pool.grow last base size alignment).Accounted (front ++ [last] ++ [base]) := by
  obtain ⟨lastBlock, hlastBlock, hlast, hne⟩ :=
    haccounted.toLinked.exists_last (haccounted.not_mem hos hanswer)
  rw [Pool.grow_eq size alignment hlast hne hlastBlock, List.append_assoc]
  apply (haccounted.mapTail hos hbase hanswer).writeBlock
  · rw [Pool.linkBlock_heap _ hlast hne hlastBlock, Function.update_self]
  · rfl
  · rfl

theorem Pool.Loaded.grow_placed (hlower : os.FreshLowerHalf) {front : List Word}
    {last base : Word} (hloaded : pool.Loaded (front ++ [last]) load)
    (hrequest : ModerateRequest size alignment)
    (hmapped : allocateOSBlock os (newBlockSize size) pool =
      (.ok base, pool.mapBlock base (newBlockSize size))) :
    (pool.grow last base size alignment).Placed := by
  rcases growAndTake_safe hlower hloaded.safe hrequest hloaded.toLinked with
    ⟨ptr, after, hresult, hsafe⟩ | ⟨after, hresult, -⟩
  · rw [growAndTake_of_mapped hmapped] at hresult
    obtain rfl := (Prod.mk.inj hresult).2
    exact hsafe.placed
  · rw [growAndTake_of_mapped hmapped] at hresult
    cases hresult

/-- No block of the list can give the chunk: one is mapped behind them, of twice the size
or 2 MiB, or nothing is. -/
theorem Pool.Loaded.growAndTake (hos : os.FreshRegions) (hlower : os.FreshLowerHalf)
    {front : List Word} {last : Word} (hloaded : pool.Loaded (front ++ [last]) load)
    (hrequest : ModerateRequest size alignment)
    (hnone : ∀ other ∈ front ++ [last], ∀ skipped, pool.heap other = some skipped →
      ¬ skipped.fits size alignment) :
    ∃ keys', (Domovoy.growAndTake os size alignment last pool).2.Loaded keys'
      (load.after (.allocate size alignment)) := by
  rcases allocateOSBlock_fresh hos (newBlockSize size) pool with
    ⟨-, hrefused⟩ | ⟨base, hbase, hanswer, hmapped⟩
  · rw [growAndTake_of_refused hrefused]
    exact ⟨_, (hloaded.setMmapCalls _).mono (Nat.le_add_right _ _) (Nat.le_max_left _ _)⟩
  · have hfresh := hloaded.toAccounted.not_mem hos hanswer
    have hnewSize := toNat_newBlockSize hrequest.size
    have hsize := hrequest.size
    have hminimum : minBlockSize.toNat = 2 ^ 21 := rfl
    have hregion := hlower.lowerHalf _ _ _ _ hanswer
    have htotal : (newBlockSize size + sizeofBlock).toNat =
        (newBlockSize size).toNat + 32 := by
      rw [BitVec.toNat_add]
      exact Nat.mod_eq_of_lt (by change (newBlockSize size).toNat + 32 < _; omega)
    have hroom : base.toNat + 32 + (newBlockSize size).toNat < 2 ^ 64 := by omega
    obtain ⟨hnewBounded, hfits⟩ := Block.fresh_bounded hrequest hroom
    obtain ⟨address, hoffers, hholds, htaken⟩ := hnewBounded.room base hrequest
    obtain ⟨-, htake⟩ := htaken hfits
    obtain ⟨-, -, -, lastBlock, hlastBlock, hheap⟩ :=
      hloaded.toLinked.grow hbase hfresh size alignment
    have harenas := Pool.arenas_grow hfresh hlastBlock hheap
    rw [htake] at harenas
    have hgrown : FirstFit.Grown size.toNat alignment.toNat (pool.arenas (front ++ [last]))
        address ((pool.grow last base size alignment).arenas (front ++ [last] ++ [base])) := by
      rw [harenas]
      exact .behind (hloaded.placed.not_holds hrequest hnone) rfl (hholds.mp hfits) hoffers
    have hcapacity : ∀ arena ∈ (pool.grow last base size alignment).arenas
        (front ++ [last] ++ [base]), arena ∈ pool.arenas (front ++ [last]) ∨
          arena.capacity = (newBlockSize size).toNat := by
      rw [harenas]
      intro arena hmem
      rcases List.mem_append.mp hmem with hmem | hmem
      · exact Or.inl hmem
      · rw [List.mem_singleton.mp hmem]
        exact Or.inr rfl
    rw [growAndTake_of_mapped hmapped]
    refine ⟨_, hloaded.toAccounted.grow hos hbase hanswer alignment,
      hloaded.grow_placed hlower hrequest hmapped,
      hloaded.frugal.grown hrequest.pow2.pos hgrown, ?_, ?_,
      hloaded.least.trans (Nat.le_max_left _ _)⟩
    · intro arena hmem
      rcases hcapacity arena hmem with hold | heq
      · exact hloaded.small arena hold
      · rw [heq]
        exact le_newBlockSize size
    · intro arena hmem
      have hleast := hloaded.least
      rcases hcapacity arena hmem with hold | heq
      · exact (hloaded.large arena hold).trans (Nat.le_max_left _ _)
      · rw [heq, hnewSize]
        simp only [PoolLoad.after]
        omega

theorem Pool.Loaded.allocate (hos : os.FreshRegions) (hlower : os.FreshLowerHalf)
    (hloaded : pool.Loaded keys load) (hrequest : ModerateRequest size alignment) :
    ∃ keys', (Domovoy.allocate os size alignment pool).2.Loaded keys'
      (load.after (.allocate size alignment)) := by
  have hminimum : minBlockSize.toNat ≤ 2 ^ 62 := by decide
  rcases hloaded.initializePool hos hlower hminimum with
    ⟨ready, keys', hresult, hready, hkeys⟩ | ⟨after, hresult, hafter⟩
  · rw [← ensureHead_eq_initializePool] at hresult
    have hsame : { load with largest := max load.largest minBlockSize.toNat } = load := by
      rw [Nat.max_eq_left hloaded.least]
    rw [hsame] at hready
    rw [allocate_of_ensureHead hresult]
    rcases hready.toLinked.allocate_cases os size alignment hkeys with
      ⟨before, key, behind, block, hsplit, hblock, hfits, hbefore, hfound⟩ | ⟨hnone, hgrow⟩
    · rw [hfound]
      exact ⟨keys', hready.take hrequest hsplit hblock hfits hbefore⟩
    · obtain ⟨front, last, rfl⟩ := List.eq_nil_or_concat' keys' |>.resolve_left hkeys
      rw [hgrow, List.getLastD_concat]
      exact hready.growAndTake hos hlower hrequest hnone
  · rw [← ensureHead_eq_initializePool] at hresult
    have hfailed : Domovoy.allocate os size alignment pool = (.error .badAlloc, after) := by
      simp [Domovoy.allocate, hresult]
    rw [hfailed]
    exact ⟨keys, hafter.mono (Nat.le_add_right _ _) (Nat.le_max_left _ _)⟩

/-- Every call keeps the blocks in proportion. -/
theorem Pool.Loaded.call (hos : os.FreshRegions) (hlower : os.FreshLowerHalf)
    (hloaded : pool.Loaded keys load) {event : PoolEvent} (hevent : event.Moderate) :
    ∃ keys', (pool.call os event).2.Loaded keys' (load.after event) := by
  cases event with
  | initializePool capacity =>
      rcases hloaded.initializePool hos hlower hevent with
        ⟨after, keys', hresult, hafter, -⟩ | ⟨after, hresult, hafter⟩
      · rw [Pool.call, hresult]
        exact ⟨keys', hafter⟩
      · rw [Pool.call, hresult]
        exact ⟨keys, hafter.mono (Nat.le_refl _) (Nat.le_max_left _ _)⟩
  | allocate size alignment => exact hloaded.allocate hos hlower hevent
  | shutdown =>
      rw [Pool.call, hloaded.toAccounted.shutdown.1]
      exact ⟨[], Pool.loaded_empty _⟩

end

namespace FootprintWitness

/-- The 4 MiB do not fit the first block; what comes after does. -/
def events : List PoolEvent :=
  [.initializePool 0, .allocate 128 16, .allocate 0x400000 4096, .allocate 24 8]

end FootprintWitness

end Domovoy
