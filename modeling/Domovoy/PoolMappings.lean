/-
The mappings of the isolated allocator over whole runs, for any sizes and alignments:
the block list and the regions mapped are the same, whatever the operating system
refuses.
-/
import Domovoy.PoolSafety

namespace Domovoy

open WordAlign LinkedChain

/-- `mmap` fails, as it does for a length of zero, or returns a region that is not at the
null address and disjoint from the regions already mapped. -/
structure Mmap.FreshRegions (os : Mmap) : Prop where
  nonNull : ∀ call mapped length base, os call mapped length = some base → base ≠ nullptr
  positive : ∀ call mapped length base, os call mapped length = some base →
    0 < length.toNat
  fresh : ∀ call mapped length base, os call mapped length = some base →
    ∀ region ∈ mapped, region.Apart ⟨base, length⟩

/-- An operating system that maps above everything that is mapped. -/
theorem Mmap.FreshRegions.of_above {os : Mmap}
    (habove : ∀ call mapped length base, os call mapped length = some base →
      0 < base.toNat ∧ 0 < length.toNat ∧
        ∀ region ∈ mapped, region.base.toNat + region.length.toNat ≤ base.toNat) :
    os.FreshRegions where
  nonNull := by
    rintro call mapped length base hanswer rfl
    exact absurd (habove call mapped length nullptr hanswer).1 (by decide)
  positive := fun call mapped length base hanswer =>
    (habove call mapped length base hanswer).2.1
  fresh := fun call mapped length base hanswer region hregion =>
    range_disjoint_of_le ((habove call mapped length base hanswer).2.2 region hregion)

/-- The region that the header at `address` stands for. -/
def Pool.regionAt (pool : Pool) (address : Word) : Region :=
  match pool.heap address with
  | some block => ⟨address, block.size + sizeofBlock⟩
  | none => ⟨address, 0⟩

/-- The blocks of the list are, without repetition, the regions mapped. -/
structure Pool.Accounted (pool : Pool) (keys : List Word) : Prop extends
    pool.Linked keys where
  regions : (keys.map pool.regionAt).Perm pool.mapped
  positive : ∀ region ∈ pool.mapped, 0 < region.length.toNat

/-- The calls of `munmap` that the loop of `Shutdown` makes. -/
def munmapCalls : Nat → Word → Pool → List Region
  | 0, _, _ => []
  | fuel + 1, curr, pool =>
      if curr = nullptr then []
      else
        match pool.heap curr with
        | none => []
        | some block =>
            ⟨curr, block.size + sizeofBlock⟩ ::
              munmapCalls fuel block.next (freeOSBlock curr block pool)

/-- The calls on the allocator. -/
inductive PoolEvent where
  | initializePool (initialCapacityBytes : Word)
  | allocate (size alignment : Word)
  | shutdown
deriving DecidableEq, Repr

def Pool.call (os : Mmap) (pool : Pool) : PoolEvent → Except PoolError Unit × Pool
  | .initializePool initialCapacityBytes =>
      Domovoy.initializePool os initialCapacityBytes pool
  | .allocate size alignment =>
      let (result, pool) := Domovoy.allocate os size alignment pool
      (result.map fun _ => (), pool)
  | .shutdown => Domovoy.shutdown pool

/-- Any sequence of calls, in the order in which the lock serialises them. -/
def Pool.run (os : Mmap) (events : List PoolEvent) : Pool :=
  events.foldl (fun pool event => (pool.call os event).2) Pool.initial

/-- The list and the mappings are the same, and `Shutdown` gives all of them back. -/
structure Pool.Conserves (os : Mmap) (pool : Pool) : Prop where
  list : ∃ keys, Chain Block.next nullptr pool.heap pool.headBlock keys ∧ keys.Nodup ∧
    (keys.map pool.regionAt).Perm pool.mapped ∧ pool.mapped.Nodup
  unmaps : (munmapCalls (pool.mapped.length + 1) pool.headBlock pool).Perm pool.mapped
  shutdown : Domovoy.shutdown pool =
    (.ok (), { Pool.initial with mmapCalls := pool.mmapCalls })
  returns : ∀ event, (pool.call os event).1 = .ok () ∨
    (pool.call os event).1 = .error .badAlloc

theorem Pool.accounted_initial : Pool.initial.Accounted [] where
  chain := rfl
  complete := by simp [initial]
  short := Nat.le_refl _
  regions := .refl _
  positive := by simp [initial]

theorem Pool.regionAt_eq {pool : Pool} {address : Word} {block : Block}
    (hblock : pool.heap address = some block) :
    pool.regionAt address = ⟨address, block.size + sizeofBlock⟩ := by
  rw [regionAt, hblock]

@[simp] theorem Pool.regionAt_base (pool : Pool) (address : Word) :
    (pool.regionAt address).base = address := by
  rw [regionAt]
  split <;> rfl

theorem Pool.regionAt_congr {pool after : Pool} {address : Word}
    (hsame : (after.heap address).map Block.size = (pool.heap address).map Block.size) :
    after.regionAt address = pool.regionAt address := by
  simp only [regionAt]
  cases hold : pool.heap address with
  | none =>
      rw [hold, Option.map_none, Option.map_eq_none_iff] at hsame
      rw [hsame]
  | some block =>
      rw [hold, Option.map_some, Option.map_eq_some_iff] at hsame
      obtain ⟨new, hnew, hsize⟩ := hsame
      rw [hnew]
      simp [hsize]

/-- No block of the list is where a region is mapped next. -/
theorem Pool.Accounted.not_mem {os : Mmap} (hos : os.FreshRegions) {pool : Pool}
    {keys : List Word} (haccounted : pool.Accounted keys) {base length : Word}
    (hanswer : os pool.mmapCalls pool.mapped length = some base) : base ∉ keys := by
  intro hmem
  have hregion : pool.regionAt base ∈ pool.mapped :=
    haccounted.regions.mem_iff.mp (List.mem_map_of_mem hmem)
  have hold := haccounted.positive _ hregion
  have hnew := hos.positive _ _ _ _ hanswer
  have hapart := hos.fresh _ _ _ _ hanswer _ hregion
  rw [Region.Apart, Region.range, Region.range, Set.disjoint_left,
    Pool.regionAt_base] at hapart
  exact hapart ⟨Nat.le_refl _, Nat.lt_add_of_pos_right hold⟩
    ⟨Nat.le_refl _, Nat.lt_add_of_pos_right hnew⟩

/-- A refused mapping is only counted. -/
theorem allocateOSBlock_fresh {os : Mmap} (hos : os.FreshRegions) (size : Word)
    (pool : Pool) :
    (os pool.mmapCalls pool.mapped (size + sizeofBlock) = none ∧
      allocateOSBlock os size pool =
        (.error .badAlloc, { pool with mmapCalls := pool.mmapCalls + 1 })) ∨
      ∃ base, base ≠ nullptr ∧
        os pool.mmapCalls pool.mapped (size + sizeofBlock) = some base ∧
          allocateOSBlock os size pool = (.ok base, pool.mapBlock base size) := by
  cases hanswer : os pool.mmapCalls pool.mapped (size + sizeofBlock) with
  | none => exact Or.inl ⟨rfl, by simp [allocateOSBlock, hanswer]⟩
  | some base =>
      have hbase := hos.nonNull _ _ _ _ hanswer
      exact Or.inr ⟨base, hbase, rfl, by simp [allocateOSBlock, hanswer, hbase]⟩

theorem Pool.Accounted.setMmapCalls {pool : Pool} {keys : List Word}
    (haccounted : pool.Accounted keys) (count : Nat) :
    Pool.Accounted { pool with mmapCalls := count } keys :=
  ⟨⟨haccounted.chain, haccounted.complete, haccounted.short⟩, haccounted.regions,
    haccounted.positive⟩

/-- The account of a pool whose list has changed, from that of the list alone. -/
theorem Pool.Accounted.mapped_append {os : Mmap} (hos : os.FreshRegions)
    {pool after : Pool} {keys keys' : List Word} {base length : Word}
    (haccounted : pool.Accounted keys)
    (hanswer : os pool.mmapCalls pool.mapped length = some base)
    (hlinked : after.Linked keys') (hmapped : after.mapped = pool.mapped ++ [⟨base, length⟩])
    (hregions : keys'.map after.regionAt = keys.map pool.regionAt ++ [⟨base, length⟩]) :
    after.Accounted keys' := by
  refine ⟨hlinked, ?_, ?_⟩
  · rw [hregions, hmapped]
    exact haccounted.regions.append_right _
  · intro region hregion
    rw [hmapped, List.mem_append, List.mem_singleton] at hregion
    rcases hregion with hregion | rfl
    · exact haccounted.positive region hregion
    · exact hos.positive _ _ _ _ hanswer

theorem Pool.Accounted.mapHead {os : Mmap} (hos : os.FreshRegions) {pool : Pool}
    (haccounted : pool.Accounted []) {base size : Word} (hbase : base ≠ nullptr)
    (hanswer : os pool.mmapCalls pool.mapped (size + sizeofBlock) = some base) :
    Pool.Accounted { pool.mapBlock base size with headBlock := base } [base] := by
  apply haccounted.mapped_append hos hanswer (haccounted.toLinked.mapHead hbase) rfl
  simp [regionAt, Pool.mapBlock_heap]

/-- A new block behind the last one. -/
theorem Pool.Accounted.mapTail {os : Mmap} (hos : os.FreshRegions) {pool : Pool}
    {keys : List Word} {last base size : Word}
    (haccounted : pool.Accounted (keys ++ [last])) (hbase : base ≠ nullptr)
    (hanswer : os pool.mmapCalls pool.mapped (size + sizeofBlock) = some base) :
    ((pool.mapBlock base size).linkBlock last base).Accounted (keys ++ [last, base]) := by
  have hfresh := haccounted.not_mem hos hanswer
  obtain ⟨lastBlock, hlastBlock, hlast, hne⟩ := haccounted.toLinked.exists_last hfresh
  have hheap := Pool.linkBlock_heap size hlast hne hlastBlock
  have hmapped := (Pool.linkBlock_of_linked size hlast hne hlastBlock).2
  apply haccounted.mapped_append hos hanswer (haccounted.toLinked.mapTail hbase hfresh)
    hmapped
  have hold : ∀ key ∈ keys ++ [last],
      ((pool.mapBlock base size).linkBlock last base).regionAt key = pool.regionAt key := by
    intro key hkey
    apply regionAt_congr
    have hkeyNe : key ≠ base := fun heq => hfresh (heq ▸ hkey)
    rw [hheap, Function.update_of_ne hkeyNe]
    by_cases hkeyLast : key = last
    · rw [hkeyLast, Function.update_self, hlastBlock]
      rfl
    · rw [Function.update_of_ne hkeyLast]
  have hnew : ((pool.mapBlock base size).linkBlock last base).regionAt base =
      ⟨base, size + sizeofBlock⟩ := by
    rw [regionAt, hheap, Function.update_self]
  rw [show keys ++ [last, base] = (keys ++ [last]) ++ [base] by simp, List.map_append,
    List.map_congr_left hold, List.map_singleton, hnew]

/-- Moving a bump pointer changes no region. -/
theorem Pool.Accounted.writeBlock {pool : Pool} {keys : List Word}
    (haccounted : pool.Accounted keys) {address : Word} {old new : Block}
    (hold : pool.heap address = some old) (hnext : new.next = old.next)
    (hsize : new.size = old.size) : (pool.writeBlock address new).Accounted keys := by
  refine ⟨haccounted.toLinked.writeBlock hold hnext, ?_, haccounted.positive⟩
  have hregions : ∀ key ∈ keys,
      (pool.writeBlock address new).regionAt key = pool.regionAt key := by
    intro key _
    apply regionAt_congr
    by_cases hkey : key = address
    · rw [hkey, Pool.writeBlock_heap, Function.update_self, hold, Option.map_some,
        Option.map_some, hsize]
    · rw [Pool.writeBlock_heap, Function.update_of_ne hkey]
  rw [List.map_congr_left hregions]
  exact haccounted.regions

/-- `Initialize` returns with a list that is not empty, or throws `bad_alloc`. -/
theorem Pool.Accounted.initializePool {os : Mmap} (hos : os.FreshRegions) {pool : Pool}
    {keys : List Word} (haccounted : pool.Accounted keys) (capacity : Word) :
    (∃ after keys', initializePool os capacity pool = (.ok (), after) ∧
        after.Accounted keys' ∧ keys' ≠ []) ∨
      ∃ after, initializePool os capacity pool = (.error .badAlloc, after) ∧
        after.Accounted keys := by
  by_cases hhead : pool.headBlock = nullptr
  · obtain rfl := haccounted.toLinked.nil_iff.mp hhead
    rcases allocateOSBlock_fresh hos (maxWord capacity minBlockSize) pool with
      ⟨-, hresult⟩ | ⟨base, hbase, hanswer, hresult⟩
    · right
      exact ⟨{ pool with mmapCalls := pool.mmapCalls + 1 },
        by simp [Domovoy.initializePool, hhead, hresult], haccounted.setMmapCalls _⟩
    · left
      exact ⟨_, [base], by simp [Domovoy.initializePool, hhead, hresult],
        haccounted.mapHead hos hbase hanswer, by simp⟩
  · left
    refine ⟨pool, keys, by simp [Domovoy.initializePool, hhead], haccounted, ?_⟩
    exact fun hnil => hhead (haccounted.toLinked.nil_iff.mpr hnil)

/-- `Allocate` returns, or throws `bad_alloc`, with every block accounted for. -/
theorem Pool.Accounted.allocate {os : Mmap} (hos : os.FreshRegions) {pool : Pool}
    {keys : List Word} (haccounted : pool.Accounted keys) (size alignment : Word) :
    ∃ result after keys', Domovoy.allocate os size alignment pool = (result, after) ∧
      after.Accounted keys' ∧ ((∃ ptr, result = .ok ptr) ∨ result = .error .badAlloc) := by
  rcases haccounted.initializePool hos minBlockSize with
    ⟨ready, keys', hready, hkeys, hne⟩ | ⟨after, hresult, hafter⟩
  · rw [← ensureHead_eq_initializePool] at hready
    rw [allocate_of_ensureHead hready]
    rcases hkeys.toLinked.allocate_cases os size alignment hne with
      ⟨_, key, _, block, _, hblock, _, _, hresult⟩ | ⟨_, hresult⟩
    · exact ⟨_, _, keys', hresult, hkeys.writeBlock hblock rfl rfl, Or.inl ⟨_, rfl⟩⟩
    · rw [hresult]
      rcases List.eq_nil_or_concat keys' with rfl | ⟨front, last, rfl⟩
      · contradiction
      · rw [List.concat_eq_append] at hkeys ⊢
        rw [List.getLastD_concat]
        rcases allocateOSBlock_fresh hos (newBlockSize size) ready with
          ⟨-, hrefused⟩ | ⟨base, hbase, hanswer, hmapped⟩
        · exact ⟨_, _, front ++ [last], growAndTake_of_refused hrefused,
            hkeys.setMmapCalls _, Or.inr rfl⟩
        · obtain ⟨lastBlock, hlastBlock, hlast, hlastNe⟩ :=
            hkeys.toLinked.exists_last (hkeys.not_mem hos hanswer)
          refine ⟨_, _, front ++ [last, base], growAndTake_of_mapped hmapped, ?_,
            Or.inl ⟨_, rfl⟩⟩
          rw [Pool.grow_eq size alignment hlast hlastNe hlastBlock]
          apply (hkeys.mapTail hos hbase hanswer).writeBlock
          · rw [Pool.linkBlock_heap _ hlast hlastNe hlastBlock, Function.update_self]
          · rfl
          · rfl
  · rw [← ensureHead_eq_initializePool] at hresult
    exact ⟨_, _, keys, by simp [Domovoy.allocate, hresult], hafter, Or.inr rfl⟩

@[simp] theorem freeOSBlock_heap (address : Word) (block : Block) (pool : Pool) :
    (freeOSBlock address block pool).heap = Function.update pool.heap address none := rfl

/-- `Shutdown` follows the list to its end and unmaps each block with the length it was
mapped with. -/
theorem freeBlocks_spec {pool : Pool} {curr : Word} {keys : List Word} {fuel : Nat}
    (hchain : Chain Block.next nullptr pool.heap curr keys)
    (hcomplete : ∀ address block, pool.heap address = some block → address ∈ keys)
    (hregions : (keys.map pool.regionAt).Perm pool.mapped) (hfuel : keys.length < fuel) :
    freeBlocks fuel curr pool =
        (.ok (), { pool with heap := fun _ => none, mapped := [] }) ∧
      munmapCalls fuel curr pool = keys.map pool.regionAt := by
  induction keys generalizing fuel curr pool with
  | nil =>
      cases fuel with
      | zero => simp at hfuel
      | succ fuel =>
          have hnull : curr = nullptr := hchain
          have hheap : pool.heap = fun _ => none := by
            funext address
            cases hblock : pool.heap address with
            | none => rfl
            | some block => exact absurd (hcomplete address block hblock) List.not_mem_nil
          have hmapped : pool.mapped = [] := List.nil_perm.mp hregions
          refine ⟨?_, by simp [munmapCalls, hnull]⟩
          rw [freeBlocks, if_pos hnull, ← hheap, ← hmapped]
  | cons key keys ih =>
      cases fuel with
      | zero => simp at hfuel
      | succ fuel =>
          have hnodup := List.nodup_cons.mp hchain.nodup
          obtain ⟨rfl, hne, block, hblock, htail⟩ := hchain
          have hregion : pool.regionAt curr = ⟨curr, block.size + sizeofBlock⟩ :=
            Pool.regionAt_eq hblock
          have hkept : ∀ key ∈ keys,
              (freeOSBlock curr block pool).heap key = pool.heap key := by
            intro key hkey
            have hkeyNe : key ≠ curr := fun heq => hnodup.1 (heq ▸ hkey)
            rw [freeOSBlock_heap, Function.update_of_ne hkeyNe]
          have hregions' : keys.map (freeOSBlock curr block pool).regionAt =
              keys.map pool.regionAt := by
            apply List.map_congr_left
            intro key hkey
            exact Pool.regionAt_congr (by rw [hkept key hkey])
          have hchain' : Chain Block.next nullptr (freeOSBlock curr block pool).heap
              block.next keys := htail.congr fun key hkey => by rw [hkept key hkey]
          have hcomplete' : ∀ address other,
              (freeOSBlock curr block pool).heap address = some other → address ∈ keys := by
            intro address other hother
            by_cases haddress : address = curr
            · simp [haddress] at hother
            · have hother' : pool.heap address = some other := by
                rwa [freeOSBlock_heap, Function.update_of_ne haddress] at hother
              rcases List.mem_cons.mp (hcomplete address other hother') with hmem | hmem
              · exact absurd hmem haddress
              · exact hmem
          have hleft : (keys.map (freeOSBlock curr block pool).regionAt).Perm
              (freeOSBlock curr block pool).mapped := by
            rw [hregions']
            rw [List.map_cons, hregion] at hregions
            exact (List.cons_perm_iff_perm_erase.mp hregions).2
          have hfuel' : keys.length < fuel := by
            simp only [List.length_cons] at hfuel
            omega
          obtain ⟨hfreed, hcalls⟩ := ih hchain' hcomplete' hleft hfuel'
          refine ⟨?_, ?_⟩
          · simp only [freeBlocks, if_neg hne, hblock]
            exact hfreed
          · simp only [munmapCalls, if_neg hne, hblock]
            rw [hcalls, hregions', List.map_cons, hregion]

theorem Pool.Accounted.shutdown {pool : Pool} {keys : List Word}
    (haccounted : pool.Accounted keys) :
    Domovoy.shutdown pool = (.ok (), { Pool.initial with mmapCalls := pool.mmapCalls }) ∧
      (munmapCalls (pool.mapped.length + 1) pool.headBlock pool).Perm pool.mapped := by
  obtain ⟨hfreed, hcalls⟩ := freeBlocks_spec haccounted.chain haccounted.complete
    haccounted.regions (Nat.lt_succ_of_le haccounted.short)
  refine ⟨?_, ?_⟩
  · rw [Domovoy.shutdown, hfreed]
    rfl
  · rw [hcalls]
    exact haccounted.regions

/-- Every call returns or throws `bad_alloc`, and keeps the account. -/
theorem Pool.Accounted.call {os : Mmap} (hos : os.FreshRegions) {pool : Pool}
    {keys : List Word} (haccounted : pool.Accounted keys) (event : PoolEvent) :
    ((pool.call os event).1 = .ok () ∨ (pool.call os event).1 = .error .badAlloc) ∧
      ∃ keys', (pool.call os event).2.Accounted keys' := by
  cases event with
  | initializePool capacity =>
      rcases haccounted.initializePool hos capacity with
        ⟨after, keys', hresult, hafter, -⟩ | ⟨after, hresult, hafter⟩
      · rw [Pool.call, hresult]
        exact ⟨Or.inl rfl, keys', hafter⟩
      · rw [Pool.call, hresult]
        exact ⟨Or.inr rfl, keys, hafter⟩
  | allocate size alignment =>
      obtain ⟨result, after, keys', hresult, hafter, hends⟩ :=
        haccounted.allocate hos size alignment
      simp only [Pool.call, hresult]
      refine ⟨?_, keys', hafter⟩
      rcases hends with ⟨ptr, rfl⟩ | rfl
      · exact Or.inl rfl
      · exact Or.inr rfl
  | shutdown =>
      rw [Pool.call, haccounted.shutdown.1]
      exact ⟨Or.inl rfl, [], Pool.accounted_initial.setMmapCalls _⟩

theorem Pool.run_accounted {os : Mmap} (hos : os.FreshRegions) (events : List PoolEvent) :
    ∃ keys, (Pool.run os events).Accounted keys := by
  induction events using List.reverseRecOn with
  | nil => exact ⟨[], Pool.accounted_initial⟩
  | append_singleton events event ih =>
      obtain ⟨keys, hkeys⟩ := ih
      rw [Pool.run, List.foldl_append]
      exact (hkeys.call hos event).2

/-- After any sequence of calls, whatever the operating system grants and refuses. -/
theorem pool_conserves_mappings (os : Mmap) (hos : os.FreshRegions)
    (events : List PoolEvent) : (Pool.run os events).Conserves os := by
  obtain ⟨keys, hkeys⟩ := Pool.run_accounted hos events
  have hnodup : keys.Nodup := hkeys.chain.nodup
  have hregions : (keys.map (Pool.run os events).regionAt).Nodup :=
    hnodup.map_on fun left _ right _ heq => by
      simpa using congrArg Region.base heq
  exact {
    list := ⟨keys, hkeys.chain, hnodup, hkeys.regions, hkeys.regions.nodup_iff.mp hregions⟩
    unmaps := hkeys.shutdown.2
    shutdown := hkeys.shutdown.1
    returns := fun event => (hkeys.call hos event).1 }

namespace MappingsWitness

/-- Regions in strides of `2 ^ 40` bytes, and none at all for some calls. -/
def scarceMmap : Mmap := fun call mapped length =>
  let address := (call + 1) * 2 ^ 40
  if call % 5 ≠ 1 ∧ address < 2 ^ 64 ∧ 0 < length.toNat ∧
      ∀ region ∈ mapped, region.base.toNat + region.length.toNat ≤ address then
    some (BitVec.ofNat 64 address)
  else none

theorem scarceMmap_fresh : scarceMmap.FreshRegions := by
  apply Mmap.FreshRegions.of_above
  intro call mapped length base hanswer
  simp only [scarceMmap, Option.ite_none_right_eq_some, Option.some.injEq] at hanswer
  obtain ⟨⟨-, hfits, hpositive, hbelow⟩, rfl⟩ := hanswer
  rw [BitVec.toNat_ofNat, Nat.mod_eq_of_lt hfits]
  exact ⟨by omega, hpositive, hbelow⟩

/-- A mapping that is refused, a second list, and a request whose size wraps. -/
def events : List PoolEvent :=
  [.initializePool 0, .allocate 0x300000 16, .shutdown, .allocate 24 8,
    .allocate 0x7ffffffffffffff8 8]

/-- The wrapped request maps 16 bytes, which are accounted for like any other region. -/
example : (Pool.run scarceMmap events).mapped =
    [⟨0x30000000000, 0x200020⟩, ⟨0x40000000000, 16⟩] := by
  decide

theorem events_conserve : (Pool.run scarceMmap events).Conserves scarceMmap :=
  pool_conserves_mappings scarceMmap scarceMmap_fresh events

end MappingsWitness

end Domovoy
