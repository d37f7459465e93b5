/-
The total size of the blocks on the pool's list, and what each request adds to it.
-/
import Domovoy.PoolExtends
import Domovoy.PoolFailure
import Domovoy.Transition
import Mathlib.Algebra.Order.BigOperators.Group.List

namespace Domovoy

open WordAlign LinkedChain Transition

/-- The sizes in the headers from `curr` on, stopped after `fuel` rounds. -/
def blockSizes (heap : Word → Option Block) : Nat → Word → List Nat
  | 0, _ => []
  | fuel + 1, curr =>
      if curr = nullptr then []
      else
        match heap curr with
        | none => []
        | some block => block.size.toNat :: blockSizes heap fuel block.next

/-- The total size of the blocks on the list. -/
def Pool.totalSize (pool : Pool) : Nat :=
  (blockSizes pool.heap (pool.mapped.length + 1) pool.headBlock).sum

/-- What a request adds to the list: the first block when there is none, and one more
when no block has room. -/
def Pool.growth (os : Mmap) (request : ChunkRequest) (pool : Pool) : Nat :=
  (if pool.headBlock = nullptr then minBlockSize.toNat else 0) +
    match (ensureHead os pool).2.walk request.size request.alignment with
    | .ok (.exhausted _) => (newBlockSize request.size).toNat
    | _ => 0

/-- What a sequence of requests adds to the list. -/
def Pool.growthOf (os : Mmap) : List ChunkRequest → Pool → Nat
  | [], _ => 0
  | request :: requests, pool =>
      pool.growth os request +
        growthOf os requests (allocate os request.size request.alignment pool).2

/-- `Allocate` when it returns. -/
def Pool.grant (os : Mmap) (pool : Pool) (request : ChunkRequest) : Option Pool :=
  match allocate os request.size request.alignment pool with
  | (.ok _, pool) => some pool
  | (.error _, _) => none

def Pool.sizeAt (pool : Pool) (key : Word) : Nat :=
  match pool.heap key with
  | some block => block.size.toNat
  | none => 0

/-- The blocks of the list are the regions mapped, and none of them is small. -/
structure Pool.Stocked (pool : Pool) (keys : List Word) : Prop extends
    pool.Accounted keys where
  large : ∀ key ∈ keys, minBlockSize.toNat ≤ pool.sizeAt key

section

variable {os : Mmap} {pool : Pool} {keys : List Word}

theorem Pool.sizeAt_eq {key : Word} {block : Block} (hblock : pool.heap key = some block) :
    pool.sizeAt key = block.size.toNat := by
  rw [sizeAt, hblock]

theorem blockSizes_eq {fuel : Nat} {curr : Word}
    (hchain : Chain Block.next nullptr pool.heap curr keys) (hfuel : keys.length < fuel) :
    blockSizes pool.heap fuel curr = keys.map pool.sizeAt := by
  induction keys generalizing fuel curr with
  | nil =>
      cases fuel with
      | zero => simp at hfuel
      | succ fuel =>
          have hnull : curr = nullptr := hchain
          simp [blockSizes, hnull]
  | cons key keys ih =>
      cases fuel with
      | zero => simp at hfuel
      | succ fuel =>
          obtain ⟨rfl, hne, block, hblock, htail⟩ := hchain
          have hshorter : keys.length < fuel := by
            simp only [List.length_cons] at hfuel
            omega
          simp only [blockSizes, if_neg hne, hblock, List.map_cons]
          rw [ih htail hshorter, Pool.sizeAt_eq hblock]

theorem Pool.Linked.totalSize_eq (hlinked : pool.Linked keys) :
    pool.totalSize = (keys.map pool.sizeAt).sum := by
  rw [totalSize, blockSizes_eq hlinked.chain (Nat.lt_succ_of_le hlinked.short)]

/-- Blocks that are new on the list add their sizes to it. -/
theorem Pool.Stocked.extend (hstocked : pool.Stocked keys) {after : Pool}
    {keys' : List Word} {sizes : List Nat} (haccounted : after.Accounted keys')
    (hsizes : keys'.map after.sizeAt = keys.map pool.sizeAt ++ sizes)
    (hlarge : ∀ size ∈ sizes, minBlockSize.toNat ≤ size) :
    after.Stocked keys' ∧ after.totalSize = pool.totalSize + sizes.sum := by
  refine ⟨⟨haccounted, ?_⟩, ?_⟩
  · intro key hkey
    have hmem : after.sizeAt key ∈ keys.map pool.sizeAt ++ sizes := by
      rw [← hsizes]
      exact List.mem_map_of_mem hkey
    rcases List.mem_append.mp hmem with hold | hnew
    · obtain ⟨old, hmem, heq⟩ := List.mem_map.mp hold
      rw [← heq]
      exact hstocked.large old hmem
    · exact hlarge _ hnew
  · rw [haccounted.toLinked.totalSize_eq, hstocked.toLinked.totalSize_eq, hsizes,
      List.sum_append]

/-- A list that is not empty has at least the 2 MiB of its first block. -/
theorem Pool.Stocked.le_totalSize (hstocked : pool.Stocked keys) (hkeys : keys ≠ []) :
    minBlockSize.toNat ≤ pool.totalSize := by
  obtain ⟨key, hkey⟩ := List.exists_mem_of_ne_nil keys hkeys
  rw [hstocked.toLinked.totalSize_eq]
  exact (hstocked.large key hkey).trans
    (List.single_le_sum (fun _ _ => Nat.zero_le _) _ (List.mem_map_of_mem hkey))

theorem Pool.stocked_initial : Pool.initial.Stocked [] :=
  ⟨Pool.accounted_initial, by simp⟩

theorem le_newBlockSize (size : Word) : minBlockSize.toNat ≤ (newBlockSize size).toNat := by
  rw [newBlockSize, maxWord]
  split <;> bv_omega

/-- The block that the walk ends at gives the chunk, and keeps its size. -/
theorem Pool.Stocked.take (hstocked : pool.Stocked keys) {key : Word} {block : Block}
    (hblock : pool.heap key = some block) (size alignment : Word) :
    (pool.writeBlock key (block.take size alignment)).Stocked keys ∧
      (pool.writeBlock key (block.take size alignment)).totalSize = pool.totalSize := by
  have hsizes : keys.map (pool.writeBlock key (block.take size alignment)).sizeAt =
      keys.map pool.sizeAt ++ [] := by
    rw [List.append_nil]
    apply List.map_congr_left
    intro other _
    by_cases hother : other = key
    · rw [hother, Pool.sizeAt_eq (Function.update_self ..), Pool.sizeAt_eq hblock]
      rfl
    · rw [sizeAt, Pool.writeBlock_heap, Function.update_of_ne hother, sizeAt]
  have haccounted : (pool.writeBlock key (block.take size alignment)).Accounted keys :=
    hstocked.toAccounted.writeBlock hblock rfl rfl
  simpa using hstocked.extend haccounted hsizes (by simp)

theorem Pool.Stocked.mapHead (hos : os.FreshRegions) (hstocked : pool.Stocked [])
    {base : Word} (hbase : base ≠ nullptr)
    (hanswer : os pool.mmapCalls pool.mapped (minBlockSize + sizeofBlock) = some base) :
    Pool.Stocked { pool.mapBlock base minBlockSize with headBlock := base } [base] ∧
      Pool.totalSize { pool.mapBlock base minBlockSize with headBlock := base } =
        pool.totalSize + minBlockSize.toNat := by
  have hnew : Pool.sizeAt { pool.mapBlock base minBlockSize with headBlock := base } base =
      minBlockSize.toNat := by
    rw [sizeAt, Pool.mapBlock_heap, Function.update_self]
  have hsizes : [base].map
      (Pool.sizeAt { pool.mapBlock base minBlockSize with headBlock := base }) =
        [].map pool.sizeAt ++ [minBlockSize.toNat] := by
    simp [hnew]
  simpa using hstocked.extend (hstocked.toAccounted.mapHead hos hbase hanswer) hsizes
    (by simp)

/-- One more block behind the last one, with the chunk taken from it. -/
theorem Pool.Stocked.grow (hos : os.FreshRegions) {last base : Word}
    (hstocked : pool.Stocked (keys ++ [last])) (hbase : base ≠ nullptr)
    (size alignment : Word)
    (hanswer : os pool.mmapCalls pool.mapped (newBlockSize size + sizeofBlock) = some base) :
    (pool.grow last base size alignment).Stocked (keys ++ [last, base]) ∧
      (pool.grow last base size alignment).totalSize =
        pool.totalSize + (newBlockSize size).toNat := by
  have hfresh := hstocked.toAccounted.not_mem hos hanswer
  obtain ⟨-, -, -, lastBlock, hlastBlock, hheap⟩ :=
    hstocked.toLinked.grow hbase hfresh size alignment
  obtain ⟨_, _, hlast, hne⟩ := hstocked.toLinked.exists_last hfresh
  have haccounted : (pool.grow last base size alignment).Accounted (keys ++ [last, base]) := by
    rw [Pool.grow_eq size alignment hlast hne hlastBlock]
    apply (hstocked.toAccounted.mapTail hos hbase hanswer).writeBlock
    · rw [Pool.linkBlock_heap _ hlast hne hlastBlock, Function.update_self]
    · rfl
    · rfl
  have hold : ∀ key ∈ keys ++ [last],
      (pool.grow last base size alignment).sizeAt key = pool.sizeAt key := by
    intro key hkey
    have hkeyNe : key ≠ base := fun heq => hfresh (heq ▸ hkey)
    rw [sizeAt, hheap, Function.update_of_ne hkeyNe]
    by_cases hkeyLast : key = last
    · rw [hkeyLast, Function.update_self, Pool.sizeAt_eq hlastBlock]
    · rw [Function.update_of_ne hkeyLast, sizeAt]
  have hnew : (pool.grow last base size alignment).sizeAt base = (newBlockSize size).toNat := by
    rw [sizeAt, hheap, Function.update_self]
    rfl
  have hsizes : (keys ++ [last, base]).map (pool.grow last base size alignment).sizeAt =
      (keys ++ [last]).map pool.sizeAt ++ [(newBlockSize size).toNat] := by
    rw [show keys ++ [last, base] = (keys ++ [last]) ++ [base] by simp, List.map_append,
      List.map_congr_left hold, List.map_singleton, hnew]
  simpa using hstocked.extend haccounted hsizes (by simpa using le_newBlockSize size)

/-- A chunk from a list that is not empty. -/
theorem Pool.Stocked.allocate_ready (hos : os.FreshRegions) (hstocked : pool.Stocked keys)
    (hkeys : keys ≠ []) {size alignment ptr : Word} {after : Pool}
    (hresult : Domovoy.allocate os size alignment pool = (.ok ptr, after)) :
    (∃ keys', after.Stocked keys' ∧ keys' ≠ []) ∧
      after.totalSize = pool.totalSize + pool.growth os ⟨size, alignment⟩ := by
  have hhead : pool.headBlock ≠ nullptr := mt hstocked.toLinked.nil_iff.mp hkeys
  have hready : ensureHead os pool = (.ok (), pool) := by
    rw [ensureHead, if_neg hhead]
  rw [growth, if_neg hhead, hready, Nat.zero_add]
  simp only [Pool.walk]
  rcases findBlock_spec size alignment nullptr hstocked.chain
    (Nat.lt_succ_of_le hstocked.short) with
    ⟨-, key, -, block, -, hblock, -, -, hfound⟩ | ⟨-, hexhausted⟩
  · simp only [Domovoy.allocate, hready, hfound] at hresult ⊢
    obtain rfl := (Prod.mk.inj hresult).2
    obtain ⟨hafter, htotal⟩ := hstocked.take hblock size alignment
    exact ⟨⟨keys, hafter, hkeys⟩, htotal⟩
  · simp only [Domovoy.allocate, hready, hexhausted] at hresult ⊢
    rcases List.eq_nil_or_concat keys with rfl | ⟨front, last, rfl⟩
    · contradiction
    · rw [List.concat_eq_append] at hstocked hresult
      rw [List.getLastD_concat] at hresult
      rcases allocateOSBlock_fresh hos (newBlockSize size) pool with
        ⟨-, hrefused⟩ | ⟨base, hbase, hanswer, hmapped⟩
      · rw [growAndTake_of_refused hrefused] at hresult
        cases hresult
      · rw [growAndTake_of_mapped hmapped] at hresult
        obtain rfl := (Prod.mk.inj hresult).2
        obtain ⟨hafter, htotal⟩ := hstocked.grow hos hbase size alignment hanswer
        exact ⟨⟨_, hafter, by simp⟩, htotal⟩

/-- The first block comes on top of what the request adds to a list that has one. -/
theorem Pool.growth_of_ensureHead {request : ChunkRequest} {ready : Pool}
    (hhead : pool.headBlock = nullptr) (hready : ensureHead os pool = (.ok (), ready))
    (hne : ready.headBlock ≠ nullptr) :
    pool.growth os request = minBlockSize.toNat + ready.growth os request := by
  have hagain : ensureHead os ready = (.ok (), ready) := by
    rw [ensureHead, if_neg hne]
  rw [growth, growth, hready, hagain, if_pos hhead, if_neg hne, Nat.zero_add]

/-- What a request that is granted leaves on the list. -/
theorem Pool.Stocked.grant (hos : os.FreshRegions) (hstocked : pool.Stocked keys)
    {request : ChunkRequest} {after : Pool} (hgrant : pool.grant os request = some after) :
    (∃ keys', after.Stocked keys' ∧ keys' ≠ []) ∧
      after.totalSize = pool.totalSize + pool.growth os request ∧
      after = (Domovoy.allocate os request.size request.alignment pool).2 := by
  rw [Pool.grant] at hgrant
  rcases hresult : Domovoy.allocate os request.size request.alignment pool with
    ⟨_ | ptr, last⟩
  · rw [hresult] at hgrant
    cases hgrant
  · rw [hresult] at hgrant
    obtain rfl := Option.some.inj hgrant
    by_cases hkeys : keys = []
    · subst hkeys
      have hhead : pool.headBlock = nullptr := hstocked.toLinked.nil_iff.mpr rfl
      rcases allocateOSBlock_fresh hos minBlockSize pool with
        ⟨-, hrefused⟩ | ⟨base, hbase, hanswer, hmapped⟩
      · simp [Domovoy.allocate, ensureHead, hhead, hrefused] at hresult
      · have hready : ensureHead os pool =
            (.ok (), { pool.mapBlock base minBlockSize with headBlock := base }) := by
          simp [ensureHead, hhead, hmapped]
        obtain ⟨hfirst, htotal⟩ := hstocked.mapHead hos hbase hanswer
        rw [allocate_of_ensureHead hready] at hresult
        obtain ⟨hafter, hgrown⟩ := hfirst.allocate_ready hos (by simp) hresult
        refine ⟨hafter, ?_, rfl⟩
        rw [hgrown, htotal, growth_of_ensureHead hhead hready hbase, Nat.add_assoc]
    · obtain ⟨hafter, htotal⟩ := hstocked.allocate_ready hos hkeys hresult
      exact ⟨hafter, htotal, rfl⟩

theorem Pool.Stocked.run_grant (hos : os.FreshRegions) (hstocked : pool.Stocked keys)
    {requests : List ChunkRequest} {after : Pool}
    (hrun : Transition.run (Pool.grant os) pool requests = some after) :
    (∃ keys', after.Stocked keys' ∧ (keys ≠ [] ∨ requests ≠ [] → keys' ≠ [])) ∧
      after.totalSize = pool.totalSize + pool.growthOf os requests := by
  induction requests generalizing pool keys with
  | nil =>
      obtain rfl := Option.some.inj hrun
      exact ⟨⟨keys, hstocked, fun hne => hne.resolve_right (by simp)⟩, rfl⟩
  | cons request requests ih =>
      obtain ⟨next, hgrant, hrest⟩ := run_cons_eq_some.mp hrun
      obtain ⟨⟨keys', hnext, hne⟩, htotal, heq⟩ := hstocked.grant hos hgrant
      obtain ⟨⟨last, hlast, hlastNe⟩, hgrown⟩ := ih hnext hrest
      refine ⟨⟨last, hlast, fun _ => hlastNe (Or.inl hne)⟩, ?_⟩
      rw [hgrown, htotal, growthOf, ← heq, Nat.add_assoc]

/-- A list of large blocks stays one, and does not become empty. -/
def Pool.KeepsStock (before after : Pool) : Prop :=
  ∀ keys, before.Stocked keys → ∃ keys', after.Stocked keys' ∧ (keys ≠ [] → keys' ≠ [])

theorem Pool.KeepsStock.refl (pool : Pool) : pool.KeepsStock pool :=
  fun keys hstocked => ⟨keys, hstocked, id⟩

theorem Pool.KeepsStock.trans {first second third : Pool} (hfirst : first.KeepsStock second)
    (hsecond : second.KeepsStock third) : first.KeepsStock third := by
  intro keys hstocked
  obtain ⟨keys', hmiddle, hne⟩ := hfirst keys hstocked
  obtain ⟨keys'', hlast, hne'⟩ := hsecond keys' hmiddle
  exact ⟨keys'', hlast, fun hkeys => hne' (hne hkeys)⟩

/-- `Allocate` keeps the list in order when it throws, too. -/
theorem allocate_keepsStock (hos : os.FreshRegions) (size alignment : Word) (pool : Pool) :
    pool.KeepsStock (allocate os size alignment pool).2 := by
  intro keys hstocked
  rcases hresult : allocate os size alignment pool with ⟨error | ptr, after⟩
  · have hunharmed := hstocked.toAccounted.allocate_unharmed hos hresult
    rcases hunharmed.list keys hstocked.toAccounted with
      ⟨hafter, hheap, -⟩ | ⟨rfl, base, hafter, hblock⟩
    · refine ⟨keys, ⟨hafter, ?_⟩, id⟩
      intro key hkey
      rw [Pool.sizeAt, hheap]
      exact hstocked.large key hkey
    · refine ⟨[base], ⟨hafter, ?_⟩, by simp⟩
      simp only [List.mem_singleton, forall_eq, Pool.sizeAt_eq hblock]
      exact Nat.le_refl _
  · have hgrant : pool.grant os ⟨size, alignment⟩ = some after := by
      simp [Pool.grant, hresult]
    obtain ⟨⟨keys', hafter, hne⟩, -⟩ := hstocked.grant hos hgrant
    exact ⟨keys', hafter, fun _ => hne⟩

theorem stlAllocate_keepsStock (hos : os.FreshRegions) (request : StlRequest)
    (pool : Pool) : pool.KeepsStock (stlAllocate os request pool).2 := by
  have hkeeps :=
    allocate_keepsStock hos (request.n * request.sizeofT) request.alignofT pool
  rw [stlAllocate]
  split
  · exact .refl pool
  · rcases hresult : allocate os (request.n * request.sizeofT) request.alignofT pool with
      ⟨_ | ptr, after⟩
    · rw [hresult] at hkeeps
      exact hkeeps
    · rw [hresult] at hkeeps
      by_cases hnull : ptr = nullptr
      · simp only [hnull, if_true]
        exact hkeeps
      · simp only [hnull, if_false]
        exact hkeeps

end

end Domovoy
