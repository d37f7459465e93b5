/-
What a request leaves behind when the operating system refuses it a mapping, and how the
pool then meets the requests that it has memory for.
-/
import Domovoy.PoolMappings

namespace Domovoy

open WordAlign LinkedChain

/-- `Allocate(size, alignment)`. -/
structure ChunkRequest where
  size : Word
  alignment : Word
deriving DecidableEq, Repr

/-- Some block of the pool has room for the chunk. -/
def Pool.HasFit (pool : Pool) (request : ChunkRequest) : Prop :=
  ∃ address block, pool.heap address = some block ∧
    block.fits request.size request.alignment

/-- Each request in its turn fits a block that is there. -/
def Pool.AllFit (os : Mmap) : List ChunkRequest → Pool → Prop
  | [], _ => True
  | request :: requests, pool =>
      pool.HasFit request ∧
        AllFit os requests (allocate os request.size request.alignment pool).2

/-- What a sequence of requests is answered. -/
def Pool.answers (os : Mmap) : List ChunkRequest → Pool → List (Except PoolError Word)
  | [], _ => []
  | request :: requests, pool =>
      let (result, pool) := allocate os request.size request.alignment pool
      result :: answers os requests pool

/-- The pool after a call that has thrown, next to the one before it: the blocks that were
on the list are there with the headers they had, the list accounts for every region mapped,
and it differs at most by a first block of 2 MiB that nothing has been taken from. Requests
that fit the blocks from before are answered as if the call had not been made. -/
structure Pool.Unharmed (os : Mmap) (before after : Pool) : Prop where
  blocks : ∀ address block, before.heap address = some block →
    after.heap address = some block
  list : ∀ keys, before.Accounted keys →
    after.Accounted keys ∧ after.heap = before.heap ∧ after.mapped = before.mapped ∨
      keys = [] ∧ ∃ base, after.Accounted [base] ∧
        after.heap base = some (Block.fresh base (2 * 1024 * 1024))
  later : ∀ requests, before.AllFit os requests →
    after.answers os requests = before.answers os requests ∧
      ∀ result ∈ after.answers os requests, ∃ ptr, result = .ok ptr

section

variable {os : Mmap} {pool : Pool} {keys : List Word}

/-- A request that fits is met from the list, however often `mmap` has been called. -/
theorem Pool.Linked.allocate_of_hasFit (hlinked : pool.Linked keys) (os : Mmap)
    {request : ChunkRequest} (hfit : pool.HasFit request) :
    ∃ ptr, ∃ after : Pool, (∃ keys', after.Linked keys') ∧ ∀ count,
      Domovoy.allocate os request.size request.alignment { pool with mmapCalls := count } =
        (.ok ptr, { after with mmapCalls := count }) := by
  obtain ⟨address, room, hroom, hfits⟩ := hfit
  have hmem := hlinked.complete address room hroom
  have hne : keys ≠ [] := List.ne_nil_of_mem hmem
  have hhead : pool.headBlock ≠ nullptr := mt hlinked.nil_iff.mp hne
  rcases findBlock_spec request.size request.alignment nullptr hlinked.chain
    (Nat.lt_succ_of_le hlinked.short) with
    ⟨before, key, behind, block, -, hblock, -, -, hfound⟩ | ⟨hnone, -⟩
  · refine ⟨block.alignedAddr request.alignment,
      pool.writeBlock key (block.take request.size request.alignment),
      ⟨keys, hlinked.writeBlock hblock rfl⟩, ?_⟩
    intro count
    simp only [Domovoy.allocate, ensureHead, hhead, if_false, hfound]
    rfl
  · exact absurd hfits (hnone address hmem room hroom)

/-- How often `mmap` has been called makes no difference to requests that fit. -/
theorem Pool.Linked.answers_setMmapCalls {requests : List ChunkRequest}
    (hlinked : pool.Linked keys) (hfits : pool.AllFit os requests) (count : Nat) :
    Pool.answers os requests { pool with mmapCalls := count } = pool.answers os requests ∧
      ∀ result ∈ pool.answers os requests, ∃ ptr, result = .ok ptr := by
  induction requests generalizing pool keys with
  | nil => simp [answers]
  | cons request requests ih =>
      obtain ⟨hfit, hrest⟩ := hfits
      obtain ⟨ptr, after, ⟨keys', hafter⟩, hresult⟩ := hlinked.allocate_of_hasFit os hfit
      have hsame := hresult pool.mmapCalls
      change Domovoy.allocate os request.size request.alignment pool = _ at hsame
      rw [hsame] at hrest
      have hcounted : Pool.Linked { after with mmapCalls := pool.mmapCalls } keys' :=
        ⟨hafter.chain, hafter.complete, hafter.short⟩
      obtain ⟨hanswers, hok⟩ := ih hcounted hrest
      simp only [answers, hresult count, hsame]
      exact ⟨by rw [hanswers], List.forall_mem_cons.mpr ⟨⟨ptr, rfl⟩, hok⟩⟩

/-- A mapping that is refused is only counted. -/
theorem Pool.Linked.unharmed_setMmapCalls (hlinked : pool.Linked keys) (count : Nat) :
    pool.Unharmed os { pool with mmapCalls := count } where
  blocks := fun _ _ hblock => hblock
  list := fun _ haccounted => Or.inl ⟨haccounted.setMmapCalls count, rfl, rfl⟩
  later := by
    intro requests hfits
    obtain ⟨hanswers, hok⟩ := hlinked.answers_setMmapCalls hfits count
    rw [hanswers]
    exact ⟨rfl, hok⟩

/-- A first block makes no difference either: nothing fits an empty list. -/
theorem Pool.Accounted.unharmed_mapHead (hos : os.FreshRegions)
    (haccounted : pool.Accounted []) {base : Word} (hbase : base ≠ nullptr)
    (hanswer : os pool.mmapCalls pool.mapped (minBlockSize + sizeofBlock) = some base)
    (count : Nat) :
    pool.Unharmed os
      { pool.mapBlock base minBlockSize with headBlock := base, mmapCalls := count } where
  blocks := by
    intro address block hblock
    exact absurd (haccounted.complete address block hblock) List.not_mem_nil
  list := by
    intro keys hkeys
    refine Or.inr ⟨hkeys.chain.unique haccounted.chain, base, ?_, ?_⟩
    · exact (haccounted.mapHead hos hbase hanswer).setMmapCalls count
    · exact Function.update_self ..
  later := by
    intro requests hfits
    cases requests with
    | nil => simp [answers]
    | cons request requests =>
        obtain ⟨⟨address, block, hblock, -⟩, -⟩ := hfits
        exact absurd (haccounted.complete address block hblock) List.not_mem_nil

theorem Pool.Accounted.initializePool_unharmed (hos : os.FreshRegions)
    (haccounted : pool.Accounted keys) {capacity : Word} {error : PoolError} {after : Pool}
    (hfails : Domovoy.initializePool os capacity pool = (.error error, after)) :
    pool.Unharmed os after := by
  rw [Domovoy.initializePool] at hfails
  split at hfails
  · rcases allocateOSBlock_fresh hos (maxWord capacity minBlockSize) pool with
      ⟨-, hresult⟩ | ⟨base, -, -, hresult⟩
    · simp only [hresult] at hfails
      obtain rfl := (Prod.mk.inj hfails).2
      exact haccounted.toLinked.unharmed_setMmapCalls _
    · simp only [hresult] at hfails
      cases hfails
  · cases hfails

/-- `Allocate` may have mapped a first block before the mapping that it was refused. -/
theorem Pool.Accounted.allocate_unharmed (hos : os.FreshRegions)
    (haccounted : pool.Accounted keys) {size alignment : Word} {error : PoolError}
    {after : Pool}
    (hfails : Domovoy.allocate os size alignment pool = (.error error, after)) :
    pool.Unharmed os after := by
  -- What growing a list that is there leaves, from the mapping that it is refused.
  have hgrow : ∀ {ready : Pool} {others : List Word}, ready.Accounted others → others ≠ [] →
      Domovoy.allocate os size alignment ready = (.error error, after) →
        after = { ready with mmapCalls := ready.mmapCalls + 1 } := by
    intro ready others hothers hne hfails
    rcases hothers.toLinked.allocate_cases os size alignment hne with
      ⟨_, _, _, _, _, _, _, _, hresult⟩ | ⟨_, hresult⟩
    · rw [hresult] at hfails
      cases hfails
    · rw [hresult] at hfails
      rcases allocateOSBlock_fresh hos (newBlockSize size) ready with
        ⟨-, hrefused⟩ | ⟨base, -, -, hmapped⟩
      · rw [growAndTake_of_refused hrefused] at hfails
        exact (Prod.mk.inj hfails).2.symm
      · rw [growAndTake_of_mapped hmapped] at hfails
        cases hfails
  by_cases hne : keys = []
  · subst hne
    have hhead : pool.headBlock = nullptr := haccounted.toLinked.nil_iff.mpr rfl
    rcases allocateOSBlock_fresh hos minBlockSize pool with
      ⟨-, hresult⟩ | ⟨base, hbase, hanswer, hresult⟩
    · simp only [Domovoy.allocate, ensureHead, hhead, if_true, hresult] at hfails
      obtain rfl := (Prod.mk.inj hfails).2
      have hsame : pool.Unharmed os { pool with mmapCalls := pool.mmapCalls + 1 } :=
        haccounted.toLinked.unharmed_setMmapCalls _
      rwa [hhead] at hsame
    · have hready : ensureHead os pool =
          (.ok (), { pool.mapBlock base minBlockSize with headBlock := base }) := by
        simp [ensureHead, hhead, hresult]
      rw [allocate_of_ensureHead hready] at hfails
      rw [hgrow (haccounted.mapHead hos hbase hanswer) (by simp) hfails]
      exact haccounted.unharmed_mapHead hos hbase hanswer _
  · rw [hgrow haccounted hne hfails]
    exact haccounted.toLinked.unharmed_setMmapCalls _

end

/-- Whatever calls have been made before: one that throws does no harm. -/
theorem failed_request_harmless (os : Mmap) (hos : os.FreshRegions) (events : List PoolEvent)
    (event : PoolEvent) (error : PoolError)
    (hfails : ((Pool.run os events).call os event).1 = .error error) :
    (Pool.run os events).Unharmed os ((Pool.run os events).call os event).2 := by
  obtain ⟨keys, haccounted⟩ := Pool.run_accounted hos events
  rcases hcall : (Pool.run os events).call os event with ⟨result, after⟩
  rw [hcall] at hfails
  obtain rfl := hfails
  cases event with
  | initializePool capacity => exact haccounted.initializePool_unharmed hos hcall
  | allocate size alignment =>
      rw [Pool.call] at hcall
      rcases hresult : allocate os size alignment (Pool.run os events) with ⟨_ | ptr, last⟩
      · rw [hresult] at hcall
        obtain rfl := (Prod.mk.inj hcall).2
        exact haccounted.allocate_unharmed hos hresult
      · rw [hresult] at hcall
        cases hcall
  | shutdown =>
      rw [Pool.call, haccounted.shutdown.1] at hcall
      cases hcall

namespace FailureWitness

open MappingsWitness

/-- The second mapping is refused: `Allocate` has mapped a first block and cannot map the
one that the request needs. -/
theorem secondMapping_harmless :
    (Pool.run scarceMmap []).Unharmed scarceMmap
      ((Pool.run scarceMmap []).call scarceMmap (.allocate 0x300000 16)).2 :=
  failed_request_harmless scarceMmap scarceMmap_fresh [] (.allocate 0x300000 16) .badAlloc
    (by decide)

end FailureWitness

end Domovoy
