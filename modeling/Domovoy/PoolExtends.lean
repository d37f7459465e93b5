/-
What the calls on the isolated pool leave in place: the blocks that are there stay, and
the account of the mappings stays in order.
-/
import Domovoy.PoolMappings
import Domovoy.StlAllocator

namespace Domovoy

open WordAlign LinkedChain

/-- No block goes away, and the account stays in order. -/
structure Pool.Extends (before after : Pool) : Prop where
  accounted : (∃ keys, before.Accounted keys) → ∃ keys, after.Accounted keys
  kept : ∀ address, before.heap address ≠ none → after.heap address ≠ none

theorem Pool.Extends.refl (pool : Pool) : pool.Extends pool :=
  ⟨id, fun _ => id⟩

theorem Pool.Extends.trans {first second third : Pool} (hfirst : first.Extends second)
    (hsecond : second.Extends third) : first.Extends third :=
  ⟨fun haccounted => hsecond.accounted (hfirst.accounted haccounted),
    fun address hmapped => hsecond.kept address (hfirst.kept address hmapped)⟩

theorem Pool.modifyBlock_kept (pool : Pool) (key : Word) (f : Block → Block)
    (address : Word) (hmapped : pool.heap address ≠ none) :
    (pool.modifyBlock key f).heap address ≠ none := by
  rw [Pool.modifyBlock]
  cases pool.heap key with
  | none => exact hmapped
  | some block =>
      by_cases hkey : address = key
      · rw [hkey, Pool.writeBlock_heap, Function.update_self]
        exact Option.some_ne_none _
      · rw [Pool.writeBlock_heap, Function.update_of_ne hkey]
        exact hmapped

theorem Pool.linkBlock_kept (pool : Pool) (last base address : Word)
    (hmapped : pool.heap address ≠ none) :
    (pool.linkBlock last base).heap address ≠ none := by
  rw [Pool.linkBlock]
  split
  · exact Pool.modifyBlock_kept pool last _ address hmapped
  · exact hmapped

theorem Pool.mapBlock_kept (pool : Pool) (base size address : Word)
    (hmapped : address = base ∨ pool.heap address ≠ none) :
    (pool.mapBlock base size).heap address ≠ none := by
  rw [Pool.mapBlock_heap]
  by_cases hbase : address = base
  · rw [hbase, Function.update_self]
    exact Option.some_ne_none _
  · rw [Function.update_of_ne hbase]
    exact hmapped.resolve_left hbase

theorem allocateOSBlock_kept (os : Mmap) (size : Word) (pool : Pool) (address : Word)
    (hmapped : pool.heap address ≠ none) :
    (allocateOSBlock os size pool).2.heap address ≠ none := by
  rcases allocateOSBlock_cases os size pool with
    ⟨refused, hresult, -, hheap, -⟩ | ⟨base, -, -, hresult⟩
  · rw [hresult, hheap]
    exact hmapped
  · rw [hresult]
    exact pool.mapBlock_kept base size address (Or.inr hmapped)

theorem initializePool_kept (os : Mmap) (capacity : Word) (pool : Pool) (address : Word)
    (hmapped : pool.heap address ≠ none) :
    (initializePool os capacity pool).2.heap address ≠ none := by
  have hkept := allocateOSBlock_kept os (maxWord capacity minBlockSize) pool address hmapped
  rw [initializePool]
  split
  · rcases hresult : allocateOSBlock os (maxWord capacity minBlockSize) pool with
      ⟨_ | _, after⟩
    all_goals
      rw [hresult] at hkept
      simp only [hresult]
      exact hkept
  · exact hmapped

/-- What `Allocate` leaves in place: every block, and the one it takes a chunk from. -/
theorem allocate_kept (os : Mmap) (size alignment : Word) (pool : Pool) :
    (∀ address, pool.heap address ≠ none →
      (allocate os size alignment pool).2.heap address ≠ none) ∧
    (∀ ptr, (allocate os size alignment pool).1 = .ok ptr →
      (allocate os size alignment pool).2.heap (pool.blockFor os size alignment) ≠ none) := by
  have hready := initializePool_kept os minBlockSize pool
  rw [← ensureHead_eq_initializePool] at hready
  rw [allocate, Pool.blockFor, Pool.walk]
  revert hready
  rcases ensureHead os pool with ⟨_ | _, ready⟩
  · exact fun hready => ⟨hready, fun ptr hok => by cases hok⟩
  · intro hready
    simp only
    rcases findBlock ready.heap size alignment (ready.mapped.length + 1) ready.headBlock
      nullptr with _ | (⟨curr, block⟩ | last)
    · exact ⟨hready, fun ptr hok => by cases hok⟩
    · refine ⟨fun address hmapped => ?_, fun _ _ => ?_⟩
      · by_cases haddress : address = curr
        · simp [haddress]
        · simp only [Pool.writeBlock_heap, Function.update_of_ne haddress]
          exact hready address hmapped
      · simp
    · simp only [growAndTake, Pool.nextMapping]
      rcases allocateOSBlock_cases os (newBlockSize size) ready with
        ⟨refused, hresult, -, hheap, -⟩ | ⟨base, -, hanswer, hresult⟩
      · rw [hresult]
        refine ⟨fun address hmapped => ?_, fun ptr hok => by cases hok⟩
        simpa [hheap] using hready address hmapped
      · rw [hresult, hanswer]
        refine ⟨fun address hmapped => ?_, fun _ _ => ?_⟩
        · apply Pool.modifyBlock_kept
          apply Pool.linkBlock_kept
          exact Pool.mapBlock_kept _ _ _ _ (Or.inr (hready address hmapped))
        · apply Pool.modifyBlock_kept
          apply Pool.linkBlock_kept
          exact Pool.mapBlock_kept _ _ _ _ (Or.inl rfl)

theorem allocate_extends {os : Mmap} (hos : os.FreshRegions) (size alignment : Word)
    (pool : Pool) : pool.Extends (allocate os size alignment pool).2 := by
  refine ⟨?_, (allocate_kept os size alignment pool).1⟩
  rintro ⟨keys, haccounted⟩
  obtain ⟨_, after, keys', hresult, hafter, -⟩ := haccounted.allocate hos size alignment
  rw [hresult]
  exact ⟨keys', hafter⟩

theorem initializePool_extends {os : Mmap} (hos : os.FreshRegions) (capacity : Word)
    (pool : Pool) : pool.Extends (initializePool os capacity pool).2 := by
  refine ⟨?_, initializePool_kept os capacity pool⟩
  rintro ⟨keys, haccounted⟩
  rcases haccounted.initializePool hos capacity with
    ⟨after, keys', hresult, hafter, -⟩ | ⟨after, hresult, hafter⟩
  · rw [hresult]
    exact ⟨keys', hafter⟩
  · rw [hresult]
    exact ⟨keys, hafter⟩

section

variable {os : Mmap}

theorem stlAllocate_kept (os : Mmap) (request : StlRequest) (pool : Pool) :
    (∀ address, pool.heap address ≠ none →
      (stlAllocate os request pool).2.heap address ≠ none) ∧
    (∀ ptr, (stlAllocate os request pool).1 = .ok ptr →
      (stlAllocate os request pool).2.heap
        (pool.blockFor os (request.n * request.sizeofT) request.alignofT) ≠ none) := by
  have hkept := allocate_kept os (request.n * request.sizeofT) request.alignofT pool
  rw [stlAllocate]
  split
  · exact ⟨fun _ => id, fun ptr hok => by cases hok⟩
  · rcases hresult : allocate os (request.n * request.sizeofT) request.alignofT pool with
      ⟨_ | ptr, after⟩
    · rw [hresult] at hkept
      exact ⟨hkept.1, fun ptr hok => by cases hok⟩
    · rw [hresult] at hkept
      by_cases hnull : ptr = nullptr
      · simp only [hnull, if_true]
        exact ⟨hkept.1, fun ptr hok => by cases hok⟩
      · simp only [hnull, if_false]
        exact ⟨hkept.1, fun _ _ => hkept.2 ptr rfl⟩

theorem stlAllocate_extends (hos : os.FreshRegions) (request : StlRequest) (pool : Pool) :
    pool.Extends (stlAllocate os request pool).2 := by
  refine ⟨?_, (stlAllocate_kept os request pool).1⟩
  have hextends :=
    allocate_extends hos (request.n * request.sizeofT) request.alignofT pool
  rw [stlAllocate]
  split
  · exact id
  · rcases hresult : allocate os (request.n * request.sizeofT) request.alignofT pool with
      ⟨_ | ptr, after⟩
    · rw [hresult] at hextends
      exact hextends.accounted
    · rw [hresult] at hextends
      by_cases hnull : ptr = nullptr
      · simp only [hnull, if_true]
        exact hextends.accounted
      · simp only [hnull, if_false]
        exact hextends.accounted

theorem stlAllocateAll_extends (hos : os.FreshRegions) (requests : List StlRequest)
    (pool : Pool) : pool.Extends (stlAllocateAll os requests pool).2 := by
  induction requests generalizing pool with
  | nil => exact .refl pool
  | cons request requests ih =>
      have hfirst := stlAllocate_extends hos request pool
      rw [stlAllocateAll]
      rcases hresult : stlAllocate os request pool with ⟨_ | ptr, after⟩
      · rw [hresult] at hfirst
        exact hfirst
      · rw [hresult] at hfirst
        exact hfirst.trans (ih after)

end

end Domovoy
