/-
The containers of the framework on top of the isolated pool: which of their requests
for memory are granted, and which end in `bad_alloc`.
-/
import Domovoy.PoolSafety

namespace Domovoy

open WordAlign LinkedChain

/-- `allocate(n)` of a `StlAllocator<T>`. -/
structure StlRequest where
  n : Word
  sizeofT : Word
  alignofT : Word
deriving DecidableEq, Repr

/-- `std::numeric_limits<std::size_t>::max()`. -/
def maxSize : Word := BitVec.allOnes 64

def stlAllocate (os : Mmap) (request : StlRequest) (pool : Pool) :
    Except PoolError Word × Pool :=
  if maxSize / request.sizeofT < request.n then (.error .badAlloc, pool)
  else
    match allocate os (request.n * request.sizeofT) request.alignofT pool with
    | (.ok p, pool) => if p = nullptr then (.error .badAlloc, pool) else (.ok p, pool)
    | (.error error, pool) => (.error error, pool)

/-- Requests made one after the other, up to the first that is refused. -/
def stlAllocateAll (os : Mmap) :
    List StlRequest → Pool → Except PoolError Unit × Pool
  | [], pool => (.ok (), pool)
  | request :: requests, pool =>
      match stlAllocate os request pool with
      | (.ok _, pool) => stlAllocateAll os requests pool
      | (.error error, pool) => (.error error, pool)

/-- The operating system's answer to a request for one more block. -/
def Pool.nextMapping (os : Mmap) (size : Word) (pool : Pool) : Option Word :=
  os pool.mmapCalls pool.mapped (size + sizeofBlock)

/-- The operating system has another block. -/
def Pool.Maps (os : Mmap) (size : Word) (pool : Pool) : Prop :=
  ∃ base, pool.nextMapping os size = some base ∧ base ≠ nullptr

/-- The walk over the blocks, as `Allocate` begins it. -/
def Pool.walk (size alignment : Word) (pool : Pool) : Except PoolError WalkEnd :=
  findBlock pool.heap size alignment (pool.mapped.length + 1) pool.headBlock nullptr

/-- The block that `Allocate` takes the chunk from, when it returns one. -/
def Pool.blockFor (os : Mmap) (size alignment : Word) (pool : Pool) : Word :=
  let ready := (ensureHead os pool).2
  match ready.walk size alignment with
  | .ok (.found curr _) => curr
  | .ok (.exhausted _) => (ready.nextMapping os (newBlockSize size)).getD nullptr
  | .error _ => nullptr

/-- A block has room for the chunk, or the operating system has another block; and the
chunk is not at the null address. -/
def Pool.Places (os : Mmap) (size alignment : Word) (pool : Pool) : Prop :=
  match pool.walk size alignment with
  | .ok (.found _ block) => block.alignedAddr alignment ≠ nullptr
  | .ok (.exhausted _) =>
      ∃ base, pool.nextMapping os (newBlockSize size) = some base ∧ base ≠ nullptr ∧
        alignUp (base + sizeofBlock) alignment ≠ nullptr
  | .error _ => False

/-- An empty pool can be given its first block. -/
def Pool.Ready (os : Mmap) (pool : Pool) : Prop :=
  pool.headBlock = nullptr → pool.Maps os minBlockSize

def StlRequest.Granted (os : Mmap) (request : StlRequest) (pool : Pool) : Prop :=
  request.n ≤ maxSize / request.sizeofT ∧ pool.Ready os ∧
    (ensureHead os pool).2.Places os (request.n * request.sizeofT) request.alignofT

/-- Each request is granted in the pool that the one before it leaves. -/
def Pool.Supplies (os : Mmap) : List StlRequest → Pool → Prop
  | [], _ => True
  | request :: requests, pool =>
      request.Granted os pool ∧ (stlAllocate os request pool).2.Supplies os requests

theorem allocateOSBlock_ok_iff (os : Mmap) (size : Word) (pool : Pool) (block : Word) :
    (allocateOSBlock os size pool).1 = .ok block ↔
      pool.nextMapping os size = some block ∧ block ≠ nullptr := by
  rw [allocateOSBlock, Pool.nextMapping]
  cases os pool.mmapCalls pool.mapped (size + sizeofBlock) with
  | none => simp
  | some base =>
      by_cases hnull : base = nullptr
      · simp only [hnull, if_true, reduceCtorEq, false_iff, not_and]
        rintro hsome
        exact fun hne => hne (Option.some.inj hsome).symm
      · simp only [hnull, if_false, Except.ok.injEq, Option.some.injEq]
        constructor
        · rintro rfl
          exact ⟨rfl, hnull⟩
        · exact And.left

theorem ensureHead_ok_iff (os : Mmap) (pool : Pool) :
    (ensureHead os pool).1 = .ok () ↔ pool.Ready os := by
  rw [ensureHead, Pool.Ready, Pool.Maps]
  by_cases hhead : pool.headBlock = nullptr
  · simp only [hhead, if_true, true_implies]
    simp only [← allocateOSBlock_ok_iff]
    rcases allocateOSBlock os minBlockSize pool with ⟨result, after⟩
    cases result <;> simp
  · simp [hhead]

theorem growAndTake_ok_iff (os : Mmap) (size alignment last : Word) (pool : Pool)
    (ptr : Word) :
    (growAndTake os size alignment last pool).1 = .ok ptr ↔
      ∃ base, pool.nextMapping os (newBlockSize size) = some base ∧ base ≠ nullptr ∧
        alignUp (base + sizeofBlock) alignment = ptr := by
  simp only [growAndTake, ← and_assoc, ← allocateOSBlock_ok_iff]
  rcases allocateOSBlock os (newBlockSize size) pool with ⟨result, after⟩
  cases result <;> simp

/-- When `Allocate` hands out a chunk. -/
theorem allocate_ok_iff (os : Mmap) (size alignment : Word) (pool : Pool) :
    (∃ ptr, (allocate os size alignment pool).1 = .ok ptr ∧ ptr ≠ nullptr) ↔
      pool.Ready os ∧ (ensureHead os pool).2.Places os size alignment := by
  rw [← ensureHead_ok_iff, Pool.Places, Pool.walk, allocate]
  rcases ensureHead os pool with ⟨result, ready⟩
  cases result with
  | error error => simp
  | ok =>
      simp only [true_and]
      rcases findBlock ready.heap size alignment (ready.mapped.length + 1)
        ready.headBlock nullptr with error | found
      · simp
      · cases found with
        | found curr block => simp
        | exhausted last =>
            simp only [growAndTake_ok_iff]
            constructor
            · rintro ⟨_, ⟨base, hmaps, hbase, rfl⟩, hptr⟩
              exact ⟨base, hmaps, hbase, hptr⟩
            · rintro ⟨base, hmaps, hbase, hptr⟩
              exact ⟨_, ⟨base, hmaps, hbase, rfl⟩, hptr⟩

/-- When the allocator of a container hands out memory. -/
theorem stlAllocate_ok_iff (os : Mmap) (request : StlRequest) (pool : Pool) :
    (∃ ptr, (stlAllocate os request pool).1 = .ok ptr) ↔ request.Granted os pool := by
  rw [stlAllocate, StlRequest.Granted, ← allocate_ok_iff]
  by_cases hcount : maxSize / request.sizeofT < request.n
  · simp [hcount, BitVec.not_le.mpr hcount]
  · rw [if_neg hcount]
    simp only [BitVec.not_lt.mp hcount, true_and]
    rcases allocate os (request.n * request.sizeofT) request.alignofT pool with
      ⟨result, after⟩
    cases result with
    | error error => simp
    | ok ptr =>
        by_cases hptr : ptr = nullptr <;> simp [hptr]

/-- When every request of a container is met. -/
theorem stlAllocateAll_ok_iff (os : Mmap) (requests : List StlRequest) (pool : Pool) :
    (stlAllocateAll os requests pool).1 = .ok () ↔ pool.Supplies os requests := by
  induction requests generalizing pool with
  | nil => exact iff_of_true rfl trivial
  | cons request requests ih =>
      rw [stlAllocateAll, Pool.Supplies, ← stlAllocate_ok_iff]
      rcases stlAllocate os request pool with ⟨result, after⟩
      cases result with
      | error error => simp
      | ok ptr => simpa using ih after

end Domovoy
