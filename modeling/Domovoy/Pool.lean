/-
The isolated allocator: a bump allocator over a linked list of blocks that are
mapped directly from the operating system.  Each block keeps its header inline
at the start of its own mapping, so the heap below is keyed by mapped address.
-/
import Domovoy.Config

namespace Domovoy

open WordAlign

/-- The inline block header. -/
structure Block where
  memory : Word
  size : Word
  used : Word
  next : Word
deriving DecidableEq, Repr

/-- `sizeof(Block)` on the 64-bit targets. -/
def sizeofBlock : Word := 32

/-- The fallback and minimum block size, 2 MiB. -/
def minBlockSize : Word := 2 * 1024 * 1024

/-- A mapping obtained from the operating system. -/
structure Region where
  base : Word
  length : Word
deriving DecidableEq, Repr

/-- The operating system's answers: the `n`-th `mmap` call of the process, made
with the given regions mapped and the given length, yields an address or
`MAP_FAILED`. -/
abbrev Mmap := Nat → List Region → Word → Option Word

/-- The allocator together with the part of the address space it owns.  The
regions are listed in the order in which they were mapped. -/
structure Pool where
  headBlock : Word
  heap : Word → Option Block
  mapped : List Region
  mmapCalls : Nat

/-- `badAlloc` is the exception of the code.  The other two are defects of a
run: reading a header that is not mapped, and a walk that does not end. -/
inductive PoolError where
  | badAlloc
  | fault
  | diverges
deriving DecidableEq, Repr

/-- The allocator before its first use. -/
def Pool.initial : Pool where
  headBlock := nullptr
  heap := fun _ => none
  mapped := []
  mmapCalls := 0

def Pool.writeBlock (pool : Pool) (address : Word) (block : Block) : Pool :=
  { pool with heap := Function.update pool.heap address (some block) }

/-- Assign to a header in place; a null or unmapped address is left alone. -/
def Pool.modifyBlock (pool : Pool) (address : Word) (f : Block → Block) : Pool :=
  match pool.heap address with
  | some block => pool.writeBlock address (f block)
  | none => pool

/-- The pool once `mmap` has answered with a region. -/
def Pool.addRegion (pool : Pool) (region : Region) : Pool :=
  { pool with
    mapped := pool.mapped ++ [region]
    mmapCalls := pool.mmapCalls + 1 }

/-- Write the header of a block just mapped at `base`. -/
def Pool.mapBlock (pool : Pool) (base size : Word) : Pool :=
  (pool.addRegion ⟨base, size + sizeofBlock⟩).writeBlock base
    { memory := base + sizeofBlock, size := size, used := 0, next := nullptr }

def allocateOSBlock (os : Mmap) (size : Word) (pool : Pool) :
    Except PoolError Word × Pool :=
  let totalSize := size + sizeofBlock
  match os pool.mmapCalls pool.mapped totalSize with
  | none => (.error .badAlloc, { pool with mmapCalls := pool.mmapCalls + 1 })
  | some mappedMem =>
      if mappedMem = nullptr then
        (.error .badAlloc, pool.addRegion ⟨mappedMem, totalSize⟩)
      else (.ok mappedMem, pool.mapBlock mappedMem size)

/-- `munmap(block, block->size + sizeof(Block))`. -/
def freeOSBlock (address : Word) (block : Block) (pool : Pool) : Pool :=
  { pool with
    heap := Function.update pool.heap address none
    mapped := pool.mapped.erase ⟨address, block.size + sizeofBlock⟩ }

def initializePool (os : Mmap) (initialCapacityBytes : Word) (pool : Pool) :
    Except PoolError Unit × Pool :=
  if pool.headBlock = nullptr then
    let allocSize := maxWord initialCapacityBytes minBlockSize
    match allocateOSBlock os allocSize pool with
    | (.ok block, pool) => (.ok (), { pool with headBlock := block })
    | (.error error, pool) => (.error error, pool)
  else (.ok (), pool)

/-- The loop of `Shutdown`, stopped after `fuel` rounds. -/
def freeBlocks : Nat → Word → Pool → Except PoolError Unit × Pool
  | 0, _, pool => (.error .diverges, pool)
  | fuel + 1, curr, pool =>
      if curr = nullptr then (.ok (), pool)
      else
        match pool.heap curr with
        | none => (.error .fault, pool)
        | some block => freeBlocks fuel block.next (freeOSBlock curr block pool)

def shutdown (pool : Pool) : Except PoolError Unit × Pool :=
  match freeBlocks (pool.mapped.length + 1) pool.headBlock pool with
  | (.ok (), pool) => (.ok (), { pool with headBlock := nullptr })
  | (.error error, pool) => (.error error, pool)

/-- The address at which a block would place its next chunk. -/
def Block.alignedAddr (block : Block) (alignment : Word) : Word :=
  alignUp (block.memory + block.used) alignment

/-- The bytes skipped before that address. -/
def Block.padding (block : Block) (alignment : Word) : Word :=
  block.alignedAddr alignment - (block.memory + block.used)

def Block.fits (block : Block) (size alignment : Word) : Prop :=
  block.used + block.padding alignment + size ≤ block.size

instance (block : Block) (size alignment : Word) :
    Decidable (block.fits size alignment) :=
  inferInstanceAs (Decidable (_ ≤ _))

/-- Advance the bump pointer past a chunk. -/
def Block.take (block : Block) (size alignment : Word) : Block :=
  { block with used := block.used + (block.padding alignment + size) }

/-- How the first-fit walk ends: at a block with room, or past the last block. -/
inductive WalkEnd where
  | found (curr : Word) (block : Block)
  | exhausted (last : Word)
deriving DecidableEq, Repr

/-- The loop `while (curr)` of `Allocate`, stopped after `fuel` rounds. -/
def findBlock (heap : Word → Option Block) (size alignment : Word) :
    Nat → Word → Word → Except PoolError WalkEnd
  | 0, _, _ => .error .diverges
  | fuel + 1, curr, last =>
      if curr = nullptr then .ok (.exhausted last)
      else
        match heap curr with
        | none => .error .fault
        | some block =>
            if block.fits size alignment then .ok (.found curr block)
            else findBlock heap size alignment fuel block.next curr

/-- The auto-initialisation at the top of `Allocate`. -/
def ensureHead (os : Mmap) (pool : Pool) : Except PoolError Unit × Pool :=
  if pool.headBlock = nullptr then
    match allocateOSBlock os minBlockSize pool with
    | (.ok block, pool) => (.ok (), { pool with headBlock := block })
    | (.error error, pool) => (.error error, pool)
  else (.ok (), pool)

/-- Link a new block behind `last`, or at the head of an empty list. -/
def Pool.linkBlock (pool : Pool) (last newBlock : Word) : Pool :=
  if last ≠ nullptr then
    pool.modifyBlock last fun block => { block with next := newBlock }
  else { pool with headBlock := newBlock }

/-- The size of the block that `Allocate` maps when no block has room. -/
def newBlockSize (size : Word) : Word :=
  maxWord (size * 2) minBlockSize

/-- The tail of `Allocate`: map one more block and take the chunk from it
without repeating the fit test. -/
def growAndTake (os : Mmap) (size alignment last : Word) (pool : Pool) :
    Except PoolError Word × Pool :=
  match allocateOSBlock os (newBlockSize size) pool with
  | (.error error, pool) => (.error error, pool)
  | (.ok newBlock, pool) =>
      let pool := pool.linkBlock last newBlock
      let alignedAddr := alignUp (newBlock + sizeofBlock) alignment
      (.ok alignedAddr, pool.modifyBlock newBlock fun block => block.take size alignment)

def allocate (os : Mmap) (size alignment : Word) (pool : Pool) :
    Except PoolError Word × Pool :=
  match ensureHead os pool with
  | (.error error, pool) => (.error error, pool)
  | (.ok (), pool) =>
      match findBlock pool.heap size alignment (pool.mapped.length + 1)
          pool.headBlock nullptr with
      | .error error => (.error error, pool)
      | .ok (.found curr block) =>
          (.ok (block.alignedAddr alignment),
            pool.writeBlock curr (block.take size alignment))
      | .ok (.exhausted last) => growAndTake os size alignment last pool

/-- `Deallocate` keeps the chunk until the pool is shut down. -/
def deallocate (_ptr _size : Word) (pool : Pool) : Pool := pool

end Domovoy
