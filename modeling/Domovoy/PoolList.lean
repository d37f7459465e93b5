/-
The block list of the isolated allocator: mapping a block, linking it and the
first-fit walk, described by the list of block addresses.
-/
import Domovoy.LinkedChain
import Domovoy.Pool

namespace Domovoy

open WordAlign LinkedChain

/-- The blocks from `headBlock` through `next` are `keys`, every header lies on
that list, and every block was mapped. -/
structure Pool.Linked (pool : Pool) (keys : List Word) : Prop where
  chain : Chain Block.next nullptr pool.heap pool.headBlock keys
  complete : ∀ address block, pool.heap address = some block → address ∈ keys
  short : keys.length ≤ pool.mapped.length

@[simp] theorem Pool.writeBlock_heap (pool : Pool) (address : Word)
    (block : Block) :
    (pool.writeBlock address block).heap =
      Function.update pool.heap address (some block) := rfl

theorem Pool.modifyBlock_eq {pool : Pool} {address : Word} {block : Block}
    (hblock : pool.heap address = some block) (f : Block → Block) :
    pool.modifyBlock address f = pool.writeBlock address (f block) := by
  rw [Pool.modifyBlock, hblock]

theorem Pool.mapBlock_heap (pool : Pool) (base size : Word) :
    (pool.mapBlock base size).heap = Function.update pool.heap base
      (some { memory := base + sizeofBlock, size := size, used := 0, next := nullptr }) :=
  rfl

/-- What one attempt to map a block can do: fail with `bad_alloc` and leave the
list alone, or map the block at a non-null address. -/
theorem allocateOSBlock_cases (os : Mmap) (size : Word) (pool : Pool) :
    (∃ refused, allocateOSBlock os size pool = (.error .badAlloc, refused) ∧
      refused.headBlock = pool.headBlock ∧ refused.heap = pool.heap ∧
        (refused.mapped = pool.mapped ∨
          ∃ base, os pool.mmapCalls pool.mapped (size + sizeofBlock) = some base ∧
            refused.mapped = pool.mapped ++ [⟨base, size + sizeofBlock⟩])) ∨
      ∃ base, base ≠ nullptr ∧
        os pool.mmapCalls pool.mapped (size + sizeofBlock) = some base ∧
          allocateOSBlock os size pool = (.ok base, pool.mapBlock base size) := by
  cases hanswer : os pool.mmapCalls pool.mapped (size + sizeofBlock) with
  | none =>
      left
      exact ⟨{ pool with mmapCalls := pool.mmapCalls + 1 },
        by simp [allocateOSBlock, hanswer], rfl, rfl, Or.inl rfl⟩
  | some base =>
      by_cases hnull : base = nullptr
      · left
        exact ⟨pool.addRegion ⟨base, size + sizeofBlock⟩,
          by simp [allocateOSBlock, hanswer, hnull], rfl, rfl,
          Or.inr ⟨base, rfl, rfl⟩⟩
      · right
        exact ⟨base, hnull, rfl, by simp [allocateOSBlock, hanswer, hnull]⟩

theorem Pool.Linked.heap_eq_none {pool : Pool} {keys : List Word}
    (hlinked : pool.Linked keys) {address : Word} (haddress : address ∉ keys) :
    pool.heap address = none := by
  cases hblock : pool.heap address with
  | none => rfl
  | some block => exact absurd (hlinked.complete address block hblock) haddress

theorem Pool.Linked.nil_iff {pool : Pool} {keys : List Word}
    (hlinked : pool.Linked keys) : pool.headBlock = nullptr ↔ keys = [] := by
  cases keys with
  | nil => exact ⟨fun _ => rfl, fun _ => hlinked.chain⟩
  | cons key keys =>
      rcases hlinked.chain with ⟨hhead, hne, _⟩
      simp [hhead, hne]

/-- Writing a header back with its link unchanged keeps the list. -/
theorem Pool.Linked.writeBlock {pool : Pool} {keys : List Word}
    (hlinked : pool.Linked keys) {address : Word} {old new : Block}
    (hold : pool.heap address = some old) (hnext : new.next = old.next) :
    (pool.writeBlock address new).Linked keys := by
  refine ⟨hlinked.chain.congr ?_, ?_, hlinked.short⟩
  · intro key _
    by_cases hkey : key = address
    · rw [hkey]
      simp [hold, hnext]
    · simp [hkey]
  · intro key block hblock
    by_cases hkey : key = address
    · rw [hkey]
      exact hlinked.complete address old hold
    · rw [Pool.writeBlock_heap, Function.update_of_ne hkey] at hblock
      exact hlinked.complete key block hblock

/-- The first block of an empty list. -/
theorem Pool.Linked.mapHead {pool : Pool} (hlinked : pool.Linked [])
    {base size : Word} (hbase : base ≠ nullptr) :
    ({ pool.mapBlock base size with headBlock := base } : Pool).Linked [base] := by
  refine ⟨⟨rfl, hbase, _, Function.update_self .., rfl⟩, ?_, ?_⟩
  · intro address block hblock
    change Function.update pool.heap base _ address = some block at hblock
    by_cases haddress : address = base
    · simp [haddress]
    · rw [Function.update_of_ne haddress,
        hlinked.heap_eq_none List.not_mem_nil] at hblock
      contradiction
  · change 1 ≤ (pool.mapped ++ [_]).length
    simp

/-- The header of the last block once a new block is linked behind it, and the
header of the new block. -/
theorem Pool.linkBlock_heap {pool : Pool} {last base : Word}
    {lastBlock : Block} (size : Word) (hlast : last ≠ nullptr) (hne : last ≠ base)
    (hlastBlock : pool.heap last = some lastBlock) :
    ((pool.mapBlock base size).linkBlock last base).heap =
      Function.update (Function.update pool.heap last
          (some { lastBlock with next := base }))
        base (some { memory := base + sizeofBlock, size := size, used := 0,
                     next := nullptr }) := by
  have hread : (pool.mapBlock base size).heap last = some lastBlock := by
    rw [Pool.mapBlock_heap, Function.update_of_ne hne, hlastBlock]
  rw [Pool.linkBlock, if_pos hlast, Pool.modifyBlock_eq hread,
    Pool.writeBlock_heap, Pool.mapBlock_heap,
    Function.update_comm hne]

theorem Pool.linkBlock_of_linked {pool : Pool} {last base : Word}
    {lastBlock : Block} (size : Word) (hlast : last ≠ nullptr) (hne : last ≠ base)
    (hlastBlock : pool.heap last = some lastBlock) :
    ((pool.mapBlock base size).linkBlock last base).headBlock = pool.headBlock ∧
      ((pool.mapBlock base size).linkBlock last base).mapped =
        pool.mapped ++ [⟨base, size + sizeofBlock⟩] := by
  have hread : (pool.mapBlock base size).heap last = some lastBlock := by
    rw [Pool.mapBlock_heap, Function.update_of_ne hne, hlastBlock]
  rw [Pool.linkBlock, if_pos hlast, Pool.modifyBlock_eq hread]
  exact ⟨rfl, rfl⟩

/-- The last block of a list, next to a new one. -/
theorem Pool.Linked.exists_last {pool : Pool} {keys : List Word} {last base : Word}
    (hlinked : pool.Linked (keys ++ [last])) (hfresh : base ∉ keys ++ [last]) :
    ∃ lastBlock, pool.heap last = some lastBlock ∧ last ≠ nullptr ∧ last ≠ base := by
  have hlastMem : last ∈ keys ++ [last] := by simp
  obtain ⟨lastBlock, hlastBlock⟩ := hlinked.chain.exists_node hlastMem
  exact ⟨lastBlock, hlastBlock, hlinked.chain.ne_null hlastMem,
    fun heq => hfresh (heq ▸ hlastMem)⟩

/-- A fresh block linked behind the last one extends the list at its tail. -/
theorem Pool.Linked.mapTail {pool : Pool} {keys : List Word} {last base : Word}
    {size : Word} (hlinked : pool.Linked (keys ++ [last])) (hbase : base ≠ nullptr)
    (hfresh : base ∉ keys ++ [last]) :
    ((pool.mapBlock base size).linkBlock last base).Linked
      (keys ++ [last, base]) := by
  obtain ⟨lastBlock, hlastBlock, hlast, hne⟩ := hlinked.exists_last hfresh
  have hheap := Pool.linkBlock_heap size hlast hne hlastBlock
  obtain ⟨hhead, hmapped⟩ :=
    Pool.linkBlock_of_linked size hlast hne hlastBlock
  refine ⟨?_, ?_, ?_⟩
  · rw [hheap, hhead]
    exact hlinked.chain.append hfresh hbase rfl rfl
  · intro address block hblock
    rw [hheap] at hblock
    by_cases hnew : address = base
    · simp [hnew]
    · by_cases hold : address = last
      · simp [hold]
      · rw [Function.update_of_ne hnew, Function.update_of_ne hold] at hblock
        have hmem := hlinked.complete address block hblock
        simp only [List.mem_append, List.mem_cons, List.not_mem_nil, or_false] at hmem ⊢
        rcases hmem with hmem | hmem
        · exact Or.inl hmem
        · exact Or.inr (Or.inl hmem)
  · have hshort := hlinked.short
    rw [hmapped]
    simp only [List.length_append, List.length_cons, List.length_nil] at hshort ⊢
    omega

/-- The walk with enough fuel is first fit: it stops at the first block of the
list with room, or reports the last block when there is none. -/
theorem findBlock_spec {heap : Word → Option Block} (size alignment : Word)
    {fuel : Nat} {curr : Word} (last : Word) {keys : List Word}
    (hchain : Chain Block.next nullptr heap curr keys) (hfuel : keys.length < fuel) :
    (∃ before key after block, keys = before ++ key :: after ∧
        heap key = some block ∧ block.fits size alignment ∧
        (∀ other ∈ before, ∀ skipped, heap other = some skipped →
          ¬ skipped.fits size alignment) ∧
        findBlock heap size alignment fuel curr last = .ok (.found key block)) ∨
      ((∀ other ∈ keys, ∀ skipped, heap other = some skipped →
          ¬ skipped.fits size alignment) ∧
        findBlock heap size alignment fuel curr last =
          .ok (.exhausted (keys.getLastD last))) := by
  induction keys generalizing fuel curr last with
  | nil =>
      cases fuel with
      | zero => simp at hfuel
      | succ fuel =>
          right
          have hnull : curr = nullptr := hchain
          exact ⟨by simp, by simp [findBlock, hnull]⟩
  | cons key keys ih =>
      cases fuel with
      | zero => simp at hfuel
      | succ fuel =>
          obtain ⟨rfl, hne, block, hblock, htail⟩ := hchain
          by_cases hfits : block.fits size alignment
          · left
            exact ⟨[], curr, keys, block, rfl, hblock, hfits, by simp,
              by simp [findBlock, hne, hblock, hfits]⟩
          · have hstep : findBlock heap size alignment (fuel + 1) curr last =
                findBlock heap size alignment fuel block.next curr := by
              simp [findBlock, hne, hblock, hfits]
            have hskip : ∀ skipped, heap curr = some skipped →
                ¬ skipped.fits size alignment := by
              intro skipped hskipped
              rw [hblock] at hskipped
              exact Option.some.inj hskipped ▸ hfits
            have hshorter : keys.length < fuel := by
              simp only [List.length_cons] at hfuel
              omega
            rw [hstep]
            rcases ih curr htail hshorter with hfound | hnone
            · obtain ⟨before, key, after, found, hsplit, hfound, hroom, hbefore,
                hresult⟩ := hfound
              left
              refine ⟨curr :: before, key, after, found, by simp [hsplit], hfound,
                hroom, ?_, hresult⟩
              intro other hother
              rcases List.mem_cons.mp hother with rfl | hother
              · exact hskip
              · exact hbefore other hother
            · right
              refine ⟨?_, ?_⟩
              · intro other hother
                rcases List.mem_cons.mp hother with rfl | hother
                · exact hskip
                · exact hnone.1 other hother
              · rw [hnone.2, List.getLastD_cons]

/-- After its auto-initialisation `Allocate` works on the list it has found or made. -/
theorem allocate_of_ensureHead {os : Mmap} {pool ready : Pool}
    (hready : ensureHead os pool = (.ok (), ready)) (size alignment : Word) :
    allocate os size alignment pool = allocate os size alignment ready := by
  have hhead : ready.headBlock ≠ nullptr := by
    rw [ensureHead] at hready
    split at hready
    next =>
      rcases allocateOSBlock_cases os minBlockSize pool with
        ⟨refused, hresult, -⟩ | ⟨base, hbase, -, hresult⟩
      · simp only [hresult] at hready
        cases hready
      · simp only [hresult] at hready
        obtain rfl := (Prod.mk.inj hready).2
        exact hbase
    next hhead =>
      obtain rfl := (Prod.mk.inj hready).2
      exact hhead
  have hagain : ensureHead os ready = (.ok (), ready) := by
    rw [ensureHead, if_neg hhead]
  rw [allocate, allocate, hready, hagain]

/-- `Allocate` on a list that is not empty: the first block with room, or one more. -/
theorem Pool.Linked.allocate_cases (os : Mmap) (size alignment : Word) {pool : Pool}
    {keys : List Word} (hlinked : pool.Linked keys) (hkeys : keys ≠ []) :
    (∃ before key after block, keys = before ++ key :: after ∧
        pool.heap key = some block ∧ block.fits size alignment ∧
        (∀ other ∈ before, ∀ skipped, pool.heap other = some skipped →
          ¬ skipped.fits size alignment) ∧
        allocate os size alignment pool = (.ok (block.alignedAddr alignment),
          pool.writeBlock key (block.take size alignment))) ∨
      ((∀ other ∈ keys, ∀ skipped, pool.heap other = some skipped →
          ¬ skipped.fits size alignment) ∧
        allocate os size alignment pool =
          growAndTake os size alignment (keys.getLastD nullptr) pool) := by
  have hhead : pool.headBlock ≠ nullptr := fun hnull => hkeys (hlinked.nil_iff.mp hnull)
  have hensure : ensureHead os pool = (.ok (), pool) := by
    rw [ensureHead, if_neg hhead]
  rcases findBlock_spec size alignment nullptr hlinked.chain
    (Nat.lt_succ_of_le hlinked.short) with
    ⟨before, key, after, block, hsplit, hblock, hfits, hbefore, hfound⟩ | ⟨hnone, hfound⟩
  · exact Or.inl ⟨before, key, after, block, hsplit, hblock, hfits, hbefore,
      by simp [allocate, hensure, hfound]⟩
  · exact Or.inr ⟨hnone, by simp [allocate, hensure, hfound]⟩

/-- The pool once a new block has been linked behind `last` and the chunk taken from
it. -/
def Pool.grow (pool : Pool) (last base size alignment : Word) : Pool :=
  ((pool.mapBlock base (newBlockSize size)).linkBlock last base).modifyBlock base
    fun block => block.take size alignment

theorem growAndTake_of_refused {os : Mmap} {pool refused : Pool} {error : PoolError}
    {size alignment last : Word}
    (hresult : allocateOSBlock os (newBlockSize size) pool = (.error error, refused)) :
    growAndTake os size alignment last pool = (.error error, refused) := by
  simp [growAndTake, hresult]

theorem growAndTake_of_mapped {os : Mmap} {pool : Pool} {size alignment last base : Word}
    (hresult : allocateOSBlock os (newBlockSize size) pool =
      (.ok base, pool.mapBlock base (newBlockSize size))) :
    growAndTake os size alignment last pool =
      (.ok (alignUp (base + sizeofBlock) alignment),
        pool.grow last base size alignment) := by
  simp [growAndTake, hresult, Pool.grow]

/-- The header that `Allocate` writes for a block it has just mapped. -/
def Block.fresh (base size : Word) : Block where
  memory := base + sizeofBlock
  size := size
  used := 0
  next := nullptr

theorem Block.fresh_alignedAddr (base size alignment : Word) :
    (Block.fresh base size).alignedAddr alignment =
      alignUp (base + sizeofBlock) alignment := by
  simp [Block.alignedAddr, Block.fresh]

/-- Growing a list that is not empty takes the chunk from the new block's header. -/
theorem Pool.grow_eq {pool : Pool} {last base : Word} {lastBlock : Block}
    (size alignment : Word) (hlast : last ≠ nullptr) (hne : last ≠ base)
    (hlastBlock : pool.heap last = some lastBlock) :
    pool.grow last base size alignment =
      ((pool.mapBlock base (newBlockSize size)).linkBlock last base).writeBlock base
        ((Block.fresh base (newBlockSize size)).take size alignment) := by
  have hnew : ((pool.mapBlock base (newBlockSize size)).linkBlock last base).heap base =
      some (Block.fresh base (newBlockSize size)) := by
    rw [Pool.linkBlock_heap _ hlast hne hlastBlock, Function.update_self]
    rfl
  rw [Pool.grow, Pool.modifyBlock_eq hnew]

/-- Growing appends one block to the list, with the chunk taken from it. -/
theorem Pool.Linked.grow {pool : Pool} {keys : List Word} {last base : Word}
    (hlinked : pool.Linked (keys ++ [last])) (hbase : base ≠ nullptr)
    (hfresh : base ∉ keys ++ [last]) (size alignment : Word) :
    (pool.grow last base size alignment).Linked (keys ++ [last] ++ [base]) ∧
      (pool.grow last base size alignment).mapped =
        pool.mapped ++ [⟨base, newBlockSize size + sizeofBlock⟩] ∧
      (pool.grow last base size alignment).mmapCalls = pool.mmapCalls + 1 ∧
      ∃ lastBlock, pool.heap last = some lastBlock ∧
        (pool.grow last base size alignment).heap =
          Function.update (Function.update pool.heap last
              (some { lastBlock with next := base }))
            base (some ((Block.fresh base (newBlockSize size)).take size alignment)) := by
  obtain ⟨lastBlock, hlastBlock, hlast, hne⟩ := hlinked.exists_last hfresh
  have hheap := Pool.linkBlock_heap (newBlockSize size) hlast hne hlastBlock
  have hmapped := (Pool.linkBlock_of_linked (newBlockSize size) hlast hne hlastBlock).2
  have htail : ((pool.mapBlock base (newBlockSize size)).linkBlock last base).Linked
      (keys ++ [last, base]) := hlinked.mapTail hbase hfresh
  rw [Pool.grow_eq size alignment hlast hne hlastBlock]
  refine ⟨?_, hmapped, ?_, lastBlock, hlastBlock, ?_⟩
  · have hnew : ((pool.mapBlock base (newBlockSize size)).linkBlock last base).heap base =
        some (Block.fresh base (newBlockSize size)) := by
      rw [hheap, Function.update_self]
      rfl
    rw [List.append_assoc]
    exact htail.writeBlock hnew rfl
  · have hread : (pool.mapBlock base (newBlockSize size)).heap last = some lastBlock := by
      rw [Pool.mapBlock_heap, Function.update_of_ne hne, hlastBlock]
    rw [Pool.linkBlock, if_pos hlast, Pool.modifyBlock_eq hread]
    rfl
  · rw [Pool.writeBlock_heap, hheap, Function.update_idem]

end Domovoy
