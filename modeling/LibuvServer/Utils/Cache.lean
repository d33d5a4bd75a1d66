import LibuvServer.Lib.Memory
import Mathlib.Tactic.Common

/-!
# Pools of blocks

`utils/Cache.cc`: an arena cut into blocks of one size. A block that is not
in use holds, in its first eight bytes, the pointer to the next one, so
freeing a block writes into it. `PoolOk` says which blocks the list runs
through.
-/

namespace LibuvServer.Utils

open LibuvServer.Lib

/-- The size of a `cacheNode`, one pointer. -/
def NODE_SIZE : Nat := 8

/-- `cacheMan`. Addresses are numbers and 0 is `NULL`. -/
structure CacheMan where
  cacheMem : Nat
  listCache : Nat
  capacity : Nat
  elem_size : Nat

/-- The loop of `cacheCreator` after `i` passes: every block is put in front
of the list. -/
def linkBlocks (cacheMem elem_t : Nat) (mem : Mem) : Nat → Mem × Nat
  | 0 => (mem, 0)
  | i + 1 =>
    let linked := linkBlocks cacheMem elem_t mem i
    let walk := cacheMem + i * elem_t
    (linked.1.writePtr walk linked.2, walk)

/-- `cacheCreator`, with the arena `malloc` gave at `cacheMem`. -/
def cacheCreator (cacheMem : Nat) (mem : Mem) (capacity elem_t : Nat) : Mem × CacheMan :=
  let elem_t := if elem_t < NODE_SIZE then NODE_SIZE else elem_t
  let cleared := mem.write cacheMem (List.replicate (capacity * elem_t) 0)
  let linked := linkBlocks cacheMem elem_t cleared capacity
  (linked.1, { cacheMem, listCache := linked.2, capacity, elem_size := elem_t })

/-- `cacheAllocer` on the pool; `none` where it goes to `malloc`. -/
def cacheAllocer (mem : Mem) (cache : CacheMan) (elem_t : Nat) : Option (Nat × CacheMan) :=
  if cache.elem_size < elem_t then none
  else if cache.listCache ≠ 0 then
    some (cache.listCache, { cache with listCache := mem.readPtr cache.listCache })
  else none

/-- `cacheFree` on the pool; `none` where it goes to `free`. -/
def cacheFree (mem : Mem) (cache : CacheMan) (cacheMem : Nat) : Option (Mem × CacheMan) :=
  if cache.cacheMem ≤ cacheMem ∧ cacheMem < cache.cacheMem + cache.capacity * cache.elem_size then
    some (mem.writePtr cacheMem cache.listCache, { cache with listCache := cacheMem })
  else none

/-! ## The arena -/

namespace CacheMan

/-- The whole arena. -/
def arena (cache : CacheMan) : Block := ⟨cache.cacheMem, cache.capacity * cache.elem_size⟩

/-- The start of one of the blocks. -/
def IsBlock (cache : CacheMan) (b : Nat) : Prop :=
  ∃ i, i < cache.capacity ∧ b = cache.cacheMem + i * cache.elem_size

variable {cache : CacheMan} {b c : Nat}

theorem IsBlock.inside (h : cache.IsBlock b) : cache.arena.Contains ⟨b, cache.elem_size⟩ := by
  obtain ⟨i, hi, rfl⟩ := h
  have hle : (i + 1) * cache.elem_size ≤ cache.capacity * cache.elem_size :=
    Nat.mul_le_mul_right _ hi
  rw [Nat.succ_mul] at hle
  refine ⟨Nat.le_add_right _ _, ?_⟩
  simp only [arena]
  omega

/-- Where the blocks are does not depend on which are free. -/
theorem isBlock_listCache (cache : CacheMan) (p b : Nat) :
    { cache with listCache := p }.IsBlock b ↔ cache.IsBlock b := Iff.rfl

theorem arena_listCache (cache : CacheMan) (p : Nat) :
    { cache with listCache := p }.arena = cache.arena := rfl

/-- Different blocks do not overlap. -/
theorem IsBlock.apart (hb : cache.IsBlock b) (hc : cache.IsBlock c) (hne : b ≠ c) :
    Block.Apart ⟨b, cache.elem_size⟩ ⟨c, cache.elem_size⟩ := by
  obtain ⟨i, -, rfl⟩ := hb
  obtain ⟨j, -, rfl⟩ := hc
  have hij : i ≠ j := by
    rintro rfl
    exact hne rfl
  unfold Block.Apart
  simp only
  rcases Nat.lt_or_gt_of_ne hij with hlt | hgt
  · have hle : (i + 1) * cache.elem_size ≤ j * cache.elem_size := Nat.mul_le_mul_right _ hlt
    rw [Nat.succ_mul] at hle
    omega
  · have hle : (j + 1) * cache.elem_size ≤ i * cache.elem_size := Nat.mul_le_mul_right _ hgt
    rw [Nat.succ_mul] at hle
    omega

end CacheMan

/-! ## The free list -/

/-- The list that starts at `p` runs through the blocks `free`. -/
def Chain (mem : Mem) : Nat → List Nat → Prop
  | p, [] => p = 0
  | p, b :: free => p = b ∧ b ≠ 0 ∧ Chain mem (mem.readPtr b) free

/-- A list survives writes that leave its links alone. -/
theorem Chain.frame {mem mem' : Mem} {p : Nat} {free : List Nat} (h : Chain mem p free)
    (hsame : ∀ b ∈ free, mem'.readPtr b = mem.readPtr b) : Chain mem' p free := by
  induction free generalizing p with
  | nil => exact h
  | cons b free ih =>
    obtain ⟨hp, hb, hrest⟩ := h
    refine ⟨hp, hb, ?_⟩
    rw [hsame b (by simp)]
    exact ih hrest fun c hc => hsame c (by simp [hc])

theorem Chain.head_eq_zero {mem : Mem} {p : Nat} {free : List Nat} (h : Chain mem p free) :
    p = 0 ↔ free = [] := by
  cases free with
  | nil => simpa [Chain] using h
  | cons b free =>
    obtain ⟨rfl, hb, -⟩ := h
    simp [hb]

/-- The free list of a pool runs through different blocks of its arena. -/
structure PoolOk (mem : Mem) (cache : CacheMan) (free : List Nat) : Prop where
  chain : Chain mem cache.listCache free
  nodup : free.Nodup
  blocks : ∀ b ∈ free, cache.IsBlock b
  node : NODE_SIZE ≤ cache.elem_size
  base : 0 < cache.cacheMem
  top : cache.cacheMem + cache.capacity * cache.elem_size ≤ 2 ^ 64

section Pool

variable {mem : Mem} {cache : CacheMan} {free : List Nat} {b elem_t : Nat}

theorem PoolOk.block_lt (h : PoolOk mem cache free) (hb : cache.IsBlock b) : b < 2 ^ 64 := by
  have hin := hb.inside.2
  have htop := h.top
  have hnode := h.node
  unfold NODE_SIZE at hnode
  simp only [CacheMan.arena] at hin
  omega

theorem PoolOk.listCache_lt (h : PoolOk mem cache free) : cache.listCache < 2 ^ 64 := by
  cases free with
  | nil =>
    have hzero : cache.listCache = 0 := h.chain
    omega
  | cons b free =>
    have hhead : cache.listCache = b := h.chain.1
    rw [hhead]
    exact h.block_lt (h.blocks b (by simp))

/-- A write apart from the free blocks does not touch the pool. -/
theorem PoolOk.write (h : PoolOk mem cache free) {a : Nat} {data : List UInt8}
    (hapart : ∀ c ∈ free, Block.Apart ⟨a, data.length⟩ ⟨c, cache.elem_size⟩) :
    PoolOk (mem.write a data) cache free := by
  have hnode := h.node
  unfold NODE_SIZE at hnode
  have hlinks : ∀ c ∈ free, (mem.write a data).readPtr c = mem.readPtr c := by
    intro c hc
    have hlink : Block.Contains ⟨c, cache.elem_size⟩ ⟨c, 8⟩ := ⟨Nat.le_refl _, by simp only; omega⟩
    exact Mem.readPtr_write_apart ((hapart c hc).of_contains hlink)
  exact ⟨h.chain.frame hlinks, h.nodup, h.blocks, h.node, h.base, h.top⟩

/-- A write outside the arena does not touch the pool. -/
theorem PoolOk.write_outside (h : PoolOk mem cache free) {a : Nat} {data : List UInt8}
    (hapart : Block.Apart ⟨a, data.length⟩ cache.arena) : PoolOk (mem.write a data) cache free :=
  h.write fun c hc => hapart.of_contains (h.blocks c hc).inside

/-- **Allocating takes the first free block.** -/
theorem PoolOk.alloc (h : PoolOk mem cache (b :: free)) (hfit : elem_t ≤ cache.elem_size) :
    ∃ cache', cacheAllocer mem cache elem_t = some (b, cache') ∧ PoolOk mem cache' free ∧
      cache'.arena = cache.arena ∧ cache'.elem_size = cache.elem_size ∧
      (∀ c, cache'.IsBlock c ↔ cache.IsBlock c) := by
  obtain ⟨hhead, hne, hrest⟩ := h.chain
  have hpool : PoolOk mem { cache with listCache := mem.readPtr b } free :=
    { chain := hrest
      nodup := (List.nodup_cons.mp h.nodup).2
      blocks := fun c hc => (cache.isBlock_listCache _ c).mpr (h.blocks c (by simp [hc]))
      node := h.node
      base := h.base
      top := h.top }
  refine ⟨{ cache with listCache := mem.readPtr b }, ?_, hpool,
    cache.arena_listCache _, rfl, cache.isBlock_listCache _⟩
  rw [cacheAllocer, if_neg (by omega), if_pos (by omega), hhead]

/-- A pool that is empty, or whose blocks are too small, has nothing to give. -/
theorem PoolOk.alloc_none (h : PoolOk mem cache free)
    (hnone : cache.elem_size < elem_t ∨ free = []) : cacheAllocer mem cache elem_t = none := by
  rw [cacheAllocer]
  by_cases hsize : cache.elem_size < elem_t
  · rw [if_pos hsize]
  · have hempty := h.chain.head_eq_zero.mpr (hnone.resolve_left hsize)
    rw [if_neg hsize, if_neg (by omega)]

/-- **Freeing puts the block in front**, and writes into nothing but it. -/
theorem PoolOk.release (h : PoolOk mem cache free) (hb : cache.IsBlock b) (hnew : b ∉ free) :
    ∃ cache', cacheFree mem cache b = some (mem.writePtr b cache.listCache, cache') ∧
      PoolOk (mem.writePtr b cache.listCache) cache' (b :: free) ∧
      cache'.arena = cache.arena ∧ cache'.elem_size = cache.elem_size ∧
      (∀ c, cache'.IsBlock c ↔ cache.IsBlock c) := by
  have hin := hb.inside
  have hnode := h.node
  have hbase := h.base
  unfold NODE_SIZE at hnode
  simp only [CacheMan.arena, Block.Contains] at hin
  have hlinks : ∀ c ∈ free,
      (mem.writePtr b cache.listCache).readPtr c = mem.readPtr c := by
    intro c hc
    have hne : b ≠ c := by
      rintro rfl
      exact hnew hc
    have hapart := hb.apart (h.blocks c hc) hne
    refine Mem.readPtr_writePtr_apart ?_
    unfold Block.Apart at hapart ⊢
    simp only at hapart ⊢
    omega
  have hpool : PoolOk (mem.writePtr b cache.listCache) { cache with listCache := b } (b :: free) :=
    { chain := by
        refine ⟨rfl, by omega, ?_⟩
        rw [Mem.readPtr_writePtr h.listCache_lt]
        exact h.chain.frame hlinks
      nodup := List.nodup_cons.mpr ⟨hnew, h.nodup⟩
      blocks := by
        intro c hc
        rcases List.mem_cons.mp hc with rfl | hc
        · exact hb
        · exact h.blocks c hc
      node := h.node
      base := h.base
      top := h.top }
  refine ⟨{ cache with listCache := b }, ?_, hpool, cache.arena_listCache b, rfl,
    cache.isBlock_listCache b⟩
  rw [cacheFree, if_pos ⟨hin.1, by omega⟩]

/-- What does not start in the arena goes back to `malloc`. -/
theorem cacheFree_outside
    (h : b < cache.cacheMem ∨ cache.cacheMem + cache.capacity * cache.elem_size ≤ b) :
    cacheFree mem cache b = none := by
  rw [cacheFree, if_neg (by omega)]

end Pool

/-! ## A new pool -/

/-- The first `i` blocks of an arena, the last one in front. -/
def blocksDown (cacheMem elem_t : Nat) : Nat → List Nat
  | 0 => []
  | i + 1 => (cacheMem + i * elem_t) :: blocksDown cacheMem elem_t i

section Creator

variable {cacheMem elem_t i b : Nat} {mem : Mem}

theorem mem_blocksDown :
    b ∈ blocksDown cacheMem elem_t i ↔ ∃ j, j < i ∧ b = cacheMem + j * elem_t := by
  induction i with
  | zero => simp [blocksDown]
  | succ i ih =>
    rw [blocksDown, List.mem_cons, ih]
    constructor
    · rintro (rfl | ⟨j, hj, rfl⟩)
      · exact ⟨i, Nat.lt_succ_self i, rfl⟩
      · exact ⟨j, Nat.lt_succ_of_lt hj, rfl⟩
    · rintro ⟨j, hj, rfl⟩
      rcases Nat.lt_succ_iff_lt_or_eq.mp hj with hlt | rfl
      · exact .inr ⟨j, hlt, rfl⟩
      · exact .inl rfl

theorem block_lt_of_lt (cacheMem : Nat) {j : Nat} (helem : NODE_SIZE ≤ elem_t) (hj : j < i) :
    cacheMem + j * elem_t + NODE_SIZE ≤ cacheMem + i * elem_t := by
  have hle : (j + 1) * elem_t ≤ i * elem_t := Nat.mul_le_mul_right _ hj
  rw [Nat.succ_mul] at hle
  omega

theorem nodup_blocksDown (helem : NODE_SIZE ≤ elem_t) : (blocksDown cacheMem elem_t i).Nodup := by
  induction i with
  | zero => exact List.nodup_nil
  | succ i ih =>
    refine List.nodup_cons.mpr ⟨fun hmem => ?_, ih⟩
    obtain ⟨j, hj, hsame⟩ := mem_blocksDown.mp hmem
    have hlt := block_lt_of_lt cacheMem helem hj
    unfold NODE_SIZE at hlt
    omega

/-- The loop links the blocks it has visited. -/
theorem linkBlocks_chain (helem : NODE_SIZE ≤ elem_t) (hbase : 0 < cacheMem)
    (htop : cacheMem + i * elem_t ≤ 2 ^ 64) :
    Chain (linkBlocks cacheMem elem_t mem i).1 (linkBlocks cacheMem elem_t mem i).2
      (blocksDown cacheMem elem_t i) := by
  induction i with
  | zero => rfl
  | succ i ih =>
    have hnode : 8 ≤ elem_t := helem
    rw [Nat.succ_mul] at htop
    have hchain := ih (by omega)
    have hlist : (linkBlocks cacheMem elem_t mem i).2 < 2 ^ 64 := by
      cases i with
      | zero => exact Nat.two_pow_pos 64
      | succ i =>
        rw [linkBlocks, Nat.succ_mul] at *
        simp only
        omega
    rw [linkBlocks, blocksDown]
    refine ⟨rfl, by omega, ?_⟩
    rw [Mem.readPtr_writePtr hlist]
    refine hchain.frame fun c hc => Mem.readPtr_writePtr_apart ?_
    obtain ⟨j, hj, rfl⟩ := mem_blocksDown.mp hc
    exact .inr (block_lt_of_lt cacheMem helem hj)

/-- **A new pool** has all its blocks free. -/
theorem cacheCreator_ok {capacity : Nat} (helem : NODE_SIZE ≤ elem_t) (hbase : 0 < cacheMem)
    (htop : cacheMem + capacity * elem_t ≤ 2 ^ 64) :
    PoolOk (cacheCreator cacheMem mem capacity elem_t).1
      (cacheCreator cacheMem mem capacity elem_t).2 (blocksDown cacheMem elem_t capacity) := by
  have hsize : (if elem_t < NODE_SIZE then NODE_SIZE else elem_t) = elem_t := if_neg (by omega)
  simp only [cacheCreator, hsize]
  exact
    { chain := linkBlocks_chain helem hbase htop
      nodup := nodup_blocksDown helem
      blocks := fun _ hb => mem_blocksDown.mp hb
      node := helem
      base := hbase
      top := htop }

end Creator

end LibuvServer.Utils
