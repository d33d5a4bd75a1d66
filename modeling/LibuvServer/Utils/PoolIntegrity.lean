import LibuvServer.Lib.Runs
import LibuvServer.Utils.Cache
import Mathlib.Data.List.Nodup

/-!
# Pools over whole runs

A pool made by `cacheCreator` and any sequence of `cacheAllocer` and
`cacheFree`, with stores into the blocks that are in use in between. Blocks
come from the pool or from the heap, and `cacheFree` tells them apart by
their addresses. `Integrity` says that the free list and the blocks in use
share out the arena.
-/

namespace LibuvServer.Utils

open LibuvServer.Lib

/-- A block that was handed out and not freed since: what was asked for, and
whether the pool had it. -/
structure Live where
  addr : Nat
  size : Nat
  pooled : Bool
  deriving DecidableEq

/-- The memory the block takes up; `malloc` never gives out an address twice. -/
def Live.range (elem_size : Nat) (x : Live) : Block :=
  ⟨x.addr, if x.pooled then elem_size else max x.size 1⟩

structure Pool where
  mem : Mem
  cache : CacheMan
  live : List Live

/-- The pool blocks in use. -/
def Pool.used (c : Pool) : List Nat := (c.live.filter Live.pooled).map Live.addr

/-- `malloc` may give out the block at `heap` for `elem_t` bytes: it is apart
from the arena and from the blocks it has given out before. -/
def Pool.Mallocs (c : Pool) (heap elem_t : Nat) : Prop :=
  c.cache.arena.Apart ⟨heap, max elem_t 1⟩ ∧ ∀ x ∈ c.live, x.pooled = false →
    (x.range c.cache.elem_size).Apart ⟨heap, max elem_t 1⟩

instance (c : Pool) (heap elem_t : Nat) : Decidable (c.Mallocs heap elem_t) :=
  inferInstanceAs (Decidable (_ ∧ ∀ _ ∈ _, _))

/-- What happens next: a block is asked for, with the address `malloc` would
answer, one is freed, or bytes are stored in one that is in use. -/
inductive PoolEvent where
  | alloc (elem_t : Nat) (heap : Nat)
  | free (cacheMem : Nat)
  | store (x : Live) (off : Nat) (data : List UInt8)

/-- A call into the heap. -/
inductive HeapCall where
  | malloc (elem_t : Nat)
  | free (cacheMem : Nat)
  deriving DecidableEq

namespace Pool

/-- One event, if it can happen now: only blocks in use are freed and written. -/
def step (c : Pool) : PoolEvent → Option (Pool × List HeapCall)
  | .alloc elem_t heap =>
    match cacheAllocer c.mem c.cache elem_t with
    | some (b, cache) => some ({ c with cache := cache, live := ⟨b, elem_t, true⟩ :: c.live }, [])
    | none =>
      if c.Mallocs heap elem_t then
        some ({ c with live := ⟨heap, elem_t, false⟩ :: c.live }, [.malloc elem_t])
      else none
  | .free cacheMem =>
    match c.live.find? (·.addr = cacheMem) with
    | none => none
    | some x =>
      match cacheFree c.mem c.cache cacheMem with
      | some (mem, cache) => some (⟨mem, cache, c.live.erase x⟩, [])
      | none => some ({ c with live := c.live.erase x }, [.free cacheMem])
  | .store x off data =>
    if x ∈ c.live ∧ off + data.length ≤ x.size then
      some ({ c with mem := c.mem.write (x.addr + off) data }, [])
    else none

/-- A pool that has just been made. -/
def start (cacheMem : Nat) (mem : Mem) (capacity elem_t : Nat) : Pool :=
  let made := cacheCreator cacheMem mem capacity elem_t
  ⟨made.1, made.2, []⟩

end Pool

/-- The size of a block that is asked to hold `elem_t` bytes. -/
def elemSize (elem_t : Nat) : Nat := if elem_t < NODE_SIZE then NODE_SIZE else elem_t

/-- An arena `malloc` gives for a pool. Its size is an `int`, so that the
products of the source do not overflow. -/
structure Arena (cacheMem capacity elem_t : Nat) : Prop where
  base : 0 < cacheMem
  top : cacheMem + capacity * elemSize elem_t ≤ 2 ^ 64
  fits : capacity * elemSize elem_t < 2 ^ 31

/-! ## What is said of a pool -/

/-- The free list and the blocks in use share out the arena, no two blocks in
use overlap, and both directions of the traffic with the heap are known. -/
structure Integrity (c : Pool) (free : List Nat) : Prop where
  list : Chain c.mem c.cache.listCache free
  nodup : free.Nodup
  disjoint : ∀ b ∈ free, b ∉ c.used
  all : ∀ b, c.cache.IsBlock b ↔ b ∈ free ∨ b ∈ c.used
  once : c.live.Nodup
  holds : ∀ x ∈ c.live, x.pooled = true → c.cache.IsBlock x.addr ∧ x.size ≤ c.cache.elem_size
  apart : ∀ x ∈ c.live, ∀ y ∈ c.live, x ≠ y →
    (x.range c.cache.elem_size).Apart (y.range c.cache.elem_size)
  heap : ∀ elem_t, cacheAllocer c.mem c.cache elem_t = none ↔
    c.cache.elem_size < elem_t ∨ free = []
  back : ∀ x ∈ c.live, (cacheFree c.mem c.cache x.addr).isSome = x.pooled

/-- The same, as steps keep it. -/
structure Intact (c : Pool) (free : List Nat) : Prop where
  pool : PoolOk c.mem c.cache free
  disjoint : ∀ b ∈ free, b ∉ c.used
  all : ∀ b, c.cache.IsBlock b ↔ b ∈ free ∨ b ∈ c.used
  once : c.live.Nodup
  fits : ∀ x ∈ c.live, x.pooled = true → x.size ≤ c.cache.elem_size
  outside : ∀ x ∈ c.live, x.pooled = false → c.cache.arena.Apart (x.range c.cache.elem_size)
  apart : ∀ x ∈ c.live, ∀ y ∈ c.live, x ≠ y →
    (x.range c.cache.elem_size).Apart (y.range c.cache.elem_size)

section Pool

variable {c c' : Pool} {free : List Nat} {b elem_t heap : Nat} {x y : Live}

theorem Pool.mem_used : b ∈ c.used ↔ ∃ x ∈ c.live, x.pooled = true ∧ x.addr = b := by
  simp only [Pool.used, List.mem_map, List.mem_filter, and_assoc]

theorem Live.range_pos (helem : NODE_SIZE ≤ elem_t) (x : Live) : 0 < (x.range elem_t).size := by
  unfold NODE_SIZE at helem
  unfold Live.range
  simp only
  split <;> omega

theorem Intact.isBlock (h : Intact c free) (hx : x ∈ c.live) (hpool : x.pooled = true) :
    c.cache.IsBlock x.addr :=
  (h.all x.addr).mpr (.inr (Pool.mem_used.mpr ⟨x, hx, hpool, rfl⟩))

/-- An address in use belongs to one block. -/
theorem Intact.addr_inj (h : Intact c free) (hx : x ∈ c.live) (hy : y ∈ c.live)
    (heq : x.addr = y.addr) : x = y := by
  by_contra hne
  have hapart := h.apart x hx y hy hne
  have hxpos := x.range_pos h.pool.node
  have hypos := y.range_pos h.pool.node
  unfold Block.Apart Live.range at hapart
  unfold Live.range at hxpos hypos
  simp only at hapart hxpos hypos
  omega

/-- What is in use starts in the arena exactly when it is the pool's. -/
theorem Intact.back (h : Intact c free) (hx : x ∈ c.live) :
    (cacheFree c.mem c.cache x.addr).isSome = x.pooled := by
  cases hpool : x.pooled with
  | true =>
    obtain ⟨cache', hfree, -⟩ := h.pool.release (h.isBlock hx hpool)
      (fun hmem => h.disjoint _ hmem (Pool.mem_used.mpr ⟨x, hx, hpool, rfl⟩))
    rw [hfree]
    rfl
  | false =>
    have hout := h.outside x hx hpool
    have hpos := x.range_pos h.pool.node
    rw [cacheFree_outside]
    · rfl
    · unfold Block.Apart CacheMan.arena at hout
      unfold Live.range at hout hpos
      simp only at hout hpos
      omega

theorem Intact.integrity (h : Intact c free) : Integrity c free where
  list := h.pool.chain
  nodup := h.pool.nodup
  disjoint := h.disjoint
  all := h.all
  once := h.once
  holds x hx hpool := ⟨h.isBlock hx hpool, h.fits x hx hpool⟩
  apart := h.apart
  heap elem_t := by
    refine ⟨fun hnone => ?_, h.pool.alloc_none⟩
    by_contra hno
    rw [not_or, Nat.not_lt] at hno
    obtain ⟨b, rest, hfree⟩ := List.exists_cons_of_ne_nil hno.2
    obtain ⟨cache', halloc, -⟩ := (hfree ▸ h.pool : PoolOk c.mem c.cache (b :: rest)).alloc hno.1
    rw [hnone] at halloc
    cases halloc
  back x hx := h.back hx

/-! ## Steps -/

/-- The arena stays where it is. -/
structure SameArena (cache cache' : CacheMan) : Prop where
  cacheMem : cache'.cacheMem = cache.cacheMem
  capacity : cache'.capacity = cache.capacity
  elem_size : cache'.elem_size = cache.elem_size

theorem SameArena.isBlock {cache cache' : CacheMan} (h : SameArena cache cache') (b : Nat) :
    cache'.IsBlock b ↔ cache.IsBlock b := by
  unfold CacheMan.IsBlock
  rw [h.cacheMem, h.capacity, h.elem_size]

theorem SameArena.arena {cache cache' : CacheMan} (h : SameArena cache cache') :
    cache'.arena = cache.arena := by
  rw [CacheMan.arena, h.cacheMem, h.capacity, h.elem_size]
  rfl

theorem cacheAllocer_same {mem : Mem} {cache cache' : CacheMan}
    (h : cacheAllocer mem cache elem_t = some (b, cache')) : SameArena cache cache' := by
  unfold cacheAllocer at h
  split at h
  · cases h
  · split at h
    · cases h
      exact ⟨rfl, rfl, rfl⟩
    · cases h

theorem cacheFree_same {mem mem' : Mem} {cache cache' : CacheMan}
    (h : cacheFree mem cache b = some (mem', cache')) : SameArena cache cache' := by
  unfold cacheFree at h
  split at h
  · cases h
    exact ⟨rfl, rfl, rfl⟩
  · cases h

/-- A block of the pool is handed out. -/
theorem Intact.take (h : Intact c (b :: free)) {cache : CacheMan}
    (hsame : SameArena c.cache cache) (hpool : PoolOk c.mem cache free)
    (hfit : elem_t ≤ c.cache.elem_size) :
    Intact { c with cache := cache, live := ⟨b, elem_t, true⟩ :: c.live } free := by
  have hb : c.cache.IsBlock b := h.pool.blocks b List.mem_cons_self
  have hunused : ∀ x ∈ c.live, x.pooled = true → x.addr ≠ b := by
    rintro x hx hpooled rfl
    exact h.disjoint _ List.mem_cons_self (Pool.mem_used.mpr ⟨x, hx, hpooled, rfl⟩)
  have hused : ∀ a, a ∈ ({ c with cache := cache, live := ⟨b, elem_t, true⟩ :: c.live } : Pool).used
      ↔ a = b ∨ a ∈ c.used := by
    intro a
    simp [Pool.used]
  have hnew : ∀ x ∈ c.live, (x.range cache.elem_size).Apart ⟨b, cache.elem_size⟩ := by
    intro x hx
    rw [hsame.elem_size]
    cases hpooled : x.pooled with
    | true =>
      have hapart := (h.isBlock hx hpooled).apart hb (hunused x hx hpooled)
      simpa [Live.range, hpooled] using hapart
    | false => exact ((h.outside x hx hpooled).symm).of_contains hb.inside
  have hnotin : (⟨b, elem_t, true⟩ : Live) ∉ c.live := fun hmem => hunused _ hmem rfl rfl
  refine ⟨hpool, ?_, ?_, List.nodup_cons.mpr ⟨hnotin, h.once⟩, ?_, ?_, ?_⟩
  · intro a ha
    rw [hused, not_or]
    refine ⟨?_, h.disjoint a (List.mem_cons_of_mem b ha)⟩
    rintro rfl
    exact (List.nodup_cons.mp h.pool.nodup).1 ha
  · intro a
    rw [hsame.isBlock, h.all, hused, List.mem_cons]
    exact or_assoc.trans or_left_comm
  · intro x hx hpooled
    rw [hsame.elem_size]
    rcases List.mem_cons.mp hx with rfl | hold
    · exact hfit
    · exact h.fits x hold hpooled
  · intro x hx hpooled
    rw [hsame.arena, hsame.elem_size]
    rcases List.mem_cons.mp hx with rfl | hold
    · cases hpooled
    · exact h.outside x hold hpooled
  · intro x hx y hy hne
    rcases List.mem_cons.mp hx with rfl | hx <;> rcases List.mem_cons.mp hy with rfl | hy
    · exact absurd rfl hne
    · exact (hnew y hy).symm
    · exact hnew x hx
    · rw [hsame.elem_size]
      exact h.apart x hx y hy hne

/-- The heap helps out. -/
theorem Intact.malloc (h : Intact c free) (hmalloc : c.Mallocs heap elem_t) :
    Intact { c with live := ⟨heap, elem_t, false⟩ :: c.live } free := by
  have hused : ({ c with live := ⟨heap, elem_t, false⟩ :: c.live } : Pool).used = c.used := by
    simp [Pool.used]
  have hnew : ∀ x ∈ c.live, (x.range c.cache.elem_size).Apart ⟨heap, max elem_t 1⟩ := by
    intro x hx
    cases hpooled : x.pooled with
    | true =>
      have hin := (h.isBlock hx hpooled).inside
      have hapart := (hmalloc.1.symm.of_contains hin).symm
      simpa [Live.range, hpooled] using hapart
    | false => exact hmalloc.2 x hx hpooled
  have hnotin : (⟨heap, elem_t, false⟩ : Live) ∉ c.live := by
    intro hmem
    have hself := hnew _ hmem
    unfold Block.Apart Live.range at hself
    simp only [Bool.false_eq_true, if_false] at hself
    omega
  refine ⟨h.pool, ?_, ?_, List.nodup_cons.mpr ⟨hnotin, h.once⟩, ?_, ?_, ?_⟩
  · rw [hused]
    exact h.disjoint
  · rw [hused]
    exact h.all
  · intro x hx hpooled
    rcases List.mem_cons.mp hx with rfl | hold
    · cases hpooled
    · exact h.fits x hold hpooled
  · intro x hx hpooled
    rcases List.mem_cons.mp hx with rfl | hold
    · exact hmalloc.1
    · exact h.outside x hold hpooled
  · intro x hx y hy hne
    rcases List.mem_cons.mp hx with rfl | hx <;> rcases List.mem_cons.mp hy with rfl | hy
    · exact absurd rfl hne
    · exact (hnew y hy).symm
    · exact hnew x hx
    · exact h.apart x hx y hy hne

/-- What is in use when one block is not any more. -/
theorem Intact.mem_used_erase (h : Intact c free) (hx : x ∈ c.live) {mem : Mem} {cache : CacheMan} :
    b ∈ (⟨mem, cache, c.live.erase x⟩ : Pool).used ↔
      b ∈ c.used ∧ ¬ (x.pooled = true ∧ b = x.addr) := by
  rw [Pool.mem_used, Pool.mem_used]
  simp only [h.once.mem_erase_iff]
  constructor
  · rintro ⟨y, ⟨hne, hy⟩, hpooled, rfl⟩
    exact ⟨⟨y, hy, hpooled, rfl⟩, fun hsame => hne (h.addr_inj hy hx hsame.2)⟩
  · rintro ⟨⟨y, hy, hpooled, rfl⟩, hno⟩
    refine ⟨y, ⟨?_, hy⟩, hpooled, rfl⟩
    rintro rfl
    exact hno ⟨hpooled, rfl⟩

/-- A block goes back to the pool. -/
theorem Intact.release (h : Intact c free) (hx : x ∈ c.live) (hpooled : x.pooled = true)
    {mem : Mem} {cache : CacheMan} (hsame : SameArena c.cache cache)
    (hpool : PoolOk mem cache (x.addr :: free)) :
    Intact ⟨mem, cache, c.live.erase x⟩ (x.addr :: free) := by
  have hmem : ∀ y, y ∈ c.live.erase x → y ∈ c.live := fun y hy => List.mem_of_mem_erase hy
  refine ⟨hpool, ?_, ?_, h.once.erase x, ?_, ?_, ?_⟩
  · intro a ha
    rw [h.mem_used_erase hx, not_and, Decidable.not_not]
    intro hused
    rcases List.mem_cons.mp ha with rfl | hfree
    · exact ⟨hpooled, rfl⟩
    · exact absurd hused (h.disjoint a hfree)
  · intro a
    rw [hsame.isBlock, h.all, h.mem_used_erase hx, List.mem_cons]
    have hself : x.addr ∈ c.used := Pool.mem_used.mpr ⟨x, hx, hpooled, rfl⟩
    by_cases ha : a = x.addr
    · subst ha
      simp [hself]
    · simp [ha]
  · intro y hy
    rw [hsame.elem_size]
    exact h.fits y (hmem y hy)
  · intro y hy
    rw [hsame.arena, hsame.elem_size]
    exact h.outside y (hmem y hy)
  · intro y hy z hz
    rw [hsame.elem_size]
    exact h.apart y (hmem y hy) z (hmem z hz)

/-- A block goes back to the heap. -/
theorem Intact.giveBack (h : Intact c free) (hx : x ∈ c.live) (hheap : x.pooled = false) :
    Intact { c with live := c.live.erase x } free := by
  have hmem : ∀ y, y ∈ c.live.erase x → y ∈ c.live := fun y hy => List.mem_of_mem_erase hy
  have hused : ∀ a, a ∈ ({ c with live := c.live.erase x } : Pool).used ↔ a ∈ c.used := by
    intro a
    rw [h.mem_used_erase hx, hheap]
    simp
  refine ⟨h.pool, fun a ha => ?_, fun a => ?_, h.once.erase x, fun y hy => h.fits y (hmem y hy),
    fun y hy => h.outside y (hmem y hy), fun y hy z hz => h.apart y (hmem y hy) z (hmem z hz)⟩
  · rw [hused]
    exact h.disjoint a ha
  · rw [h.all, hused]

/-- A store into a block that is in use. -/
theorem Intact.store (h : Intact c free) (hx : x ∈ c.live) {off : Nat} {data : List UInt8}
    (hfit : off + data.length ≤ x.size) :
    Intact { c with mem := c.mem.write (x.addr + off) data } free := by
  have hin : (x.range c.cache.elem_size).Contains ⟨x.addr + off, data.length⟩ := by
    have hsize : x.size ≤ (x.range c.cache.elem_size).size := by
      cases hpooled : x.pooled with
      | true => simpa [Live.range, hpooled] using h.fits x hx hpooled
      | false =>
        rw [Live.range, hpooled]
        exact Nat.le_max_left x.size 1
    refine ⟨Nat.le_add_right .., ?_⟩
    change x.addr + off + data.length ≤ x.addr + _
    omega
  have hpool : PoolOk (c.mem.write (x.addr + off) data) c.cache free := by
    refine h.pool.write fun b hb => ?_
    cases hpooled : x.pooled with
    | true =>
      have hne : b ≠ x.addr := by
        rintro rfl
        exact h.disjoint _ hb (Pool.mem_used.mpr ⟨x, hx, hpooled, rfl⟩)
      have hapart := (h.pool.blocks b hb).apart (h.isBlock hx hpooled) hne
      have hrange : x.range c.cache.elem_size = ⟨x.addr, c.cache.elem_size⟩ := by
        simp [Live.range, hpooled]
      rw [hrange] at hin
      exact (hapart.of_contains hin).symm
    | false =>
      have hout := (h.outside x hx hpooled).of_contains hin
      exact hout.symm.of_contains (h.pool.blocks b hb).inside
  exact ⟨hpool, h.disjoint, h.all, h.once, h.fits, h.outside, h.apart⟩

/-- **Every event** keeps the pool. -/
theorem Intact.step (h : Intact c free) {e : PoolEvent} {out : List HeapCall}
    (hstep : c.step e = some (c', out)) :
    SameArena c.cache c'.cache ∧ ∃ free', Intact c' free' := by
  have hrefl : SameArena c.cache c.cache := ⟨rfl, rfl, rfl⟩
  cases e with
  | alloc elem_t heap =>
    simp only [Pool.step] at hstep
    split at hstep
    · rename_i b cache halloc
      cases hstep
      have hsame := cacheAllocer_same halloc
      have hgives : ¬ (c.cache.elem_size < elem_t ∨ free = []) := by
        intro hnone
        rw [h.pool.alloc_none hnone] at halloc
        cases halloc
      rw [not_or, Nat.not_lt] at hgives
      obtain ⟨b', rest, rfl⟩ := List.exists_cons_of_ne_nil hgives.2
      obtain ⟨cache', halloc', hpool, -⟩ := h.pool.alloc hgives.1
      rw [halloc, Option.some.injEq, Prod.mk.injEq] at halloc'
      obtain ⟨rfl, rfl⟩ := halloc'
      exact ⟨hsame, rest, h.take hsame hpool hgives.1⟩
    · split at hstep
      · cases hstep
        exact ⟨hrefl, free, h.malloc ‹_›⟩
      · cases hstep
  | free cacheMem =>
    simp only [Pool.step] at hstep
    split at hstep
    · cases hstep
    · rename_i x hfind
      have hx : x ∈ c.live := List.mem_of_find?_eq_some hfind
      have haddr : x.addr = cacheMem := by simpa using List.find?_some hfind
      subst haddr
      have hback := h.back hx
      split at hstep
      · rename_i mem cache hfree
        cases hstep
        have hpooled : x.pooled = true := by
          rw [← hback, hfree]
          rfl
        have hsame := cacheFree_same hfree
        obtain ⟨cache', hfree', hpool, -⟩ := h.pool.release (h.isBlock hx hpooled)
          (fun hmem => h.disjoint _ hmem (Pool.mem_used.mpr ⟨x, hx, hpooled, rfl⟩))
        rw [hfree, Option.some.injEq, Prod.mk.injEq] at hfree'
        obtain ⟨rfl, rfl⟩ := hfree'
        exact ⟨hsame, _, h.release hx hpooled hsame hpool⟩
      · rename_i hfree
        cases hstep
        have hheap : x.pooled = false := by
          rw [← hback, hfree]
          rfl
        exact ⟨hrefl, free, h.giveBack hx hheap⟩
  | store x off data =>
    simp only [Pool.step] at hstep
    split at hstep
    · rename_i hin
      cases hstep
      exact ⟨hrefl, free, h.store hin.1 hin.2⟩
    · cases hstep

end Pool

section Start

variable {cacheMem capacity elem_t : Nat}

theorem node_le_elemSize (elem_t : Nat) : NODE_SIZE ≤ elemSize elem_t := by
  unfold elemSize
  split <;> omega

/-- The size is rounded up before anything else is done with it. -/
theorem cacheCreator_elemSize (cacheMem : Nat) (mem : Mem) (capacity elem_t : Nat) :
    cacheCreator cacheMem mem capacity elem_t
      = cacheCreator cacheMem mem capacity (elemSize elem_t) := by
  have hround : (if elemSize elem_t < NODE_SIZE then NODE_SIZE else elemSize elem_t)
      = elemSize elem_t := if_neg (Nat.not_lt.mpr (node_le_elemSize elem_t))
  simp only [cacheCreator, hround]
  rfl

theorem Intact.start (h : Arena cacheMem capacity elem_t) (mem : Mem) :
    Intact (Pool.start cacheMem mem capacity elem_t)
      (blocksDown cacheMem (elemSize elem_t) capacity) := by
  have hpool : PoolOk (Pool.start cacheMem mem capacity elem_t).mem
      (Pool.start cacheMem mem capacity elem_t).cache
      (blocksDown cacheMem (elemSize elem_t) capacity) := by
    rw [Pool.start, cacheCreator_elemSize]
    exact cacheCreator_ok (node_le_elemSize elem_t) h.base h.top
  have hused : (Pool.start cacheMem mem capacity elem_t).used = [] := rfl
  refine ⟨hpool, ?_, fun b => ?_, List.nodup_nil, nofun, nofun, nofun⟩
  · rw [hused]
    exact nofun
  · rw [hused, mem_blocksDown]
    exact (or_iff_left List.not_mem_nil).symm

/-- **Pool integrity.** After any sequence of calls the free list and the
blocks in use share out the arena that was given to the pool. -/
theorem pool_integrity (h : Arena cacheMem capacity elem_t) (mem : Mem)
    {events : List PoolEvent} {c : Pool} {calls : List HeapCall}
    (hrun : run Pool.step (Pool.start cacheMem mem capacity elem_t, []) events = some (c, calls)) :
    SameArena ⟨cacheMem, 0, capacity, elemSize elem_t⟩ c.cache ∧ ∃ free, Integrity c free := by
  have hok : SameArena ⟨cacheMem, 0, capacity, elemSize elem_t⟩ c.cache ∧
      ∃ free, Intact c free := by
    refine run_invariant (P := fun _ _ => True)
      (I := fun c : Pool × List HeapCall => SameArena ⟨cacheMem, 0, capacity, elemSize elem_t⟩
        c.1.cache ∧ ∃ free, Intact c.1 free) ?_ ?_ (along_true _ _) hrun
    · rintro ⟨c, calls⟩ e c' ⟨hsame, free, hintact⟩ - hrecord
      obtain ⟨c', out, hstep, rfl⟩ := record_eq_some.mp hrecord
      obtain ⟨hsame', hintact'⟩ := hintact.step hstep
      exact ⟨⟨hsame'.cacheMem.trans hsame.cacheMem, hsame'.capacity.trans hsame.capacity,
        hsame'.elem_size.trans hsame.elem_size⟩, hintact'⟩
    · exact ⟨⟨rfl, rfl, rfl⟩, _, Intact.start h mem⟩
  obtain ⟨hsame, free, hintact⟩ := hok
  exact ⟨hsame, free, hintact.integrity⟩

end Start

/-- Two blocks are handed out, the heap helps out, and a block comes back. -/
def poolEvents : List PoolEvent :=
  [.alloc 3 0, .alloc 8 0, .alloc 8 9000, .store ⟨9000, 8, false⟩ 2 [7, 7], .free 4104, .free 9000,
    .alloc 5 0]

theorem pool_integrity_two : ∃ c calls,
    run Pool.step (Pool.start 4096 (fun _ => 0) 2 3, []) poolEvents = some (c, calls) ∧
      calls = [.malloc 8, .free 9000] ∧ ∃ free, Integrity c free := by
  have hcalls : (run Pool.step (Pool.start 4096 (fun _ => 0) 2 3, []) poolEvents).map (·.2)
      = some [.malloc 8, .free 9000] := by decide
  obtain ⟨⟨c, calls⟩, hrun, hobs⟩ := Option.map_eq_some_iff.mp hcalls
  have harena : Arena 4096 2 3 := ⟨by decide, by decide, by decide⟩
  exact ⟨c, calls, hrun, hobs, (pool_integrity harena _ hrun).2⟩

end LibuvServer.Utils

namespace LibuvServer.Utils.Pool

open LibuvServer.Lib

/-! ## The two calls -/

/-- `cacheAllocer`, and the block it answers. -/
def take (c : Pool) (elem_t heap : Nat) : Option (Live × Pool) :=
  (c.step (.alloc elem_t heap)).bind fun r => r.1.live.head?.map fun x => (x, r.1)

/-- `cacheFree` of a block in use. -/
def give (c : Pool) (cacheMem : Nat) : Option Pool :=
  (c.step (.free cacheMem)).map (·.1)

/-- `memcpy` into a block in use. -/
def fill (c : Pool) (x : Live) (off : Nat) (data : List UInt8) : Option Pool :=
  (c.step (.store x off data)).map (·.1)

/-- The addresses of the blocks in use. -/
def addrs (c : Pool) : List Nat := c.live.map Live.addr

variable {c c' : Pool} {free : List Nat} {x : Live} {elem_t heap cacheMem off : Nat}

theorem addrs_nodup (h : Intact c free) : c.addrs.Nodup :=
  h.once.map_on fun _ hx _ hy heq => h.addr_inj hx hy heq

theorem take_ok (h : Intact c free) (htake : c.take elem_t heap = some (x, c')) :
    (∃ free', Intact c' free') ∧ c'.live = x :: c.live := by
  obtain ⟨⟨c₁, out⟩, hstep, hhead⟩ := Option.bind_eq_some_iff.mp htake
  obtain ⟨y, hy, heq⟩ := Option.map_eq_some_iff.mp hhead
  cases heq
  refine ⟨(h.step hstep).2, ?_⟩
  rw [step] at hstep
  split at hstep
  · cases hstep
    cases hy
    rfl
  · split at hstep
    · cases hstep
      cases hy
      rfl
    · cases hstep

/-- A block that is handed out was not in use. -/
theorem take_fresh (h : Intact c free) (htake : c.take elem_t heap = some (x, c')) :
    x.addr ∉ c.addrs := by
  obtain ⟨⟨free', hok⟩, hlive⟩ := take_ok h htake
  have hnodup := addrs_nodup hok
  rw [addrs, hlive, List.map_cons] at hnodup
  exact (List.nodup_cons.mp hnodup).1

theorem give_ok (h : Intact c free) (hgive : c.give cacheMem = some c') :
    (∃ free', Intact c' free') ∧ ∃ x ∈ c.live, x.addr = cacheMem ∧ c'.live = c.live.erase x := by
  obtain ⟨⟨c₁, out⟩, hstep, heq⟩ := Option.map_eq_some_iff.mp hgive
  cases heq
  refine ⟨(h.step hstep).2, ?_⟩
  rw [step] at hstep
  split at hstep
  · cases hstep
  · rename_i x hfind
    have haddr : x.addr = cacheMem := by simpa using List.find?_some hfind
    refine ⟨x, List.mem_of_find?_eq_some hfind, haddr, ?_⟩
    split at hstep
    · cases hstep
      rfl
    · cases hstep
      rfl

/-- A block in use can be given back. -/
theorem give_of_mem (ha : cacheMem ∈ c.addrs) : ∃ c', c.give cacheMem = some c' := by
  obtain ⟨x, hx, haddr⟩ := List.mem_map.mp ha
  cases hfind : c.live.find? (·.addr = cacheMem) with
  | none => exact absurd (List.find?_eq_none.mp hfind x hx) (by simp [haddr])
  | some y =>
    simp only [give, step, hfind]
    split <;> exact ⟨_, rfl⟩

/-- The block is the only one at its address. -/
theorem mem_addrs_give (h : Intact c free) (hgive : c.give cacheMem = some c') {b : Nat} :
    b ∈ c'.addrs ↔ b ∈ c.addrs ∧ b ≠ cacheMem := by
  obtain ⟨-, x, hx, rfl, hlive⟩ := give_ok h hgive
  simp only [addrs, hlive, List.mem_map, h.once.mem_erase_iff]
  constructor
  · rintro ⟨y, ⟨hne, hy⟩, rfl⟩
    exact ⟨⟨y, hy, rfl⟩, fun heq => hne (h.addr_inj hy hx heq)⟩
  · rintro ⟨⟨y, hy, rfl⟩, hne⟩
    exact ⟨y, ⟨fun heq => hne (congrArg Live.addr heq), hy⟩, rfl⟩

theorem fill_ok {data : List UInt8} (h : Intact c free) (hfill : c.fill x off data = some c') :
    (∃ free', Intact c' free') ∧ c'.live = c.live := by
  obtain ⟨⟨c₁, out⟩, hstep, heq⟩ := Option.map_eq_some_iff.mp hfill
  cases heq
  refine ⟨(h.step hstep).2, ?_⟩
  rw [step] at hstep
  split at hstep
  · cases hstep
    rfl
  · cases hstep

end LibuvServer.Utils.Pool
