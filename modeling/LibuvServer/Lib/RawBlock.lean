import LibuvServer.Lib.Block
import Mathlib.Tactic.Common

/-!
# Blocks fresh from the allocator

A block of cells that nobody has written yet. Writes at computed offsets fill
cells; one that leaves the block is remembered, so whether a piece of code
kept to its block can be asked after it ran.
-/

namespace LibuvServer.Lib

/-- A block under construction. A cell is `none` until it is written. -/
structure RawBlock (β : Type*) where
  cells : List (Option β)
  /-- Every write so far stayed in the block. -/
  inside : Bool
  deriving DecidableEq

namespace RawBlock

variable {β : Type*} {b : RawBlock β} {off n : Int} {data : List β}

/-- A fresh block. There is none of negative size, and nothing can be written
to it. -/
def malloc (size : Int) : RawBlock β := ⟨List.replicate size.toNat none, true⟩

/-- `data` stored from offset `off` on. -/
def write (b : RawBlock β) (off : Int) (data : List β) : RawBlock β where
  cells := overwrite b.cells off.toNat (data.map some)
  inside := b.inside && decide (0 ≤ off ∧ off + data.length ≤ b.cells.length)

/-- `memcpy` of `n` cells of `src`. A negative count is taken for a huge one. -/
def memcpy (b : RawBlock β) (off : Int) (src : List β) (n : Int) : RawBlock β :=
  if n < 0 ∨ src.length < n then { b with inside := false }
  else b.write off (src.take n.toNat)

/-- The first `n` cells hold `data`. -/
def Holds (b : RawBlock β) (n : Int) (data : List β) : Prop :=
  data.length = n ∧ b.cells.take n.toNat = data.map some

@[simp] theorem length_malloc (size : Int) :
    (malloc size : RawBlock β).cells.length = size.toNat :=
  List.length_replicate

@[simp] theorem length_write : (b.write off data).cells.length = b.cells.length :=
  length_overwrite _ _ _

@[simp] theorem length_memcpy : (b.memcpy off data n).cells.length = b.cells.length := by
  unfold memcpy
  split
  · rfl
  · exact length_write

theorem write_inside :
    (b.write off data).inside = true ↔
      b.inside = true ∧ 0 ≤ off ∧ off + data.length ≤ b.cells.length := by
  simp [write]

/-- A write that fits goes on behind what is there. -/
theorem take_write {k : Nat} (h : k + data.length ≤ b.cells.length) :
    (b.write k data).cells.take (k + data.length) = b.cells.take k ++ data.map some := by
  have hfit : k + (data.map some).length ≤ b.cells.length := by rwa [List.length_map]
  have htake := take_overwrite hfit
  rwa [List.length_map] at htake

/-- The back of a block is filled. -/
theorem write_back {front back : List (Option β)} (hoff : off = front.length)
    (hd : data.length = back.length) :
    (⟨front ++ back, true⟩ : RawBlock β).write off data = ⟨front ++ data.map some, true⟩ := by
  have hin : (0 ≤ off ∧ off + data.length ≤ (front ++ back).length) := by
    rw [List.length_append]
    omega
  have hcells : overwrite (front ++ back) off.toNat (data.map some) = front ++ data.map some := by
    have hnat : off.toNat = front.length := by omega
    rw [hnat, overwrite_eq (by simp [hd]), List.take_left, List.drop_eq_nil_of_le (by simp [hd]),
      List.append_nil]
  simp only [write, hcells, decide_eq_true hin, Bool.true_and]

/-- The front of a block is filled. -/
theorem write_front {front back : List (Option β)} (hd : data.length = front.length) :
    (⟨front ++ back, true⟩ : RawBlock β).write 0 data = ⟨data.map some ++ back, true⟩ := by
  have hin : ((0 : Int) ≤ 0 ∧ 0 + (data.length : Int) ≤ (front ++ back).length) := by
    rw [List.length_append]
    omega
  have hcells : overwrite (front ++ back) 0 (data.map some) = data.map some ++ back := by
    rw [overwrite_eq (by simp [hd]), List.take_zero, List.nil_append, List.length_map, hd,
      Nat.zero_add, List.drop_left]
  simp only [write, Int.toNat_zero, hcells, decide_eq_true hin, Bool.true_and]

/-- A block filled from the back to the front. -/
theorem write_malloc {head body : List β} {k : Int} (hk : k = head.length) :
    ((malloc (k + body.length) : RawBlock β).write k body).write 0 head =
      ⟨(head ++ body).map some, true⟩ := by
  have hsplit : (malloc (k + body.length) : RawBlock β) =
      ⟨List.replicate head.length none ++ List.replicate body.length none, true⟩ := by
    have hnat : (k + body.length).toNat = head.length + body.length := by omega
    rw [malloc, hnat, List.replicate_add]
  rw [hsplit, write_back (by simp [hk]) (by simp), write_front (by simp), List.map_append]

theorem holds_all {data : List β} (h : data.length = n) :
    (⟨data.map some, true⟩ : RawBlock β).Holds n data :=
  ⟨h, List.take_of_length_le (by rw [List.length_map]; omega)⟩

end RawBlock

end LibuvServer.Lib
