import Mathlib.Data.List.Basic
import Mathlib.Tactic.Common

/-!
# Fixed-size blocks

A block of memory as the list of its bytes. Writes never change the length
of a block; a write that does not fit keeps only the part inside, so that
whether it fits is a separate question with its own answer.
-/

namespace LibuvServer.Lib

variable {β : Type*}

/-- `block` with the bytes from offset `off` on replaced by `data`. -/
def overwrite (block : List β) (off : Nat) (data : List β) : List β :=
  block.take off ++ data.take (block.length - off) ++ block.drop (off + data.length)

/-- The `n` bytes of `block` at offset `off`. -/
def slice (block : List β) (off n : Nat) : List β := (block.drop off).take n

@[simp] theorem length_overwrite (block : List β) (off : Nat) (data : List β) :
    (overwrite block off data).length = block.length := by
  simp only [overwrite, List.length_append, List.length_take, List.length_drop]
  omega

variable {block data : List β} {off n : Nat}

theorem overwrite_eq (h : off + data.length ≤ block.length) :
    overwrite block off data = block.take off ++ data ++ block.drop (off + data.length) := by
  rw [overwrite, List.take_of_length_le (show data.length ≤ block.length - off by omega)]

/-- Appending to what a block already holds. -/
theorem take_overwrite (h : off + data.length ≤ block.length) :
    (overwrite block off data).take (off + data.length) = block.take off ++ data := by
  have hlen : (block.take off ++ data).length = off + data.length := by
    simp only [List.length_append, List.length_take]
    omega
  rw [overwrite_eq h, ← hlen, List.take_left]

/-- `memmove` to the front of the block. -/
theorem take_overwrite_zero (h : n ≤ block.length) (hd : data.length = n) :
    (overwrite block 0 data).take n = data := by
  have hfit : 0 + data.length ≤ block.length := by omega
  simpa [hd] using take_overwrite hfit

/-- Bytes past a write are untouched. -/
theorem drop_overwrite (h : off + data.length ≤ block.length) (hn : off + data.length ≤ n) :
    (overwrite block off data).drop n = block.drop n := by
  have hlen : (block.take off ++ data).length = off + data.length := by
    simp only [List.length_append, List.length_take]
    omega
  rw [overwrite_eq h, List.drop_append, List.drop_eq_nil_of_le (by omega), List.nil_append,
    hlen, List.drop_drop]
  congr 1
  omega

/-- What is written past the end is lost. -/
theorem overwrite_of_length_le (h : block.length ≤ off) : overwrite block off data = block := by
  rw [overwrite, List.take_of_length_le h, List.drop_eq_nil_of_le (by omega),
    Nat.sub_eq_zero_of_le h, List.take_zero, List.append_nil, List.append_nil]

/-- A write to a block of equal bytes. -/
theorem overwrite_replicate (off : Nat) (data : List β) (n : Nat) (x : β) :
    overwrite (List.replicate (off + (data.length + n)) x) off data =
      List.replicate off x ++ data ++ List.replicate n x := by
  have hlen : off + data.length ≤ (List.replicate (off + (data.length + n)) x).length := by
    rw [List.length_replicate]
    omega
  rw [overwrite_eq hlen, List.take_replicate, List.drop_replicate, Nat.min_eq_left (by omega),
    show off + (data.length + n) - (off + data.length) = n by omega]

/-- A write is read back where it was made. -/
theorem slice_overwrite (h : off + data.length ≤ block.length) :
    slice (overwrite block off data) off data.length = data := by
  have hoff : (block.take off).length = off := by
    rw [List.length_take]
    omega
  rw [slice, overwrite_eq h, List.append_assoc]
  conv_lhs => rw [← hoff]
  rw [hoff, List.drop_append_of_le_length (by omega), List.drop_eq_nil_of_le (by omega)]
  simp

/-- Rearranging what lies in front: the first `n` bytes of a block after its
bytes from `off` on were taken away. -/
theorem drop_take_eq_slice (block : List β) (off n : Nat) :
    (block.take n).drop off = slice block off (n - off) := by
  rw [slice, List.drop_take]

end LibuvServer.Lib
