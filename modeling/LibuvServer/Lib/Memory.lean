import Mathlib.Algebra.Group.Nat.Defs
import Mathlib.Data.List.Basic
import Mathlib.Tactic.Common

/-!
# A flat memory

Bytes at addresses, with reads and writes of whole ranges and of eight-byte
pointers, low byte first. What matters about two ranges is whether they are
apart; nothing here knows which of them belong to whom.
-/

namespace LibuvServer.Lib

abbrev Mem := Nat → UInt8

/-- A range of addresses. -/
structure Block where
  addr : Nat
  size : Nat
  deriving DecidableEq

namespace Block

/-- The ranges do not overlap. -/
def Apart (b c : Block) : Prop := b.addr + b.size ≤ c.addr ∨ c.addr + c.size ≤ b.addr

/-- `c` lies in `b`. -/
def Contains (b c : Block) : Prop := b.addr ≤ c.addr ∧ c.addr + c.size ≤ b.addr + b.size

instance (b c : Block) : Decidable (b.Apart c) := inferInstanceAs (Decidable (_ ∨ _))

instance (b c : Block) : Decidable (b.Contains c) := inferInstanceAs (Decidable (_ ∧ _))

variable {b c d : Block}

theorem Apart.symm (h : b.Apart c) : c.Apart b := Or.symm h

/-- What is apart from a range is apart from its parts. -/
theorem Apart.of_contains (h : b.Apart c) (hc : c.Contains d) : b.Apart d := by
  unfold Apart at h ⊢
  unfold Contains at hc
  omega

end Block

namespace Mem

/-- The `n` bytes from address `a` on. -/
def read (m : Mem) (a n : Nat) : List UInt8 := (List.range n).map fun i => m (a + i)

/-- `data` stored from address `a` on. -/
def write (m : Mem) (a : Nat) (data : List UInt8) : Mem := fun b =>
  if a ≤ b ∧ b < a + data.length then data.getD (b - a) 0 else m b

variable {m : Mem} {a b n : Nat} {data : List UInt8}

@[simp] theorem length_read (m : Mem) (a n : Nat) : (m.read a n).length = n := by
  simp [read]

/-- A write is read back. -/
theorem read_write (m : Mem) (a : Nat) (data : List UInt8) :
    (m.write a data).read a data.length = data := by
  apply List.ext_getElem
  · simp
  · intro i h₁ h₂
    have hin : a ≤ a + i ∧ a + i < a + data.length := by omega
    simp only [read, List.getElem_map, List.getElem_range, write, if_pos hin,
      Nat.add_sub_cancel_left]
    rw [List.getD_eq_getElem?_getD, List.getElem?_eq_getElem h₂, Option.getD_some]

/-- A write does not reach ranges apart from it. -/
theorem read_write_apart (h : Block.Apart ⟨a, data.length⟩ ⟨b, n⟩) :
    (m.write a data).read b n = m.read b n := by
  unfold Block.Apart at h
  apply List.map_congr_left
  intro i hi
  have hlt : i < n := List.mem_range.mp hi
  have hout : ¬ (a ≤ b + i ∧ b + i < a + data.length) := by
    simp only at h
    omega
  rw [write, if_neg hout]

/-- Part of a range. -/
theorem read_part {off k : Nat} (h : off + k ≤ n) :
    m.read (a + off) k = ((m.read a n).drop off).take k := by
  apply List.ext_getElem
  · simp only [length_read, List.length_take, List.length_drop]
    omega
  · intro i h₁ h₂
    simp [read, Nat.add_assoc]

/-! ## Pointers -/

/-- The low `k` bytes of a number, low byte first. -/
def wordBytes : Nat → Nat → List UInt8
  | 0, _ => []
  | k + 1, v => UInt8.ofNat v :: wordBytes k (v / 256)

def ofBytes : List UInt8 → Nat
  | [] => 0
  | b :: bs => b.toNat + 256 * ofBytes bs

@[simp] theorem length_wordBytes (k v : Nat) : (wordBytes k v).length = k := by
  induction k generalizing v with
  | zero => rfl
  | succ k ih => rw [wordBytes, List.length_cons, ih]

theorem ofBytes_wordBytes {k v : Nat} (h : v < 256 ^ k) : ofBytes (wordBytes k v) = v := by
  induction k generalizing v with
  | zero =>
    rw [Nat.pow_zero] at h
    rw [wordBytes, ofBytes]
    omega
  | succ k ih =>
    have hrest : v / 256 < 256 ^ k := by
      rw [Nat.pow_succ] at h
      omega
    rw [wordBytes, ofBytes, ih hrest, UInt8.toNat_ofNat']
    omega

/-- The pointer at address `a`. -/
def readPtr (m : Mem) (a : Nat) : Nat := ofBytes (m.read a 8)

def writePtr (m : Mem) (a p : Nat) : Mem := m.write a (wordBytes 8 p)

theorem readPtr_writePtr {p : Nat} (h : p < 2 ^ 64) : (m.writePtr a p).readPtr a = p := by
  have hlen : (wordBytes 8 p).length = 8 := length_wordBytes 8 p
  have hread := read_write m a (wordBytes 8 p)
  rw [hlen] at hread
  rw [readPtr, writePtr, hread, ofBytes_wordBytes (by omega)]

theorem readPtr_write_apart (h : Block.Apart ⟨a, data.length⟩ ⟨b, 8⟩) :
    (m.write a data).readPtr b = m.readPtr b := by
  rw [readPtr, readPtr, read_write_apart h]

theorem readPtr_writePtr_apart {p : Nat} (h : Block.Apart ⟨a, 8⟩ ⟨b, 8⟩) :
    (m.writePtr a p).readPtr b = m.readPtr b :=
  readPtr_write_apart (by rwa [length_wordBytes])

end Mem

end LibuvServer.Lib
