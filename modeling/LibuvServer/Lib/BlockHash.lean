import LibuvServer.Lib.Framing
import Mathlib.Tactic.Common

/-!
# Hashing block by block

A hash that takes its message in blocks of one size, with padding behind it
that fills the last one. What has been absorbed of a message and the part of a
block that is left over are all a later piece of the message needs, so a
message can be hashed piece by piece.
-/

namespace LibuvServer.Lib

/-- Every frame of the stream has `n` bytes. -/
def Framing.fixed {β : Type*} (n : Nat) (hn : 0 < n) : Framing β where
  size? _ := some n
  pos h := Option.some.inj h ▸ hn
  stable _ h := h

structure BlockHash (σ β : Type*) where
  size : Nat
  pos : 0 < size
  init : σ
  compress : σ → List β → σ
  /-- What is put behind a message of the given length. -/
  padding : Nat → List β
  whole : ∀ n, size ∣ n + (padding n).length

namespace BlockHash

variable {σ β : Type*} (H : BlockHash σ β) {v w f r : List β}

def framing : Framing β := .fixed H.size H.pos

/-- The state after every complete block of `v`, from `s` on. -/
def absorb (s : σ) (v : List β) : σ := (H.framing.drain v).1.foldl H.compress s

/-- What is left of `v` after its complete blocks. -/
def rest (v : List β) : List β := (H.framing.drain v).2

def hash (v : List β) : σ := H.absorb H.init (v ++ H.padding v.length)

theorem absorb_short (s : σ) (h : v.length < H.size) : H.absorb s v = s ∧ H.rest v = v := by
  have hnone : H.framing.split? v = none := by
    refine H.framing.split?_eq_none.mpr fun n hn => ?_
    rwa [← Option.some.inj hn]
  rw [absorb, rest, H.framing.drain_of_none hnone]
  exact ⟨rfl, rfl⟩

/-- The first block is compressed first. -/
theorem absorb_block (s : σ) (h : f.length = H.size) (r : List β) :
    H.absorb s (f ++ r) = H.absorb (H.compress s f) r ∧ H.rest (f ++ r) = H.rest r := by
  have hframe : H.framing.IsFrame f := by
    show some H.size = some f.length
    rw [h]
  rw [absorb, rest, H.framing.drain_of_some (hframe.split? r)]
  exact ⟨rfl, rfl⟩

/-- **A message can be absorbed in pieces.** -/
theorem absorb_append (s : σ) (v w : List β) :
    H.absorb s (v ++ w) = H.absorb (H.absorb s v) (H.rest v ++ w) ∧
      H.rest (v ++ w) = H.rest (H.rest v ++ w) := by
  have happend := H.framing.drain_append v w
  constructor
  · rw [absorb, happend, List.foldl_append]
    rfl
  · show (H.framing.drain (v ++ w)).2 = _
    rw [happend]
    rfl

/-- Less than a block is left, and how much the length says. -/
theorem length_rest (v : List β) : (H.rest v).length = v.length % H.size := by
  induction v using H.framing.drain_induction with
  | none v h =>
    have hshort : v.length < H.size := H.framing.split?_eq_none.mp h _ rfl
    rw [(H.absorb_short H.init hshort).2, Nat.mod_eq_of_lt hshort]
  | some v f r h ih =>
    obtain ⟨hsize, rfl, -⟩ := H.framing.split?_some h
    have hf : f.length = H.size := (Option.some.inj hsize).symm
    rw [(H.absorb_block H.init hf r).2, ih, List.length_append, hf, Nat.add_mod_left]

end BlockHash

end LibuvServer.Lib
