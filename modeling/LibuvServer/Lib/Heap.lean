import Mathlib.Logic.Function.Basic
import Mathlib.Tactic.Common

/-!
# Heaps

Blocks by number, each with the way it was obtained, and programs that obtain
and release them. Numbers are never used again, so that a block released twice
is a block released that is not there: no outcome. Rules for programs that
end, with what holds before and after.
-/

namespace LibuvServer.Lib

/-- The blocks that are live. -/
structure Heap (κ : Type) where
  live : Nat → Option κ
  next : Nat
  fresh : ∀ id, next ≤ id → live id = none

namespace Heap

variable {κ α β : Type}

abbrev Prog (κ α : Type) : Type := StateT (Heap κ) Option α

def empty : Heap κ := ⟨fun _ => none, 0, fun _ _ => rfl⟩

/-- A new block. -/
def alloc (kind : κ) : Prog κ Nat := fun heap =>
  some (heap.next,
    { live := Function.update heap.live heap.next (some kind)
      next := heap.next + 1
      fresh := fun id hid => by
        rw [Function.update_of_ne (by omega)]
        exact heap.fresh id (by omega) })

/-- A block is given back in a way that suits how it was obtained. -/
def release (suits : κ → Bool) (id : Nat) : Prog κ Unit := fun heap =>
  if (heap.live id).any suits then
    some ((),
      { live := Function.update heap.live id none
        next := heap.next
        fresh := fun i hi => by
          by_cases heq : i = id
          · rw [heq, Function.update_self]
          · rw [Function.update_of_ne heq]
            exact heap.fresh i hi })
  else none

/-! ## Programs that end -/

/-- From every heap with `P` the program ends, with `Q`. -/
def Ends (P : Heap κ → Prop) (m : Prog κ α) (Q : α → Heap κ → Prop) : Prop :=
  ∀ heap, P heap → ∃ a heap', m heap = some (a, heap') ∧ Q a heap'

/-- These blocks are live. -/
def Live (live : Nat → Option κ) (heap : Heap κ) : Prop := heap.live = live

variable {P : Heap κ → Prop} {Q : α → Heap κ → Prop} {R : β → Heap κ → Prop}
  {live : Nat → Option κ}

theorem ends_pure {a : α} (h : ∀ heap, P heap → Q a heap) : Ends P (pure a) Q :=
  fun heap hP => ⟨a, heap, rfl, h heap hP⟩

/-- One after the other. -/
theorem Ends.bind {m : Prog κ α} {f : α → Prog κ β} (hm : Ends P m Q)
    (hf : ∀ a, Ends (Q a) (f a) R) : Ends P (m >>= f) R := by
  intro heap hP
  obtain ⟨a, heap₁, hrun, hQ⟩ := hm heap hP
  obtain ⟨b, heap₂, hrun', hR⟩ := hf a heap₁ hQ
  refine ⟨b, heap₂, ?_, hR⟩
  show (m heap).bind (fun p => f p.1 p.2) = _
  rw [hrun]
  exact hrun'

/-- What is known of the heap and does not depend on it. -/
theorem ends_and {p : Prop} {m : Prog κ α} (h : p → Ends P m Q) :
    Ends (fun heap => p ∧ P heap) m Q :=
  fun heap hP => h hP.1 heap hP.2

theorem Ends.post {m : Prog κ α} {Q' : α → Heap κ → Prop} (hm : Ends P m Q)
    (h : ∀ a heap, Q a heap → Q' a heap) : Ends P m Q' := by
  intro heap hP
  obtain ⟨a, heap', hrun, hQ⟩ := hm heap hP
  exact ⟨a, heap', hrun, h a heap' hQ⟩

/-- A new block was not live. -/
theorem alloc_ends (kind : κ) :
    Ends (Live live) (alloc kind) fun id heap =>
      live id = none ∧ Live (Function.update live id (some kind)) heap := by
  rintro heap rfl
  exact ⟨_, _, rfl, heap.fresh _ (Nat.le_refl _), rfl⟩

theorem release_ends (suits : κ → Bool) {id : Nat} {kind : κ} (h : live id = some kind)
    (hsuits : suits kind = true) :
    Ends (Live live) (release suits id) fun _ heap =>
      Live (Function.update live id none) heap := by
  rintro heap rfl
  have hlive : (heap.live id).any suits = true := by
    rw [h]
    exact hsuits
  exact ⟨(), _, if_pos hlive, rfl⟩

/-- What was obtained and released leaves nothing. -/
theorem update_none {id : Nat} {kind : κ} (h : live id = none) :
    Function.update (Function.update live id (some kind)) id none = live := by
  rw [Function.update_idem, ← h, Function.update_eq_self]

/-- A block obtained later is another one. -/
theorem ne_of_update {id id' : Nat} {kind : κ}
    (h : Function.update live id (some kind) id' = none) : id' ≠ id := by
  rintro rfl
  rw [Function.update_self] at h
  cases h

/-- The first of two blocks goes, and the second stays. -/
theorem update_none_first {id id' : Nat} {kind kind' : κ} (h : live id = none) (hne : id' ≠ id) :
    Function.update (Function.update (Function.update live id (some kind)) id' (some kind')) id
      none = Function.update live id' (some kind') := by
  have hfree : Function.update live id' (some kind') id = none := by
    rw [Function.update_of_ne hne.symm, h]
  rw [Function.update_comm hne.symm]
  exact update_none hfree

/-- The program ends, and has released just what it obtained. -/
def Balanced (m : Prog κ α) : Prop := ∀ live, Ends (Live live) m fun _ heap => Live live heap

end Heap

end LibuvServer.Lib
