import Mathlib.Order.BooleanAlgebra.Set
import Mathlib.Tactic.Common

/-!
# Ledgers

What has been taken of a resource and not given back, and the part of it that
somebody still holds. What nobody holds any more is never given back: it is
lost, and it stays lost whatever is done afterwards.
-/

namespace LibuvServer.Lib

/-- One kind of resource: only what has been taken can be held. -/
structure Ledger (α : Type) where
  live : Set α
  held : Set α
  held_live : held ⊆ live

/-- What is done with one piece of it: it is taken by somebody who holds it,
given back by its holder, or forgotten by it. -/
inductive Move (α : Type) where
  | take (x : α)
  | give (x : α)
  | forget (x : α)

variable {α : Type}

/-- The move loses nothing. -/
def Move.Keeps : Move α → Prop
  | .take _ => True
  | .give _ => True
  | .forget _ => False

namespace Ledger

/-- Nothing is lost. -/
def NoLeak (a : Ledger α) : Prop := a.live ⊆ a.held

def after (a : Ledger α) : Move α → Ledger α
  | .take x => ⟨insert x a.live, insert x a.held, Set.insert_subset_insert a.held_live⟩
  | .give x => ⟨a.live \ {x}, a.held \ {x}, Set.sdiff_subset_sdiff_left a.held_live⟩
  | .forget x => ⟨a.live, a.held \ {x}, Set.sdiff_subset.trans a.held_live⟩

/-- A piece is taken when it is free, and given back or forgotten by its holder. -/
def Allows (a : Ledger α) : Move α → Prop
  | .take x => x ∉ a.live
  | .give x => x ∈ a.held
  | .forget x => x ∈ a.held

def afterAll (a : Ledger α) : List (Move α) → Ledger α
  | [] => a
  | m :: moves => (a.after m).afterAll moves

def AllowsAll (a : Ledger α) : List (Move α) → Prop
  | [] => True
  | m :: moves => a.Allows m ∧ (a.after m).AllowsAll moves

variable {a : Ledger α} {m : Move α} {moves more : List (Move α)} {x : α}

/-- **Only forgetting loses**, and no move brings back what is lost. -/
theorem noLeak_after (h : a.Allows m) : (a.after m).NoLeak ↔ a.NoLeak ∧ m.Keeps := by
  cases m with
  | take x =>
    have hnew : x ∉ a.live := h
    show insert x a.live ⊆ insert x a.held ↔ a.live ⊆ a.held ∧ True
    rw [and_true]
    refine ⟨fun hsub y hy => ?_, Set.insert_subset_insert⟩
    rcases hsub (Set.mem_insert_of_mem x hy) with rfl | hheld
    · exact absurd hy hnew
    · exact hheld
  | give x =>
    have hx : x ∈ a.held := h
    show a.live \ {x} ⊆ a.held \ {x} ↔ a.live ⊆ a.held ∧ True
    rw [and_true]
    refine ⟨fun hsub y hy => ?_, Set.sdiff_subset_sdiff_left⟩
    by_cases hyx : y = x
    · rw [hyx]
      exact hx
    · exact (hsub ⟨hy, hyx⟩).1
  | forget x =>
    have hx : x ∈ a.held := h
    show a.live ⊆ a.held \ {x} ↔ a.live ⊆ a.held ∧ False
    rw [and_false, iff_false]
    intro hsub
    exact (hsub (a.held_live hx)).2 rfl

/-- The same of any number of moves. -/
theorem noLeak_afterAll (h : a.AllowsAll moves) :
    (a.afterAll moves).NoLeak ↔ a.NoLeak ∧ ∀ m ∈ moves, m.Keeps := by
  induction moves generalizing a with
  | nil => simp [afterAll]
  | cons m moves ih =>
    rw [afterAll, ih h.2, noLeak_after h.1, List.forall_mem_cons, and_assoc]

theorem afterAll_append : a.afterAll (moves ++ more) = (a.afterAll moves).afterAll more := by
  induction moves generalizing a with
  | nil => rfl
  | cons m moves ih => exact ih

theorem allowsAll_append :
    a.AllowsAll (moves ++ more) ↔ a.AllowsAll moves ∧ (a.afterAll moves).AllowsAll more := by
  induction moves generalizing a with
  | nil => simp [AllowsAll, afterAll]
  | cons m moves ih =>
    rw [List.cons_append, AllowsAll, AllowsAll, ih, and_assoc]
    rfl

/-- A piece that is taken and forgotten at once. -/
theorem afterAll_take_forget (h : x ∉ a.live) :
    (a.afterAll [.take x, .forget x]).live = insert x a.live ∧
      (a.afterAll [.take x, .forget x]).held = a.held := by
  refine ⟨rfl, ?_⟩
  show insert x a.held \ {x} = a.held
  exact Set.insert_sdiff_self_of_notMem fun hx => h (a.held_live hx)

theorem allowsAll_take_forget (h : x ∉ a.live) : a.AllowsAll [.take x, .forget x] :=
  ⟨h, Set.mem_insert x a.held, trivial⟩

end Ledger

end LibuvServer.Lib
