import LibuvServer.Lib.HeapTrace
import Mathlib.Logic.Function.Basic

/-!
# Where blocks are

A program speaks of its blocks by the pointers that hold them, and an
allocator gives out addresses. If it never gives out one that is held, what is
live of the pointers and what is live of the addresses go together.
-/

namespace LibuvServer.Lib

open HeapEntry

/-- `address` is what the pointers hold; `held` is given out and not given back. -/
structure Placement (β α : Type) where
  address : β → Option α
  held : α → Bool

namespace Placement

variable {β α : Type} [DecidableEq β] [DecidableEq α]

def empty : Placement β α := ⟨fun _ => none, fun _ => false⟩

def malloc (p : Placement β α) (b : β) (a : α) : Placement β α :=
  ⟨Function.update p.address b (some a), Function.update p.held a true⟩

def free (p : Placement β α) (a : α) : Placement β α :=
  ⟨p.address, Function.update p.held a false⟩

/-- The entries at the addresses that are given. An allocator that is intact
gives none that is held. -/
def place (intact : Bool) :
    Placement β α → List (HeapEntry β) → List α → Option (Placement β α × List (HeapEntry α))
  | p, [], [] => some (p, [])
  | p, .malloc b :: entries, a :: given =>
    if intact = true → p.held a = false then
      (place intact (p.malloc b a) entries given).map fun r => (r.1, .malloc a :: r.2)
    else none
  | p, .free b :: entries, given => (p.address b).bind fun a =>
    (place intact (p.free a) entries given).map fun r => (r.1, .free a :: r.2)
  | _, [], _ :: _ => none
  | _, .malloc _ :: _, [] => none

/-- Live pointers hold live addresses, each one its own. -/
structure Follows (names : List (HeapEntry β)) (p : Placement β α)
    (trace : List (HeapEntry α)) : Prop where
  sound : Sound trace
  live_iff : ∀ a, 0 < live trace a ↔ ∃ b, 0 < live names b ∧ p.address b = some a
  once : ∀ a, live trace a ≤ 1
  placed : ∀ b, 0 < live names b → (p.address b).isSome
  apart : ∀ b b', 0 < live names b → 0 < live names b' → p.address b = p.address b' → b = b'
  held : ∀ a, p.held a = true ↔ 0 < live trace a

variable {names entries : List (HeapEntry β)} {p p' : Placement β α}
  {trace out : List (HeapEntry α)} {given : List α} {a : α} {b : β}

theorem Follows.empty : Follows ([] : List (HeapEntry β)) (Placement.empty : Placement β α) [] where
  sound := sound_nil
  live_iff a := by
    refine iff_of_false (Nat.lt_irrefl 0) ?_
    rintro ⟨b, hlive, -⟩
    exact Nat.lt_irrefl 0 hlive
  once _ := Nat.zero_le 1
  placed _ h := absurd h (Nat.lt_irrefl 0)
  apart _ _ h := absurd h (Nat.lt_irrefl 0)
  held _ := iff_of_false Bool.false_ne_true (Nat.lt_irrefl 0)

/-- A block that is not held goes to a pointer that holds none. -/
theorem Follows.malloc (h : Follows names p trace) (hsound : Sound names)
    (hnone : live names b = 0) (hfree : p.held a = false) :
    Follows (names ++ [.malloc b]) (p.malloc b a) (trace ++ [.malloc a]) := by
  have hdead : live trace a = 0 := by
    have hheld := (h.held a).not.mp (by rw [hfree]; exact Bool.false_ne_true)
    omega
  have hname : ∀ x, 0 < live (names ++ [.malloc b]) x ↔ x = b ∨ 0 < live names x := by
    intro x
    rw [live_malloc hsound]
    split <;> simp [*]
  have hother : ∀ x, x ≠ b → (p.malloc b a).address x = p.address x := fun x hx =>
    Function.update_of_ne hx _ _
  have hself : (p.malloc b a).address b = some a := Function.update_self _ _ _
  -- nobody who is live holds the block
  have hfresh : ∀ x, 0 < live names x → p.address x ≠ some a := by
    intro x hx hat
    have hlive := (h.live_iff a).mpr ⟨x, hx, hat⟩
    omega
  have hne : ∀ x, 0 < live names x → x ≠ b := by
    rintro x hx rfl
    omega
  refine ⟨h.sound.malloc [a], fun c => ?_, fun c => ?_, fun x hx => ?_, fun x y hx hy heq => ?_,
    fun c => ?_⟩
  · rw [live_malloc h.sound]
    by_cases hc : c = a
    · rw [if_pos hc, hc]
      exact iff_of_true (Nat.succ_pos _) ⟨b, (hname b).mpr (.inl rfl), hself⟩
    · rw [if_neg hc, Nat.add_zero, h.live_iff c]
      constructor
      · rintro ⟨x, hx, hat⟩
        exact ⟨x, (hname x).mpr (.inr hx), (hother x (hne x hx)).trans hat⟩
      · rintro ⟨x, hx, hat⟩
        rcases (hname x).mp hx with rfl | hx
        · rw [hself, Option.some.injEq] at hat
          exact absurd hat.symm hc
        · exact ⟨x, hx, (hother x (hne x hx)).symm.trans hat⟩
  · rw [live_malloc h.sound]
    split
    · rename_i hc
      exact Nat.le_of_eq (by rw [hc, hdead])
    · exact h.once c
  · rcases (hname x).mp hx with rfl | hx
    · exact congrArg Option.isSome hself
    · rw [hother x (hne x hx)]
      exact h.placed x hx
  · rcases (hname x).mp hx with hxb | hx <;> rcases (hname y).mp hy with hyb | hy
    · exact hxb.trans hyb.symm
    · rw [hxb, hself, hother y (hne y hy)] at heq
      exact absurd heq.symm (hfresh y hy)
    · rw [hyb, hself, hother x (hne x hx)] at heq
      exact absurd heq (hfresh x hx)
    · rw [hother x (hne x hx), hother y (hne y hy)] at heq
      exact h.apart x y hx hy heq
  · rw [live_malloc h.sound]
    show Function.update p.held a true c = true ↔ _
    by_cases hc : c = a
    · rw [if_pos hc, hc, Function.update_self]
      exact iff_of_true rfl (Nat.succ_pos _)
    · rw [if_neg hc, Function.update_of_ne hc]
      exact h.held c

/-- A live pointer gives its block back. -/
theorem Follows.free (h : Follows names p trace) (hlive : live names b = 1)
    (hat : p.address b = some a) :
    Follows (names ++ [.free b]) (p.free a) (trace ++ [.free a]) := by
  have hpos : 0 < live trace a := (h.live_iff a).mpr ⟨b, by omega, hat⟩
  have hname : ∀ x, 0 < live (names ++ [.free b]) x ↔ x ≠ b ∧ 0 < live names x := by
    intro x
    rw [live_free]
    by_cases hx : x = b
    · rw [if_pos hx, hx, hlive]
      simp
    · rw [if_neg hx]
      simp [hx]
  have hone := h.once a
  refine ⟨sound_snoc.mpr ⟨h.sound, fun c hc => ?_⟩, fun c => ?_, fun c => ?_, fun x hx => ?_,
    fun x y hx hy => ?_, fun c => ?_⟩
  · cases hc
    exact hpos
  · rw [live_free]
    by_cases hc : c = a
    · rw [if_pos hc, hc]
      refine iff_of_false (by omega) ?_
      rintro ⟨x, hx, hxa⟩
      obtain ⟨hne, hx⟩ := (hname x).mp hx
      exact hne (h.apart x b hx (by omega) (hxa.trans hat.symm))
    · rw [if_neg hc, Nat.sub_zero, h.live_iff c]
      refine exists_congr fun x => ⟨fun ⟨hx, hxc⟩ => ⟨(hname x).mpr ⟨?_, hx⟩, hxc⟩,
        fun ⟨hx, hxc⟩ => ⟨((hname x).mp hx).2, hxc⟩⟩
      rintro rfl
      rw [hat, Option.some.injEq] at hxc
      exact hc hxc.symm
  · rw [live_free]
    exact Nat.le_trans (Nat.sub_le _ _) (h.once c)
  · exact h.placed x ((hname x).mp hx).2
  · exact h.apart x y ((hname x).mp hx).2 ((hname y).mp hy).2
  · rw [live_free]
    show Function.update p.held a false c = true ↔ _
    by_cases hc : c = a
    · rw [if_pos hc, hc, Function.update_self]
      exact iff_of_false Bool.false_ne_true (by omega)
    · rw [if_neg hc, Nat.sub_zero, Function.update_of_ne hc]
      exact h.held c

/-- **What an intact allocator places** follows the pointers, if they are used
rightly: nothing is given back that is not there, and no pointer is used twice. -/
theorem Follows.place (h : Follows names p trace) (hsound : Sound (names ++ entries))
    (honce : ∀ b, mallocs (names ++ entries) b ≤ 1)
    (hplace : place true p entries given = some (p', out)) :
    Follows (names ++ entries) p' (trace ++ out) := by
  induction entries generalizing names p trace given out with
  | nil =>
    cases given with
    | nil =>
      cases hplace
      rwa [List.append_nil, List.append_nil]
    | cons a given => cases hplace
  | cons e entries ih =>
    rw [List.append_cons] at hsound honce
    have hhead := sound_snoc.mp hsound.of_append
    have hmallocs : ∀ b, mallocs (names ++ [e]) b ≤ 1 := fun b => by
      have hb := honce b
      rw [mallocs_append] at hb
      omega
    cases e with
    | malloc b =>
      cases given with
      | nil => cases hplace
      | cons a given =>
        rw [Placement.place] at hplace
        split at hplace
        · rename_i hfree
          obtain ⟨r, hrest, hr⟩ := Option.map_eq_some_iff.mp hplace
          cases hr
          have hnone : live names b = 0 := by
            have hb := hmallocs b
            have hself : mallocs [HeapEntry.malloc b] b = 1 := List.count_singleton_self
            rw [mallocs_append, hself] at hb
            unfold live
            omega
          have hfirst := h.malloc hhead.1 hnone (hfree rfl)
          have hall := ih hfirst hsound honce hrest
          rwa [← List.append_cons, ← List.append_cons] at hall
        · cases hplace
    | free b =>
      rw [Placement.place] at hplace
      obtain ⟨a, hat, hplace⟩ := Option.bind_eq_some_iff.mp hplace
      obtain ⟨r, hrest, hr⟩ := Option.map_eq_some_iff.mp hplace
      cases hr
      have hone : live names b = 1 := by
        have hb := hmallocs b
        have hpos := hhead.2 b rfl
        have hnot : mallocs [HeapEntry.free b] b = 0 := mallocs_free [b] b
        rw [mallocs_append, hnot] at hb
        unfold live at hpos ⊢
        omega
      have hall := ih (h.free hone hat) hsound honce hrest
      rwa [← List.append_cons, ← List.append_cons] at hall

end Placement

end LibuvServer.Lib
