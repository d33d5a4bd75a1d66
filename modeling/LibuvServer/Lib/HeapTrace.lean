import LibuvServer.Lib.Runs
import Mathlib.Data.List.Count
import Mathlib.Data.List.Induction

/-!
# Traces of a heap

What a run obtains and gives back, as a list. A trace is sound when every
block that is given back was live, and what it leaves is a matter of counting.
-/

namespace LibuvServer.Lib

inductive HeapEntry (β : Type) where
  | malloc (b : β)
  | free (b : β)
  deriving DecidableEq

namespace HeapEntry

variable {β : Type} [DecidableEq β]

def mallocs (trace : List (HeapEntry β)) (b : β) : Nat := trace.count (.malloc b)

def frees (trace : List (HeapEntry β)) (b : β) : Nat := trace.count (.free b)

/-- How often a block is there. -/
def live (trace : List (HeapEntry β)) (b : β) : Nat := mallocs trace b - frees trace b

/-- What is given back is there. -/
def Sound (trace : List (HeapEntry β)) : Prop :=
  Justified (fun pre e => ∀ b, e = .free b → 0 < live pre b) trace

variable {trace out : List (HeapEntry β)} {b : β} {bs : List β}

/-! ## Counting -/

theorem mallocs_append : mallocs (trace ++ out) b = mallocs trace b + mallocs out b :=
  List.count_append

theorem frees_append : frees (trace ++ out) b = frees trace b + frees out b := List.count_append

theorem mallocs_malloc (bs : List β) (b : β) : mallocs (bs.map .malloc) b = bs.count b :=
  List.count_map_of_injective bs _ (fun _ _ h => HeapEntry.malloc.inj h) b

theorem frees_free (bs : List β) (b : β) : frees (bs.map .free) b = bs.count b :=
  List.count_map_of_injective bs _ (fun _ _ h => HeapEntry.free.inj h) b

theorem mallocs_free (bs : List β) (b : β) : mallocs (bs.map .free) b = 0 := by
  refine List.count_eq_zero.mpr fun h => ?_
  obtain ⟨x, -, hx⟩ := List.mem_map.mp h
  cases hx

theorem frees_malloc (bs : List β) (b : β) : frees (bs.map .malloc) b = 0 := by
  refine List.count_eq_zero.mpr fun h => ?_
  obtain ⟨x, -, hx⟩ := List.mem_map.mp h
  cases hx

/-! ## Soundness -/

theorem sound_nil : Sound ([] : List (HeapEntry β)) := justified_nil

/-- One entry more. -/
theorem sound_snoc {e : HeapEntry β} :
    Sound (trace ++ [e]) ↔ Sound trace ∧ ∀ b, e = .free b → 0 < live trace b := by
  have happend : Sound (trace ++ [e]) ↔
      Sound trace ∧ ∀ x ∈ [e], ∀ b, x = .free b → 0 < live trace b := by
    refine justified_append fun pre x post heq => ?_
    cases pre with
    | nil => rw [List.append_nil]
    | cons y pre =>
      have hlen := congrArg List.length heq
      simp at hlen
  rw [happend, List.forall_mem_singleton]

/-- What is obtained disturbs nothing. -/
theorem Sound.malloc (h : Sound trace) (bs : List β) : Sound (trace ++ bs.map .malloc) := by
  induction bs generalizing trace with
  | nil => rwa [List.map_nil, List.append_nil]
  | cons b bs ih =>
    have hone : Sound (trace ++ [.malloc b]) := sound_snoc.mpr ⟨h, fun _ hb => by cases hb⟩
    have hall := ih hone
    rwa [List.append_assoc] at hall

/-- **Blocks that are there** can be given back. -/
theorem Sound.free (h : Sound trace) (bs : List β) (hlive : ∀ b ∈ bs, bs.count b ≤ live trace b) :
    Sound (trace ++ bs.map .free) := by
  induction bs generalizing trace with
  | nil => rwa [List.map_nil, List.append_nil]
  | cons b bs ih =>
    have hone : Sound (trace ++ [.free b]) := by
      refine sound_snoc.mpr ⟨h, fun x hx => ?_⟩
      cases hx
      have hb := hlive b (List.mem_cons_self ..)
      rw [List.count_cons_self] at hb
      exact Nat.lt_of_lt_of_le (Nat.succ_pos _) hb
    have hall := ih hone (fun x hx => ?_)
    · rwa [List.append_assoc] at hall
    · have hb := hlive x (List.mem_cons_of_mem b hx)
      rw [List.count_cons] at hb
      unfold live at hb ⊢
      rw [mallocs_append, frees_append]
      have hfree : frees [HeapEntry.free b] x = if b == x then 1 else 0 :=
        (frees_free [b] x).trans List.count_singleton
      have hmalloc : mallocs [HeapEntry.free b] x = 0 := mallocs_free [b] x
      rw [hfree, hmalloc]
      omega

theorem Sound.of_append (h : Sound (trace ++ out)) : Sound trace := fun pre e post heq =>
  h pre e (post ++ out) (by rw [heq, List.append_assoc, List.cons_append])

/-- Nothing is given back more often than it was obtained. -/
theorem Sound.frees_le (h : Sound trace) (b : β) : frees trace b ≤ mallocs trace b := by
  induction trace using List.reverseRecOn with
  | nil => exact Nat.le_refl _
  | append_singleton trace e ih =>
    obtain ⟨hold, hlast⟩ := sound_snoc.mp h
    have hle := ih hold
    rw [mallocs_append, frees_append]
    by_cases he : e = .free b
    · have hpos := hlast b he
      unfold live at hpos
      have hone : frees [e] b = 1 := by rw [he, frees, List.count_singleton_self]
      rw [hone]
      omega
    · have hnone : frees [e] b = 0 := List.count_eq_zero.mpr fun hmem =>
        he (List.mem_singleton.mp hmem).symm
      rw [hnone]
      omega

theorem live_malloc (h : Sound trace) (b x : β) :
    live (trace ++ [.malloc b]) x = live trace x + if x = b then 1 else 0 := by
  have hmalloc : mallocs [HeapEntry.malloc b] x = if b == x then 1 else 0 :=
    (mallocs_malloc [b] x).trans List.count_singleton
  have hfree : frees [HeapEntry.malloc b] x = 0 := frees_malloc [b] x
  have hle := h.frees_le x
  unfold live
  rw [mallocs_append, frees_append, hmalloc, hfree]
  by_cases hx : x = b
  · rw [if_pos hx, if_pos (beq_iff_eq.mpr hx.symm)]
    omega
  · rw [if_neg hx, if_neg fun h => hx (beq_iff_eq.mp h).symm]
    omega

theorem live_free (b x : β) :
    live (trace ++ [.free b]) x = live trace x - if x = b then 1 else 0 := by
  have hmalloc : mallocs [HeapEntry.free b] x = 0 := mallocs_free [b] x
  have hfree : frees [HeapEntry.free b] x = if b == x then 1 else 0 :=
    (frees_free [b] x).trans List.count_singleton
  unfold live
  rw [mallocs_append, frees_append, hmalloc, hfree]
  by_cases hx : x = b
  · rw [if_pos hx, if_pos (beq_iff_eq.mpr hx.symm)]
    omega
  · rw [if_neg hx, if_neg fun h => hx (beq_iff_eq.mp h).symm]
    omega

end HeapEntry

end LibuvServer.Lib
