import Mathlib.Data.List.Basic
import Mathlib.Tactic.Common

/-!
# Length-prefixed framing

A byte stream carries frames one after another, and the first bytes of a
frame tell how long the whole frame is. `Framing.drain` cuts the complete
frames off the front of what has arrived; `Framing.drain_append` says that
cutting early and cutting late agree, so the frames found do not depend on
how the stream was divided into pieces.
-/

namespace LibuvServer.Lib

/-- How the front of a stream announces the length of its first frame.
`size? v = some n` once `v` is long enough to tell; the answer is positive
and does not change when more of the stream arrives. -/
structure Framing (β : Type*) where
  size? : List β → Option Nat
  pos : ∀ {v : List β} {n : Nat}, size? v = some n → 0 < n
  stable : ∀ {v : List β} {n : Nat} (w : List β),
    size? v = some n → size? (v ++ w) = some n

namespace Framing

variable {α β : Type*} (F : Framing β)

/-- The first frame of `v` and what follows it, if the frame is complete. -/
def split? (v : List β) : Option (List β × List β) :=
  match F.size? v with
  | some n => if n ≤ v.length then some (v.take n, v.drop n) else none
  | none => none

theorem split?_some {v f r : List β} (h : F.split? v = some (f, r)) :
    F.size? v = some f.length ∧ v = f ++ r ∧ 0 < f.length := by
  unfold split? at h
  split at h
  · rename_i n hn
    split at h
    · rename_i hle
      cases h
      have hlen : (v.take n).length = n := by simp [hle]
      exact ⟨by rw [hlen, hn], by simp, by rw [hlen]; exact F.pos hn⟩
    · cases h
  · cases h

theorem split?_of_size {v : List β} {n : Nat} (hn : F.size? v = some n)
    (hle : n ≤ v.length) : F.split? v = some (v.take n, v.drop n) := by
  simp [split?, hn, hle]

theorem split?_eq_none {v : List β} :
    F.split? v = none ↔ ∀ n, F.size? v = some n → v.length < n := by
  unfold split?
  split
  · rename_i n hn
    split
    · rename_i hle
      simp only [reduceCtorEq, false_iff]
      exact fun h => absurd (h n hn) (by omega)
    · rename_i hlt
      simp only [true_iff]
      intro m hm
      rw [hn] at hm
      cases hm
      omega
  · rename_i hn
    simp [hn]

/-- A complete frame stays the first frame when more of the stream arrives. -/
theorem split?_append {v f r : List β} (h : F.split? v = some (f, r))
    (w : List β) : F.split? (v ++ w) = some (f, r ++ w) := by
  obtain ⟨hn, rfl, -⟩ := F.split?_some h
  rw [F.split?_of_size (F.stable w hn) (by simp)]
  simp

/-- The frames cut off `v` with at most `k` cuts. -/
def drainN : Nat → List β → List (List β) × List β
  | 0, v => ([], v)
  | k + 1, v =>
      match F.split? v with
      | some (f, r) => (f :: (drainN k r).1, (drainN k r).2)
      | none => ([], v)

/-- All complete frames of `v`, in order, and the incomplete rest. -/
def drain (v : List β) : List (List β) × List β := F.drainN v.length v

theorem drainN_of_none {v : List β} (h : F.split? v = none) (k : Nat) :
    F.drainN k v = ([], v) := by
  cases k <;> simp [drainN, h]

theorem drainN_eq {v : List β} {k : Nat} (hk : v.length ≤ k) :
    F.drainN k v = F.drain v := by
  have aux : ∀ (m k l : Nat) (v : List β), v.length ≤ m → v.length ≤ k →
      v.length ≤ l → F.drainN k v = F.drainN l v := by
    intro m
    induction m with
    | zero =>
      intro k l v hm _ _
      have hv : v = [] := List.length_eq_zero_iff.mp (by omega)
      have hnone : F.split? v = none := by
        rw [split?_eq_none]
        intro n hn
        have := F.pos hn
        simpa [hv] using this
      rw [F.drainN_of_none hnone, F.drainN_of_none hnone]
    | succ m ih =>
      intro k l v hm hk hl
      cases hs : F.split? v with
      | none => rw [F.drainN_of_none hs, F.drainN_of_none hs]
      | some p =>
        obtain ⟨f, r⟩ := p
        obtain ⟨-, hv, hpos⟩ := F.split?_some hs
        have hr : v.length = f.length + r.length := by simp [hv]
        obtain ⟨k, rfl⟩ : ∃ k', k = k' + 1 := ⟨k - 1, by omega⟩
        obtain ⟨l, rfl⟩ : ∃ l', l = l' + 1 := ⟨l - 1, by omega⟩
        simp only [drainN, hs, ih k l r (by omega) (by omega) (by omega)]
  exact aux v.length k v.length v (Nat.le_refl _) hk (Nat.le_refl _)

theorem drain_of_none {v : List β} (h : F.split? v = none) :
    F.drain v = ([], v) := F.drainN_of_none h _

theorem drain_of_some {v f r : List β} (h : F.split? v = some (f, r)) :
    F.drain v = (f :: (F.drain r).1, (F.drain r).2) := by
  obtain ⟨-, hv, hpos⟩ := F.split?_some h
  have hr : v.length = f.length + r.length := by simp [hv]
  obtain ⟨k, hk⟩ : ∃ k, v.length = k + 1 := ⟨v.length - 1, by omega⟩
  rw [drain, hk, drainN, h]
  simp only [F.drainN_eq (show r.length ≤ k by omega)]

theorem drain_nil : F.drain [] = ([], []) := rfl

/-- Induction along the cuts of `drain`. -/
theorem drain_induction {P : List β → Prop}
    (none : ∀ v, F.split? v = none → P v)
    (some : ∀ v f r, F.split? v = some (f, r) → P r → P v) (v : List β) : P v := by
  induction hn : v.length using Nat.strongRecOn generalizing v with
  | ind n ih =>
    cases hs : F.split? v with
    | none => exact none v hs
    | some p =>
      obtain ⟨f, r⟩ := p
      obtain ⟨-, hv, hpos⟩ := F.split?_some hs
      have hr : v.length = f.length + r.length := by simp [hv]
      exact some v f r hs (ih r.length (by omega) r rfl)

theorem drain_rest (v : List β) : F.split? (F.drain v).2 = none := by
  induction v using F.drain_induction with
  | none v h => rwa [F.drain_of_none h]
  | some v f r h ih => rwa [F.drain_of_some h]

/-- Frames, each with what follows it. -/
def cutsOf : List (List β) → List β → List (List β × List β)
  | [], _ => []
  | f :: fs, rest => (f, fs.flatten ++ rest) :: cutsOf fs rest

/-- The cuts that `drain` makes: each frame, with what follows it. -/
def cuts (v : List β) : List (List β × List β) := cutsOf (F.drain v).1 (F.drain v).2

theorem drain_flatten (v : List β) : (F.drain v).1.flatten ++ (F.drain v).2 = v := by
  induction v using F.drain_induction with
  | none v h => rw [F.drain_of_none h, List.flatten_nil, List.nil_append]
  | some v f r h ih =>
    obtain ⟨-, hv, -⟩ := F.split?_some h
    rw [F.drain_of_some h, List.flatten_cons, List.append_assoc, ih, hv]

theorem cuts_of_none {v : List β} (h : F.split? v = none) : F.cuts v = [] := by
  rw [cuts, F.drain_of_none h, cutsOf]

theorem cuts_of_some {v f r : List β} (h : F.split? v = some (f, r)) :
    F.cuts v = (f, r) :: F.cuts r := by
  rw [cuts, F.drain_of_some h, cutsOf, F.drain_flatten, cuts]

/-- The frames alone. -/
theorem cuts_flatMap_fst (emit : List β → List α) (v : List β) :
    (F.cuts v).flatMap (fun c => emit c.1) = (F.drain v).1.flatMap emit := by
  induction v using F.drain_induction with
  | none v h => rw [F.cuts_of_none h, F.drain_of_none h, List.flatMap_nil, List.flatMap_nil]
  | some v f r h ih =>
    rw [F.cuts_of_some h, F.drain_of_some h, List.flatMap_cons, List.flatMap_cons, ih]

/-- `w` is what is left of `v` after some frames were cut off its front. -/
inductive Front (v : List β) : List β → Prop where
  | whole : Front v v
  | cut {w f r : List β} : Front v w → F.split? w = some (f, r) → Front v r

theorem front_of_none {v w : List β} (h : F.split? v = none) : F.Front v w ↔ w = v := by
  constructor
  · intro hw
    induction hw with
    | whole => rfl
    | cut _ hs ih =>
      rw [ih, h] at hs
      cases hs
  · rintro rfl
    exact .whole

theorem front_of_some {v f r w : List β} (h : F.split? v = some (f, r)) :
    F.Front v w ↔ w = v ∨ F.Front r w := by
  constructor
  · intro hw
    induction hw with
    | whole => exact .inl rfl
    | cut _ hs ih =>
      right
      rcases ih with rfl | hr
      · rw [h] at hs
        cases hs
        exact .whole
      · exact .cut hr hs
  · rintro (rfl | hw)
    · exact .whole
    · induction hw with
      | whole => exact .cut .whole h
      | cut _ hs ih => exact .cut ih hs

/-- A complete frame: its own front announces exactly its length. -/
def IsFrame (f : List β) : Prop := F.size? f = some f.length

/-- **Cutting early and cutting late agree.** -/
theorem drain_append (v w : List β) :
    F.drain (v ++ w) = ((F.drain v).1 ++ (F.drain ((F.drain v).2 ++ w)).1,
      (F.drain ((F.drain v).2 ++ w)).2) := by
  induction v using F.drain_induction with
  | none v h => simp [F.drain_of_none h]
  | some v f r h ih =>
    -- the frame at the front is cut off before `w` has come and after
    rw [F.drain_of_some (F.split?_append h w), ih, F.drain_of_some h]
    simp

theorem IsFrame.split? {F : Framing β} {f : List β} (h : F.IsFrame f) (w : List β) :
    F.split? (f ++ w) = some (f, w) := by
  rw [F.split?_of_size (F.stable w h) (by simp)]
  simp

/-- A frame cut short is not taken for a frame. -/
theorem IsFrame.split?_short {F : Framing β} {f p : List β} (h : F.IsFrame f)
    (hp : p <+: f) (hlt : p.length < f.length) : F.split? p = none := by
  rw [split?_eq_none]
  intro n hn
  obtain ⟨w, rfl⟩ := hp
  have hf : some n = some (p ++ w).length := by rw [← F.stable w hn, h]
  cases hf
  exact hlt

theorem drain_frames {fs : List (List β)} (h : ∀ f ∈ fs, F.IsFrame f) (w : List β) :
    F.drain (fs.flatten ++ w) = (fs ++ (F.drain w).1, (F.drain w).2) := by
  induction fs with
  | nil => simp
  | cons f fs ih =>
    have hf : F.IsFrame f := h f (by simp)
    rw [List.flatten_cons, List.append_assoc, F.drain_of_some (hf.split? _),
      ih (fun g hg => h g (by simp [hg]))]
    simp

/-- Nothing is left over where the last frame ends. -/
theorem drain_whole {fs : List (List β)} (h : ∀ f ∈ fs, F.IsFrame f) :
    F.drain fs.flatten = (fs, []) := by
  have hdrain := F.drain_frames h []
  rwa [List.append_nil, F.drain_nil, List.append_nil] at hdrain

end Framing

/-- The messages whose encodings lie completely within the first `n` bytes
of the stream that carries `as` one after another. -/
def arrived {α β : Type*} (encode : α → List β) : List α → Nat → List α
  | [], _ => []
  | a :: as, n =>
      if (encode a).length ≤ n then a :: arrived encode as (n - (encode a).length) else []

section Arrived

variable {α β : Type*} {encode : α → List β}

theorem arrived_isPrefix (as : List α) (n : Nat) : arrived encode as n <+: as := by
  induction as generalizing n with
  | nil => simp [arrived]
  | cons a as ih =>
    rw [arrived]
    split
    · exact (List.prefix_cons_inj a).mpr (ih _)
    · exact List.nil_prefix

/-- Once the whole stream is there, everything has arrived. -/
theorem arrived_all {as : List α} {n : Nat} (h : (as.map encode).flatten.length ≤ n) :
    arrived encode as n = as := by
  induction as generalizing n with
  | nil => rfl
  | cons a as ih =>
    simp only [List.map_cons, List.flatten_cons, List.length_append] at h
    rw [arrived, if_pos (by omega), ih (by omega)]

/-- On the front of a stream of encoded messages, `drain` finds exactly the
messages that have arrived. -/
theorem Framing.drain_arrived (F : Framing β) {as : List α}
    (h : ∀ a ∈ as, F.IsFrame (encode a)) {v : List β}
    (hv : v <+: (as.map encode).flatten) :
    (F.drain v).1 = (arrived encode as v.length).map encode := by
  induction as generalizing v with
  | nil =>
    have : v = [] := by simpa using hv
    subst this
    simp [arrived, F.drain_nil]
  | cons a as ih =>
    have ha : F.IsFrame (encode a) := h a (by simp)
    rw [List.map_cons, List.flatten_cons] at hv
    rw [arrived]
    split
    · -- the first message is complete, and the others are in the rest
      rename_i hle
      obtain ⟨u, rfl⟩ : encode a <+: v :=
        List.prefix_of_prefix_length_le (List.prefix_append _ _) hv hle
      have hu : u <+: (as.map encode).flatten := (List.prefix_append_right_inj _).mp hv
      rw [F.drain_of_some (ha.split? u)]
      simp only [ih (fun b hb => h b (by simp [hb])) hu, List.map_cons, List.length_append]
      rw [Nat.add_sub_cancel_left]
    · rename_i hlt
      have hp : v <+: encode a :=
        List.prefix_of_prefix_length_le hv (List.prefix_append _ _) (by omega)
      rw [F.drain_of_none (ha.split?_short hp (by omega))]
      rfl

/-- What is left over is nothing or the beginning of one message. -/
theorem Framing.drain_arrived_rest (F : Framing β) {as : List α}
    (h : ∀ a ∈ as, F.IsFrame (encode a)) {v : List β}
    (hv : v <+: (as.map encode).flatten) :
    (F.drain v).2 = [] ∨ ∃ a ∈ as, (F.drain v).2 <+: encode a := by
  induction as generalizing v with
  | nil =>
    have : v = [] := by simpa using hv
    subst this
    exact .inl rfl
  | cons a as ih =>
    have ha : F.IsFrame (encode a) := h a (by simp)
    rw [List.map_cons, List.flatten_cons] at hv
    by_cases hle : (encode a).length ≤ v.length
    · obtain ⟨u, rfl⟩ : encode a <+: v :=
        List.prefix_of_prefix_length_le (List.prefix_append _ _) hv hle
      have hu : u <+: (as.map encode).flatten := (List.prefix_append_right_inj _).mp hv
      rw [F.drain_of_some (ha.split? u)]
      rcases ih (fun b hb => h b (by simp [hb])) hu with hnil | ⟨b, hb, hpre⟩
      · exact .inl hnil
      · exact .inr ⟨b, by simp [hb], hpre⟩
    · have hp : v <+: encode a :=
        List.prefix_of_prefix_length_le hv (List.prefix_append _ _) (by omega)
      rw [F.drain_of_none (ha.split?_short hp (by omega))]
      exact .inr ⟨a, by simp, hp⟩

/-- Nothing is left over of a whole stream. -/
theorem Framing.drain_stream (F : Framing β) {as : List α}
    (h : ∀ a ∈ as, F.IsFrame (encode a)) :
    F.drain (as.map encode).flatten = (as.map encode, []) := by
  refine F.drain_whole fun f hf => ?_
  obtain ⟨a, ha, rfl⟩ := List.mem_map.mp hf
  exact h a ha

end Arrived

end LibuvServer.Lib
