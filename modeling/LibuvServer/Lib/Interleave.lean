import LibuvServer.Lib.Loop
import Mathlib.Data.List.Basic
import Mathlib.Logic.Function.Basic
import Mathlib.Tactic.Common

/-!
# Parties in any order

One step function, a family of states, and inputs for the members of the
family in any order. `interleave_ended` says that each member runs as it
would alone: interleaving changes neither where it ends nor what it emits.
`interleaveShared_forget` says the same of members that share a store, when
no step lets anything of the store through (`Blind`).
-/

namespace LibuvServer.Lib

variable {ι σ ε α : Type*}

/-- Step after step, one for each input. -/
def feed (step : σ → α → Outcome σ ε) : σ → List α → Outcome σ ε
  | s, [] => .ended s []
  | s, a :: as => (step s a).andThen fun s' => feed step s' as

theorem Outcome.andThen_eq_ended {r : Outcome σ ε} {next : σ → Outcome σ ε} {s' : σ}
    {out : List ε} (h : r.andThen next = .ended s' out) :
    ∃ s₁ out₁ out₂, r = .ended s₁ out₁ ∧ next s₁ = .ended s' out₂ ∧ out = out₁ ++ out₂ := by
  cases r with
  | ended s₁ out₁ =>
    obtain ⟨out₂, hnext, hout⟩ := Outcome.after_eq_ended h
    exact ⟨s₁, out₁, out₂, rfl, hnext, hout⟩
  | faulted => cases h
  | unfinished => cases h

/-- **Invariant rule** for a sequence of steps and what they emit. -/
theorem feed_emits {step : σ → α → Outcome σ ε} {P : σ → Prop} {R : ε → Prop}
    (hstep : ∀ s a s' out, P s → step s a = .ended s' out → P s' ∧ ∀ e ∈ out, R e)
    {s s' : σ} {as : List α} {out : List ε} (hs : P s) (hrun : feed step s as = .ended s' out) :
    P s' ∧ ∀ e ∈ out, R e := by
  induction as generalizing s out with
  | nil =>
    cases hrun
    exact ⟨hs, by simp⟩
  | cons a as ih =>
    obtain ⟨s₁, out₁, out₂, hone, hrest, rfl⟩ := Outcome.andThen_eq_ended hrun
    obtain ⟨h₁, ho₁⟩ := hstep s a s₁ out₁ hs hone
    obtain ⟨h₂, ho₂⟩ := ih h₁ hrest
    refine ⟨h₂, fun e he => ?_⟩
    rcases List.mem_append.mp he with h | h
    · exact ho₁ e h
    · exact ho₂ e h

variable [DecidableEq ι]

/-- The part of an interleaving that belongs to `i`. -/
def partOf (i : ι) (events : List (ι × α)) : List α :=
  (events.filter fun e => e.1 = i).map (·.2)

theorem partOf_append (i : ι) (events more : List (ι × α)) :
    partOf i (events ++ more) = partOf i events ++ partOf i more := by
  simp [partOf]

theorem partOf_cons_self (i : ι) (a : α) (events : List (ι × α)) :
    partOf i ((i, a) :: events) = a :: partOf i events := by
  simp [partOf]

theorem partOf_cons_ne {i j : ι} (h : j ≠ i) (a : α) (events : List (ι × α)) :
    partOf i ((j, a) :: events) = partOf i events := by
  simp [partOf, h]

theorem partOf_map_self (i : ι) (as : List α) : partOf i (as.map fun a => (i, a)) = as := by
  induction as with
  | nil => rfl
  | cons a as ih => rw [List.map_cons, partOf_cons_self, ih]

theorem partOf_map_ne {i j : ι} (h : j ≠ i) (as : List α) :
    partOf i (as.map fun a => (j, a)) = [] := by
  induction as with
  | nil => rfl
  | cons a as ih => rw [List.map_cons, partOf_cons_ne h, ih]

/-- The members' inputs one member after another. -/
def inTurn (inputs : ι → List α) (is : List ι) : List (ι × α) :=
  is.flatMap fun i => (inputs i).map fun a => (i, a)

theorem partOf_inTurn_of_notMem {inputs : ι → List α} {is : List ι} {i : ι} (h : i ∉ is) :
    partOf i (inTurn inputs is) = [] := by
  induction is with
  | nil => rfl
  | cons j is ih =>
    have hne : j ≠ i := fun hc => h (by simp [hc])
    have hrest : i ∉ is := fun hc => h (by simp [hc])
    rw [inTurn, List.flatMap_cons, partOf_append, partOf_map_ne hne]
    exact ih hrest

/-- Every list of inputs can be interleaved somehow. -/
theorem partOf_inTurn {inputs : ι → List α} {is : List ι} {i : ι} (hnd : is.Nodup) (h : i ∈ is) :
    partOf i (inTurn inputs is) = inputs i := by
  induction is with
  | nil => cases h
  | cons j is ih =>
    obtain ⟨hj, hnd⟩ := List.nodup_cons.mp hnd
    rw [inTurn, List.flatMap_cons, partOf_append]
    by_cases hij : j = i
    · subst hij
      rw [partOf_map_self]
      exact (congrArg (inputs j ++ ·) (partOf_inTurn_of_notMem hj)).trans (List.append_nil _)
    · have hmem : i ∈ is := by
        rcases List.mem_cons.mp h with rfl | hmem
        · exact absurd rfl hij
        · exact hmem
      rw [partOf_map_ne hij]
      exact ih hnd hmem

/-- A family of states, stepping one at a time. -/
def interleave (step : σ → α → Outcome σ ε) :
    (ι → σ) → List (ι × α) → Outcome (ι → σ) (ι × ε)
  | s, [] => .ended s []
  | s, (i, a) :: events =>
    match step (s i) a with
    | .ended s' out =>
      (interleave step (Function.update s i s') events).after (out.map fun e => (i, e))
    | .faulted => .faulted
    | .unfinished => .unfinished

/-- **Each party runs as it would alone.** -/
theorem interleave_ended {step : σ → α → Outcome σ ε} {events : List (ι × α)} {s : ι → σ}
    (h : ∀ i, ∃ s' out, feed step (s i) (partOf i events) = .ended s' out) :
    ∃ s' out, interleave step s events = .ended s' out ∧
      ∀ i, feed step (s i) (partOf i events) = .ended (s' i) (partOf i out) := by
  induction events generalizing s with
  | nil => exact ⟨s, [], rfl, fun i => rfl⟩
  | cons event events ih =>
    obtain ⟨j, a⟩ := event
    obtain ⟨sj, outj, hj⟩ := h j
    rw [partOf_cons_self, feed] at hj
    obtain ⟨s₁, out₁, out₂, hstep, -, -⟩ := Outcome.andThen_eq_ended hj
    -- party `j` has one input less, and every other party is where it was
    have hrest : ∀ i, ∃ s' out,
        feed step (Function.update s j s₁ i) (partOf i events) = .ended s' out := by
      intro i
      obtain ⟨s', out, hi⟩ := h i
      by_cases hij : j = i
      · subst hij
        rw [partOf_cons_self, feed] at hi
        obtain ⟨t, o₁, o₂, ht, hnext, -⟩ := Outcome.andThen_eq_ended hi
        rw [hstep] at ht
        cases ht
        rw [Function.update_self]
        exact ⟨s', o₂, hnext⟩
      · rw [partOf_cons_ne hij] at hi
        rw [Function.update_of_ne (Ne.symm hij)]
        exact ⟨s', out, hi⟩
    obtain ⟨s', out, hrun, heach⟩ := ih hrest
    refine ⟨s', out₁.map (fun e => (j, e)) ++ out, ?_, fun i => ?_⟩
    · rw [interleave, hstep]
      simp only
      rw [hrun, Outcome.after_ended]
    · have hi := heach i
      by_cases hij : j = i
      · subst hij
        rw [Function.update_self] at hi
        rw [partOf_cons_self, feed, hstep, Outcome.ended_andThen, hi, Outcome.after_ended,
          partOf_append, partOf_map_self]
      · rw [Function.update_of_ne (Ne.symm hij)] at hi
        rw [partOf_cons_ne hij, hi, partOf_append, partOf_map_ne hij, List.nil_append]

/-! ## A shared store -/

variable {γ : Type*}

/-- The outcome with the store as it was. -/
def Outcome.share (g : γ) : Outcome σ ε → Outcome (γ × σ) ε
  | .ended s out => .ended (g, s) out
  | .faulted => .faulted
  | .unfinished => .unfinished

/-- The outcome without the store. -/
def Outcome.forget : Outcome (γ × σ) ε → Outcome σ ε
  | .ended (_, s) out => .ended s out
  | .faulted => .faulted
  | .unfinished => .unfinished

@[simp] theorem Outcome.forget_ended (g : γ) (s : σ) (out : List ε) :
    (Outcome.ended (g, s) out).forget = .ended s out := rfl

@[simp] theorem Outcome.forget_share (g : γ) (r : Outcome σ ε) : (r.share g).forget = r := by
  cases r <;> rfl

theorem Outcome.forget_eq_ended {r : Outcome (γ × σ) ε} {s : σ} {out : List ε}
    (h : r.forget = .ended s out) : ∃ g, r = .ended (g, s) out := by
  cases r with
  | ended p out' =>
    cases h
    exact ⟨p.1, rfl⟩
  | faulted => cases h
  | unfinished => cases h

theorem Outcome.forget_after (out : List ε) (r : Outcome (γ × σ) ε) :
    (r.after out).forget = r.forget.after out := by
  cases r <;> rfl

/-- What a step does to its member does not depend on the store. -/
def Blind (step : γ → σ → α → Outcome (γ × σ) ε) : Prop :=
  ∀ g g' s a, (step g s a).forget = (step g' s a).forget

/-- A family of states and one store for all of them, stepping one at a time. -/
def interleaveShared (step : γ → σ → α → Outcome (γ × σ) ε) :
    γ → (ι → σ) → List (ι × α) → Outcome (γ × (ι → σ)) (ι × ε)
  | g, s, [] => .ended (g, s) []
  | g, s, (i, a) :: events =>
    match step g (s i) a with
    | .ended (g', s') out =>
      (interleaveShared step g' (Function.update s i s') events).after (out.map fun e => (i, e))
    | .faulted => .faulted
    | .unfinished => .unfinished

/-- **A store that does not show.** The members run as if each step found the
store `g₀`. -/
theorem interleaveShared_forget {step : γ → σ → α → Outcome (γ × σ) ε} (hblind : Blind step)
    (g₀ g : γ) (s : ι → σ) (events : List (ι × α)) :
    (interleaveShared step g s events).forget =
      interleave (fun s a => (step g₀ s a).forget) s events := by
  induction events generalizing g s with
  | nil => rfl
  | cons event events ih =>
    obtain ⟨i, a⟩ := event
    -- the store that this step leaves is arbitrary again
    rw [interleaveShared, interleave, hblind g₀ g (s i) a]
    cases step g (s i) a with
    | ended p out =>
      obtain ⟨g', s'⟩ := p
      simp only [Outcome.forget_ended, Outcome.forget_after, ih]
    | faulted => rfl
    | unfinished => rfl

end LibuvServer.Lib
