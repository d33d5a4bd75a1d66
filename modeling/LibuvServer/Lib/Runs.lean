import Mathlib.Data.List.Basic
import Mathlib.Tactic.Common

/-!
# Runs

A system that takes events one at a time and puts something out at each; an
event that cannot happen now has no step. A run carries the state together
with all its output, so that what is said about a step can look back. Lists
to which entries are added, and in which they are replaced, are here as well.
-/

namespace LibuvServer.Lib

variable {σ ε ω : Type} {step : σ → ε → Option (σ × List ω)} {c c' : σ × List ω}
  {events : List ε}

/-- Two computations that may stop, one after the other. -/
theorem bind_eq_ok {κ α β : Type} {x : Except κ α} {f : α → Except κ β} {b : β} :
    (x >>= f) = .ok b ↔ ∃ a, x = .ok a ∧ f a = .ok b := by
  cases x with
  | ok a =>
    constructor
    · intro h
      exact ⟨a, rfl, h⟩
    · rintro ⟨a', ha, h⟩
      cases ha
      exact h
  | error k =>
    constructor
    · intro h
      cases h
    · rintro ⟨a', ha, -⟩
      cases ha

/-- The first that stops is the one that counts. -/
theorem bind_eq_error {κ α β : Type} {x : Except κ α} {f : α → Except κ β} {k : κ} :
    (x >>= f) = .error k ↔ x = .error k ∨ ∃ a, x = .ok a ∧ f a = .error k := by
  cases x with
  | ok a =>
    constructor
    · intro h
      exact .inr ⟨a, rfl, h⟩
    · rintro (h | ⟨a', ha, h⟩)
      · cases h
      · cases ha
        exact h
  | error k' =>
    constructor
    · intro h
      cases h
      exact .inl rfl
    · rintro (h | ⟨a', ha, -⟩)
      · cases h
        rfl
      · cases ha

/-- One step, with its output added to the earlier ones. -/
def record (step : σ → ε → Option (σ × List ω)) (c : σ × List ω) (e : ε) :
    Option (σ × List ω) :=
  (step c.1 e).map fun r => (r.1, c.2 ++ r.2)

def run (step : σ → ε → Option (σ × List ω)) (c : σ × List ω) : List ε → Option (σ × List ω)
  | [] => some c
  | e :: events => (record step c e).bind fun c' => run step c' events

/-- Every step of the run meets `P`. -/
def Along (step : σ → ε → Option (σ × List ω)) (P : σ × List ω → ε → Prop)
    (c : σ × List ω) : List ε → Prop
  | [] => True
  | e :: events => P c e ∧ ∀ c' ∈ record step c e, Along step P c' events

instance Along.decidable (step : σ → ε → Option (σ × List ω)) (P : σ × List ω → ε → Prop)
    [∀ c e, Decidable (P c e)] (c : σ × List ω) :
    (events : List ε) → Decidable (Along step P c events)
  | [] => .isTrue trivial
  | e :: events =>
    have (c' : σ × List ω) : Decidable (Along step P c' events) := Along.decidable step P c' events
    inferInstanceAs (Decidable (P c e ∧ ∀ c' ∈ record step c e, Along step P c' events))

theorem record_eq_some {e : ε} :
    record step c e = some c' ↔ ∃ s out, step c.1 e = some (s, out) ∧ c' = (s, c.2 ++ out) := by
  unfold record
  rw [Option.map_eq_some_iff]
  constructor
  · rintro ⟨⟨s, out⟩, hstep, rfl⟩
    exact ⟨s, out, hstep, rfl⟩
  · rintro ⟨s, out, hstep, rfl⟩
    exact ⟨(s, out), hstep, rfl⟩

theorem Along.cons {P : σ × List ω → ε → Prop} {e : ε} {s : σ} {out : List ω} (h : P c e)
    (hstep : step c.1 e = some (s, out)) (hrest : Along step P (s, c.2 ++ out) events) :
    Along step P c (e :: events) := by
  refine ⟨h, fun c' hc' => ?_⟩
  obtain ⟨s', out', hstep', rfl⟩ := record_eq_some.mp hc'
  rw [hstep, Option.some.injEq, Prod.mk.injEq] at hstep'
  rw [← hstep'.1, ← hstep'.2]
  exact hrest

/-- What was put out stays, and a run puts more behind it. -/
theorem run_extends (hrun : run step c events = some c') : ∃ more, c'.2 = c.2 ++ more := by
  induction events generalizing c with
  | nil =>
    rw [run, Option.some.injEq] at hrun
    exact ⟨[], by rw [hrun, List.append_nil]⟩
  | cons e events ih =>
    obtain ⟨c₁, hfirst, hrest⟩ := Option.bind_eq_some_iff.mp hrun
    obtain ⟨s, out, -, rfl⟩ := record_eq_some.mp hfirst
    obtain ⟨more, hmore⟩ := ih hrest
    exact ⟨out ++ more, by rw [hmore, List.append_assoc]⟩

/-- The first step of a run, and the rest of it. -/
theorem run_cons {e : ε} {s : σ} {out : List ω} (hstep : step c.1 e = some (s, out)) :
    run step c (e :: events) = run step (s, c.2 ++ out) events := by
  rw [run, record, hstep]
  rfl

/-- A run goes on where another has ended. -/
theorem run_concat (hrun : run step c events = some c') (more : List ε) :
    run step c (events ++ more) = run step c' more := by
  induction events generalizing c with
  | nil =>
    rw [run, Option.some.injEq] at hrun
    rw [hrun, List.nil_append]
  | cons e events ih =>
    obtain ⟨c₁, hfirst, hrest⟩ := Option.bind_eq_some_iff.mp hrun
    rw [List.cons_append, run, hfirst, Option.bind_some, ih hrest]

/-- What stands before a run stays in front of what it puts out. -/
theorem run_append (s : σ) (pre out : List ω) (events : List ε) :
    run step (s, pre ++ out) events =
      (run step (s, out) events).map fun r => (r.1, pre ++ r.2) := by
  induction events generalizing s out with
  | nil => rfl
  | cons e events ih =>
    unfold run record
    cases step s e with
    | none => rfl
    | some r =>
      show run step (r.1, pre ++ out ++ r.2) events = _
      rw [List.append_assoc]
      exact ih r.1 (out ++ r.2)

section Entries

variable {α : Type} {l : List α} {a b : α} {i j : Nat}

/-- The entries of a list that got one more. -/
theorem getElem?_snoc (h : (l ++ [a])[i]? = some b) : l[i]? = some b ∨ i = l.length ∧ b = a := by
  by_cases hi : i < l.length
  · rw [List.getElem?_append_left hi] at h
    exact .inl h
  · rw [List.getElem?_append_right (Nat.not_lt.mp hi)] at h
    obtain ⟨hlt, heq⟩ := List.getElem?_eq_some_iff.mp h
    rw [List.length_singleton] at hlt
    refine .inr ⟨by omega, ?_⟩
    rw [← heq, List.getElem_singleton]

theorem getElem?_of_snoc (h : l[i]? = some b) : (l ++ [a])[i]? = some b := by
  rw [List.getElem?_append_left (List.getElem?_eq_some_iff.mp h).1, h]

/-- The entries of a list in which one was replaced. -/
theorem getElem?_set_cases (h : (l.set i a)[j]? = some b) :
    j = i ∧ b = a ∨ j ≠ i ∧ l[j]? = some b := by
  by_cases hj : j = i
  · rw [hj] at h
    have hi := (List.getElem?_eq_some_iff.mp h).1
    rw [List.length_set] at hi
    rw [List.getElem?_set_self hi, Option.some.injEq] at h
    exact .inl ⟨hj, h.symm⟩
  · rw [List.getElem?_set_ne (Ne.symm hj)] at h
    exact .inr ⟨hj, h⟩

/-- What was found in the list is found after the replacement, if the new
entry will do for the old one. -/
theorem exists_mem_set {p : α → Prop} (hget : l[i]? = some a) (hnew : p a → p b)
    (h : ∃ x ∈ l, p x) : ∃ x ∈ l.set i b, p x := by
  obtain ⟨x, hx, hp⟩ := h
  obtain ⟨j, hj⟩ := List.mem_iff_getElem?.mp hx
  by_cases hij : i = j
  · rw [← hij, hget, Option.some.injEq] at hj
    refine ⟨b, List.mem_iff_getElem?.mpr ⟨i, ?_⟩, hnew (hj ▸ hp)⟩
    exact List.getElem?_set_self (List.getElem?_eq_some_iff.mp hget).1
  · refine ⟨x, List.mem_iff_getElem?.mpr ⟨j, ?_⟩, hp⟩
    rw [List.getElem?_set_ne hij, hj]

end Entries

section Traces

/-- Every entry is right after the entries before it. -/
def Justified (ok : List ω → ω → Prop) (trace : List ω) : Prop :=
  ∀ pre e post, trace = pre ++ e :: post → ok pre e

theorem justified_nil {ok : List ω → ω → Prop} : Justified ok [] := by
  intro pre e post heq
  simp at heq

/-- What is added to a trace is judged entry by entry when only the trace it
is added to counts. -/
theorem justified_append {ok : List ω → ω → Prop} {P : ω → Prop} {trace more : List ω}
    (h : ∀ pre e post, more = pre ++ e :: post → (ok (trace ++ pre) e ↔ P e)) :
    Justified ok (trace ++ more) ↔ Justified ok trace ∧ ∀ e ∈ more, P e := by
  constructor
  · intro hall
    refine ⟨fun pre e post heq => hall pre e (post ++ more) (by simp [heq]), fun e he => ?_⟩
    obtain ⟨pre, post, rfl⟩ := List.append_of_mem he
    exact (h pre e post rfl).mp (hall (trace ++ pre) e post (by simp))
  · rintro ⟨hold, hnew⟩ pre e post heq
    rcases List.append_eq_append_iff.mp heq with ⟨mid, rfl, hmore⟩ | ⟨mid, rfl, hpost⟩
    · exact (h mid e post hmore).mpr (hnew e (by simp [hmore]))
    · cases mid with
      | nil =>
        rw [List.nil_append] at hpost
        have hfirst := (h [] e post hpost.symm).mpr (hnew e (by rw [← hpost]; exact .head _))
        rwa [List.append_nil, List.append_nil] at hfirst
      | cons x mid =>
        obtain ⟨rfl, -⟩ := List.cons.inj hpost
        exact hold pre e mid rfl

end Traces

section Invariant

variable {P Q : σ × List ω → ε → Prop} {I : σ × List ω → Prop}

/-- **What every step keeps holds at the end of a run.** -/
theorem run_invariant
    (hstep : ∀ c e c', I c → P c e → record step c e = some c' → I c')
    (h : I c) (halong : Along step P c events) (hrun : run step c events = some c') : I c' := by
  -- on the events that are left, from any state that keeps the invariant
  induction events generalizing c with
  | nil =>
    rw [run, Option.some.injEq] at hrun
    rw [← hrun]
    exact h
  | cons e events ih =>
    obtain ⟨c₁, hfirst, hrest⟩ := Option.bind_eq_some_iff.mp hrun
    exact ih (hstep c e c₁ h halong.1 hfirst) (halong.2 c₁ hfirst) hrest

/-- What the invariant gives at a step holds at every step of a run. -/
theorem Along.of_invariant
    (hstep : ∀ c e c', I c → P c e → record step c e = some c' → I c')
    (hgood : ∀ c e, I c → P c e → Q c e) (h : I c) (halong : Along step P c events) :
    Along step Q c events := by
  induction events generalizing c with
  | nil => trivial
  | cons e events ih =>
    refine ⟨hgood c e h halong.1, fun c₁ hfirst => ?_⟩
    exact ih (hstep c e c₁ h halong.1 hfirst) (halong.2 c₁ hfirst)

/-- **What a run comes to is decided step by step** when every step that does
not meet `P` spoils `R`, and no other does. -/
theorem run_iff_along {R : σ × List ω → Prop}
    (hstep : ∀ c e c', I c → record step c e = some c' → I c' ∧ (R c' ↔ R c ∧ P c e))
    (h : I c) (hrun : run step c events = some c') : R c' ↔ R c ∧ Along step P c events := by
  induction events generalizing c with
  | nil =>
    rw [run, Option.some.injEq] at hrun
    rw [← hrun, Along, and_true]
  | cons e events ih =>
    obtain ⟨c₁, hfirst, hrest⟩ := Option.bind_eq_some_iff.mp hrun
    obtain ⟨h₁, hiff⟩ := hstep c e c₁ h hfirst
    rw [ih h₁ hrest, hiff, Along, hfirst, and_assoc]
    simp only [Option.mem_def, Option.some.injEq, forall_eq']

/-- What holds at every step holds at the step after any part of the run. -/
theorem Along.next {e : ε} {rest : List ε} (halong : Along step P c (events ++ e :: rest))
    (hrun : run step c events = some c') : P c' e := by
  induction events generalizing c with
  | nil =>
    rw [run, Option.some.injEq] at hrun
    rw [← hrun]
    exact halong.1
  | cons e' events ih =>
    obtain ⟨c₁, hfirst, hrest⟩ := Option.bind_eq_some_iff.mp hrun
    exact ih (halong.2 c₁ hfirst) hrest

theorem along_and {P Q : σ × List ω → ε → Prop} :
    Along step (fun c e => P c e ∧ Q c e) c events ↔
      Along step P c events ∧ Along step Q c events := by
  induction events generalizing c with
  | nil => exact iff_of_true trivial ⟨trivial, trivial⟩
  | cons e events ih =>
    unfold Along
    simp only [ih, imp_and, forall_and]
    rw [and_and_and_comm]

theorem along_true (c : σ × List ω) (events : List ε) :
    Along step (fun _ _ => True) c events := by
  induction events generalizing c with
  | nil => trivial
  | cons e events ih => exact ⟨trivial, fun c₁ _ => ih c₁⟩

end Invariant

end LibuvServer.Lib
