import Mathlib.Tactic.Common

/-!
# Loops with break

A loop body makes one pass over a state: it leaves the loop, asks for
another pass, or touches memory it does not own. Each pass may also emit
calls to the outside. `iterate` runs the body under a bound on the number
of passes; a run that needs more is `unfinished`, never an answer.
-/

namespace LibuvServer.Lib

/-- What one pass of a loop body does. -/
inductive Pass (σ ε : Type*) where
  | exit (s : σ) (out : List ε)
  | again (s : σ) (out : List ε)
  | fault

/-- How a bounded run of a loop ended. -/
inductive Outcome (σ ε : Type*) where
  | ended (s : σ) (out : List ε)
  | faulted
  | unfinished

variable {σ ε : Type*}

/-- The outcome with the calls of the passes before it put in front. -/
def Outcome.after (out : List ε) : Outcome σ ε → Outcome σ ε
  | .ended s out' => .ended s (out ++ out')
  | .faulted => .faulted
  | .unfinished => .unfinished

/-- Go on from where a finished run ended. -/
def Outcome.andThen (r : Outcome σ ε) (next : σ → Outcome σ ε) : Outcome σ ε :=
  match r with
  | .ended s out => (next s).after out
  | .faulted => .faulted
  | .unfinished => .unfinished

/-- Run `body` for at most `n` passes. -/
def iterate (body : σ → Pass σ ε) : Nat → σ → Outcome σ ε
  | 0, _ => .unfinished
  | n + 1, s =>
      match body s with
      | .exit s' out => .ended s' out
      | .again s' out => (iterate body n s').after out
      | .fault => .faulted

variable {body : σ → Pass σ ε} {s s' : σ} {out out' : List ε} {n : Nat}

theorem iterate_exit (h : body s = .exit s' out) :
    iterate body (n + 1) s = .ended s' out := by
  simp [iterate, h]

theorem iterate_again (h : body s = .again s' out) :
    iterate body (n + 1) s = (iterate body n s').after out := by
  simp [iterate, h]

theorem iterate_fault (h : body s = .fault) :
    iterate body (n + 1) s = .faulted := by
  simp [iterate, h]

@[simp] theorem Outcome.after_ended :
    (Outcome.ended s out').after out = .ended s (out ++ out') := rfl

@[simp] theorem Outcome.ended_andThen (next : σ → Outcome σ ε) :
    (Outcome.ended s out).andThen next = (next s).after out := rfl

theorem Outcome.after_eq_ended {r : Outcome σ ε} (h : r.after out = .ended s out') :
    ∃ out₂, r = .ended s out₂ ∧ out' = out ++ out₂ := by
  cases r with
  | ended s₂ out₂ =>
    cases h
    exact ⟨out₂, rfl, rfl⟩
  | faulted => cases h
  | unfinished => cases h

theorem Outcome.after_eq_faulted {r : Outcome σ ε} (h : r.after out = .faulted) :
    r = .faulted := by
  cases r with
  | ended s₂ out₂ => cases h
  | faulted => rfl
  | unfinished => cases h

/-- **Invariant rule.** What every further pass keeps and every exit turns
into `Q` holds as `Q` where the loop ends. -/
theorem iterate_invariant {P Q : σ → Prop}
    (hagain : ∀ s s' out, P s → body s = .again s' out → P s')
    (hexit : ∀ s s' out, P s → body s = .exit s' out → Q s')
    (hs : P s) (hrun : iterate body n s = .ended s' out) : Q s' := by
  -- on the passes that are left; `P` is what one pass hands to the next
  induction n generalizing s out with
  | zero => cases hrun
  | succ n ih =>
    cases hb : body s with
    | exit t o =>
      rw [iterate_exit hb] at hrun
      cases hrun
      exact hexit s s' out hs hb
    | again t o =>
      rw [iterate_again hb] at hrun
      obtain ⟨o₂, hrun, -⟩ := Outcome.after_eq_ended hrun
      exact ih (hagain s t o hs hb) hrun
    | fault =>
      rw [iterate_fault hb] at hrun
      cases hrun

/-- The same rule for the absence of faults. -/
theorem iterate_no_fault {P : σ → Prop}
    (hagain : ∀ s s' out, P s → body s = .again s' out → P s')
    (hfault : ∀ s, P s → body s ≠ .fault)
    (hs : P s) : iterate body n s ≠ .faulted := by
  induction n generalizing s with
  | zero => simp [iterate]
  | succ n ih =>
    cases hb : body s with
    | exit t o => simp [iterate_exit hb]
    | again t o =>
      rw [iterate_again hb]
      intro h
      exact ih (hagain s t o hs hb) (Outcome.after_eq_faulted h)
    | fault => exact absurd hb (hfault s hs)

/-- The same rule for what is emitted on the way. -/
theorem iterate_emits {P : σ → Prop} {R : ε → Prop}
    (hagain : ∀ s s' out, P s → body s = .again s' out → P s' ∧ ∀ e ∈ out, R e)
    (hexit : ∀ s s' out, P s → body s = .exit s' out → P s' ∧ ∀ e ∈ out, R e)
    (hs : P s) (hrun : iterate body n s = .ended s' out) : P s' ∧ ∀ e ∈ out, R e := by
  induction n generalizing s out with
  | zero => cases hrun
  | succ n ih =>
    cases hb : body s with
    | exit t o =>
      rw [iterate_exit hb] at hrun
      cases hrun
      exact hexit s s' out hs hb
    | again t o =>
      rw [iterate_again hb] at hrun
      obtain ⟨o₂, hrest, rfl⟩ := Outcome.after_eq_ended hrun
      obtain ⟨ht, ho⟩ := hagain s t o hs hb
      obtain ⟨hs', ho₂⟩ := ih ht hrest
      refine ⟨hs', fun e he => ?_⟩
      rcases List.mem_append.mp he with h | h
      · exact ho e h
      · exact ho₂ e h
    | fault =>
      rw [iterate_fault hb] at hrun
      cases hrun

/-! ## Termination -/

/-- The states at which a pass begins when the loop is started in `s`. -/
inductive Passes (body : σ → Pass σ ε) (s : σ) : σ → Prop where
  | start : Passes body s s
  | again {t t' : σ} {out : List ε} :
      Passes body s t → body t = .again t' out → Passes body s t'

/-- `P` at the beginning of every pass. -/
def Throughout (body : σ → Pass σ ε) (P : σ → Prop) (s : σ) : Prop :=
  ∀ t, Passes body s t → P t

/-- The loop is left after finitely many passes. -/
def Ends (body : σ → Pass σ ε) (s : σ) : Prop :=
  ∃ n s' out, iterate body n s = .ended s' out

/-- A pass that asks for another one lowers `m`, by no more than there is. -/
def Lowers (body : σ → Pass σ ε) (m : σ → Nat) (s : σ) : Prop :=
  ∀ s' out, body s = .again s' out → ∃ k, 1 ≤ k ∧ k ≤ m s ∧ m s' = m s - k

variable {P : σ → Prop} {t : σ}

theorem Passes.trans (h : Passes body s s') (h' : Passes body s' t) : Passes body s t := by
  induction h' with
  | start => exact h
  | again _ hb ih => exact .again ih hb

theorem throughout_again (hb : body s = .again s' out) :
    Throughout body P s ↔ P s ∧ Throughout body P s' := by
  constructor
  · intro h
    refine ⟨h s .start, fun t ht => h t ?_⟩
    exact (Passes.again .start hb).trans ht
  · rintro ⟨hs, hs'⟩ t ht
    -- the passes after the first are those of a loop started in `s'`
    have hlater : t = s ∨ Passes body s' t := by
      induction ht with
      | start => exact .inl rfl
      | again _ hb' ih =>
        right
        rcases ih with rfl | hp
        · rw [hb] at hb'
          cases hb'
          exact .start
        · exact .again hp hb'
    rcases hlater with rfl | hp
    · exact hs
    · exact hs' t hp

theorem throughout_of_no_again (hb : ∀ s' out, body s ≠ .again s' out) :
    Throughout body P s ↔ P s := by
  refine ⟨fun h => h s .start, fun hs t ht => ?_⟩
  have hsame : t = s := by
    induction ht with
    | start => rfl
    | again _ hb' ih =>
      rw [ih] at hb'
      exact absurd hb' (hb _ _)
  rw [hsame]
  exact hs

/-- What every further pass keeps holds throughout. -/
theorem throughout_of_invariant (hagain : ∀ s s' out, P s → body s = .again s' out → P s')
    (hs : P s) : Throughout body P s := by
  intro t ht
  induction ht with
  | start => exact hs
  | again _ hb ih => exact hagain _ _ _ ih hb

/-- What a pass keeps where `P` holds, holds throughout if `P` does. -/
theorem Throughout.invariant {Q : σ → Prop} (h : Throughout body P s)
    (hagain : ∀ t t' out, P t → Q t → body t = .again t' out → Q t') (hs : Q s) :
    Throughout body Q s := by
  intro t ht
  induction ht with
  | start => exact hs
  | again hp hb ih => exact hagain _ _ _ (h _ hp) ih hb

/-- **Variant rule.** A loop that never faults and lowers `m` in every pass
but the last comes to an end. -/
theorem ends_of_lowers {m : σ → Nat} (hfault : Throughout body (fun t => body t ≠ .fault) s)
    (hlow : Throughout body (Lowers body m) s) : Ends body s := by
  induction hm : m s using Nat.strongRecOn generalizing s with
  | ind n ih =>
    cases hb : body s with
    | exit t out => exact ⟨1, t, out, iterate_exit hb⟩
    | fault => exact absurd hb (hfault s .start)
    | again t out =>
      obtain ⟨k, hk, hle, hmt⟩ := hlow s .start t out hb
      obtain ⟨n', t', out', hrun⟩ := ih (m t) (by omega) ((throughout_again hb).mp hfault).2
        ((throughout_again hb).mp hlow).2 rfl
      exact ⟨n' + 1, t', out ++ out', by rw [iterate_again hb, hrun, Outcome.after_ended]⟩

/-- A pass that asks for another one in the very same state never ends. -/
theorem not_ends_of_same (hb : body s = .again s out) : ¬ Ends body s := by
  rintro ⟨n, s', out', hrun⟩
  induction n generalizing out' with
  | zero => cases hrun
  | succ n ih =>
    rw [iterate_again hb] at hrun
    obtain ⟨out₂, hrest, -⟩ := Outcome.after_eq_ended hrun
    exact ih out₂ hrest

end LibuvServer.Lib
