import LibuvServer.Mylua.TimerCancels
import Mathlib.Data.List.Count
import Mathlib.Tactic.Common

/-!
# The two repeat counts

A timer and its `scheduleInfo` both count what is left to repeat, and each
frees its own block by its own test. Both are held against one count here.
It is kept by every event that does not cancel the timer, whatever else is
scheduled, ticks or is cancelled meanwhile.
-/

namespace LibuvServer.Mylua

open LibuvServer.Lib LibuvServer.Utils

namespace TimerEvent

def ticks (i : Nat) : TimerEvent → Bool
  | .lua _ => false
  | .tick t _ => t = i

/-- The event cancels timer `i`. -/
def Cancels (i : Nat) : TimerEvent → Prop
  | .lua a => a = .cancel i
  | .tick _ acts => .cancel i ∈ acts

end TimerEvent

namespace Timers

variable {w w' w₁ w₂ : Timers} {log out more : List Effect} {i h t : Nat} {tm : Timer}
  {tr : ScheduleInfo} {a : Act} {acts : List Act} {n : Int} {k : Nat}

/-! ## What is wanted -/

/-- A call that is accepted, with the count it asks for. -/
def Accepted : Act → Int → Prop
  | .scheduleRepeat isFunction afterMsec repeatCount _ _, n =>
    isFunction = true ∧ toInt afterMsec ≠ 0 ∧ toInt repeatCount = n ∧ n ≠ 0
  | .scheduleOnce isFunction afterMsec _, n => isFunction = true ∧ 0 < toInt afterMsec ∧ n = 1
  | .cancel _, _ => False

/-- Both blocks of timer `i` are there with its function, and it can tick. -/
structure Held (w : Timers) (i h : Nat) : Prop where
  timer : ∃ tm, w.timers i = some tm ∧ tm.active = true
  info : (w.infos i).isSome
  function : w.functions h = true

/-- All three are gone. -/
structure Released (w : Timers) (i h : Nat) : Prop where
  timer : w.timers i = none
  info : w.infos i = none
  function : w.functions h = false

/-- What has to hold after `k` ticks of timer `i` with count `n`. -/
structure Agree (c₁ c : Timers × List Effect) (i h : Nat) (n : Int) (k : Nat) : Prop where
  calls : c.2.count (.called h) = c₁.2.count (.called h) + k
  positive : 0 < n → k ≤ n ∧ (k < n → Held c.1 i h) ∧ (k = n → Released c.1 i h)
  negative : n < 0 → Held c.1 i h

/-- **The two counts agree** on timer `i`, which `c₁` has just scheduled: it
can tick as often as its count says, and whatever happens short of a cancel,
both blocks and the function are given up on the last tick and not before. -/
def Agrees (c₁ : Timers × List Effect) (i h : Nat) (n : Int) : Prop :=
  (∀ k : Nat, (0 < n → k ≤ n) →
    ∃ c, run step c₁ (List.replicate k (.tick i [])) = some c ∧ c.1.broken = false) ∧
  ∀ events c, run step c₁ events = some c → c.1.broken = false →
    (∀ e ∈ events, ¬ e.Cancels i) → Agree c₁ c i h n (events.countP (TimerEvent.ticks i))

/-! ## Whose function it is -/

/-- `w'` has no functions but those of `w` and new ones. -/
def Handles (w w' : Timers) : Prop :=
  w.s_function_ref_id ≤ w'.s_function_ref_id ∧ ∀ j tr', w'.infos j = some tr' →
    w.s_function_ref_id < tr'.handle ∨ ∃ tr, w.infos j = some tr ∧ tr.handle = tr'.handle

theorem Handles.refl (w : Timers) : Handles w w :=
  ⟨Nat.le_refl _, fun _ tr h => .inr ⟨tr, h, rfl⟩⟩

theorem Handles.trans (h : Handles w w₁) (h' : Handles w₁ w₂) : Handles w w₂ := by
  refine ⟨Nat.le_trans h.1 h'.1, fun j tr₂ hj => ?_⟩
  rcases h'.2 j tr₂ hj with hlt | ⟨tr₁, hj₁, heq⟩
  · exact .inl (Nat.lt_of_le_of_lt h.1 hlt)
  · rw [← heq]
    exact h.2 j tr₁ hj₁

/-- One block is freed or changed, with the function it had. -/
theorem Handles.update {info : Option ScheduleInfo}
    (hle : w.s_function_ref_id ≤ w'.s_function_ref_id)
    (hinfos : w'.infos = Function.update w.infos t info)
    (hinfo : ∀ tr', info = some tr' →
      w.s_function_ref_id < tr'.handle ∨ ∃ tr, w.infos t = some tr ∧ tr.handle = tr'.handle) :
    Handles w w' := by
  refine ⟨hle, fun j tr' hj => ?_⟩
  rw [hinfos, Function.update_apply] at hj
  split at hj
  · rename_i hjt
    rw [hjt]
    exact hinfo tr' hj
  · exact .inr ⟨tr', hj, rfl⟩

/-- A call that only asks the timers for something calls no function. -/
def Silent (out : List Effect) : Prop := ∀ h, out.count (.called h) = 0

theorem releaseInfo_handles (hrun : w.releaseInfo t tr = .ok (w', out)) :
    Handles w w' ∧ Silent out := by
  obtain ⟨w₁, hfree, heq⟩ := bind_eq_ok.mp hrun
  cases heq
  unfold smallCacheFree at hfree
  split at hfree
  · cases hfree
  · split at hfree
    · cases hfree
    · cases hfree
      refine ⟨.update (Nat.le_refl _) rfl fun _ hnone => ?_, fun h => rfl⟩
      cases hnone

theorem cancelTimer_handles (hrun : w.cancelTimer t = .ok (w', out)) :
    Handles w w' ∧ Silent out := by
  unfold cancelTimer at hrun
  split at hrun
  · cases hrun
  · split at hrun
    · cases hrun
      exact ⟨.refl w, fun h => rfl⟩
    · cases hrun
      exact ⟨.refl w, fun h => rfl⟩

theorem scheduleRepeat_handles {repeatmsec : Int} {heap : Nat}
    (hrun : w.refFunction.scheduleRepeat w.refFunction.s_function_ref_id n repeatmsec heap =
      .ok (w', out)) :
    Handles w w' ∧ w'.s_function_ref_id = w.s_function_ref_id + 1 ∧ Silent out := by
  unfold Timers.scheduleRepeat at hrun
  split at hrun
  · cases hrun
  · cases hrun
    refine ⟨.update (Nat.le_succ _) rfl fun tr' heq => ?_, rfl, fun h => rfl⟩
    cases heq
    exact .inl (Nat.lt_succ_self _)

theorem act_handles (hact : w.act a = .ok (w', out)) : Handles w w' ∧ Silent out := by
  have hrefused : Handles w (w.refFunction.removeLuaFunc w.refFunction.s_function_ref_id) ∧
      Silent [.removed w.refFunction.s_function_ref_id] :=
    ⟨⟨Nat.le_succ _, fun _ tr' hj => .inr ⟨tr', hj, rfl⟩⟩, fun h => rfl⟩
  cases a with
  | scheduleRepeat isFunction afterMsec repeatCount repeatMsec heap =>
    simp only [Timers.act, luaScheduleRepeat] at hact
    split at hact
    · split at hact
      · exact ⟨(scheduleRepeat_handles hact).1, (scheduleRepeat_handles hact).2.2⟩
      · cases hact
        exact hrefused
    · cases hact
      exact ⟨.refl w, fun h => rfl⟩
  | scheduleOnce isFunction afterMsec heap =>
    simp only [Timers.act, luaScheduleOnce] at hact
    split at hact
    · split at hact
      · exact ⟨(scheduleRepeat_handles hact).1, (scheduleRepeat_handles hact).2.2⟩
      · cases hact
        exact hrefused
    · cases hact
      exact ⟨.refl w, fun h => rfl⟩
  | cancel t =>
    simp only [Timers.act, luaCancelTimer] at hact
    split at hact
    · cases hact
    · split at hact
      · cases hact
      · obtain ⟨⟨w₁, out₁⟩, hrelease, hrest⟩ := bind_eq_ok.mp hact
        obtain ⟨⟨w₂, out₂⟩, hcancel, heq⟩ := bind_eq_ok.mp hrest
        cases heq
        obtain ⟨hhandles, hsilent⟩ := releaseInfo_handles hrelease
        obtain ⟨hhandles', hsilent'⟩ := cancelTimer_handles hcancel
        refine ⟨hhandles.trans hhandles', fun h => ?_⟩
        rw [List.count_append, hsilent h, hsilent' h]

theorem actAll_handles (hacts : w.actAll acts = .ok (w', out)) : Handles w w' ∧ Silent out := by
  induction acts generalizing w out with
  | nil =>
    cases hacts
    exact ⟨.refl _, fun h => rfl⟩
  | cons a acts ih =>
    obtain ⟨⟨w₁, out₁⟩, hact, hrest⟩ := bind_eq_ok.mp hacts
    obtain ⟨⟨w₂, out₂⟩, hmore, heq⟩ := bind_eq_ok.mp hrest
    cases heq
    obtain ⟨hhandles, hsilent⟩ := act_handles hact
    obtain ⟨hhandles', hsilent'⟩ := ih hmore
    refine ⟨hhandles.trans hhandles', fun h => ?_⟩
    rw [List.count_append, hsilent h, hsilent' h]

theorem luaSchedulerEnd_handles (hrun : w.luaSchedulerEnd t = .ok (w', out)) :
    Handles w w' ∧ Silent out := by
  unfold Timers.luaSchedulerEnd at hrun
  split at hrun
  · cases hrun
  · rename_i tr hi
    split at hrun
    · cases hrun
      exact ⟨.refl w, fun h => rfl⟩
    · simp only at hrun
      split at hrun
      · exact releaseInfo_handles hrun
      · cases hrun
        refine ⟨.update (Nat.le_refl _) rfl fun tr' heq => ?_, fun h => rfl⟩
        cases heq
        exact .inr ⟨tr, hi, rfl⟩

/-- The function of the timer is called, and no other. -/
theorem Books.luaScheduler_calls (hb : Books w log)
    (hrun : w.luaScheduler t acts = .ok (w', out)) :
    Handles w w' ∧ ∃ tr, w.infos t = some tr ∧
      ∀ h, out.count (.called h) = if tr.handle = h then 1 else 0 := by
  cases hi : w.infos t with
  | none =>
    rw [Timers.luaScheduler, hi] at hrun
    cases hrun
  | some tr =>
    simp only [Timers.luaScheduler, hi, executeLuaFunc, hb.registered t tr hi, if_true] at hrun
    obtain ⟨p, hcall, hend⟩ := bind_eq_ok.mp hrun
    obtain ⟨⟨w₁, out₁⟩, hacts, heq⟩ := bind_eq_ok.mp hcall
    cases heq
    obtain ⟨⟨w₂, out₂⟩, hleft, heq⟩ := bind_eq_ok.mp hend
    cases heq
    obtain ⟨hhandles, hsilent⟩ := actAll_handles hacts
    obtain ⟨hhandles', hsilent'⟩ := luaSchedulerEnd_handles hleft
    refine ⟨hhandles.trans hhandles', tr, rfl, fun h => ?_⟩
    rw [List.count_append, List.count_cons, hsilent h, hsilent' h]
    simp

theorem Books.tick_calls (hb : Books w log) (ht : w.timers t = some tm)
    (hrun : (w.due t tm).onUvTimer t acts = .ok (w', out)) :
    Handles w w' ∧ ∃ tr, w.infos t = some tr ∧
      ∀ h, out.count (.called h) = if tr.handle = h then 1 else 0 := by
  obtain ⟨he, -, hinfos, -⟩ := hb.entered ht
  have hentered : Handles w (w.entered t) := by
    rw [entered_eq ht]
    exact .refl w
  rw [onUvTimer_due ht (hb.uData t tm ht)] at hrun
  split at hrun
  · obtain ⟨hhandles, tr, hi, hcalls⟩ := he.luaScheduler_calls hrun
    rw [hinfos] at hi
    exact ⟨hentered.trans hhandles, tr, hi, hcalls⟩
  · obtain ⟨⟨w₂, out₂⟩, hsched, hend⟩ := bind_eq_ok.mp hrun
    obtain ⟨⟨w₃, out₃⟩, hfin, heq⟩ := bind_eq_ok.mp hend
    cases heq
    obtain ⟨hhandles, tr, hi, hcalls⟩ := he.luaScheduler_calls hsched
    rw [hinfos] at hi
    have hlast : Handles w₂ w' ∧ Silent out₃ := by
      unfold onUvTimerEnd at hfin
      split at hfin
      · cases hfin
      · split at hfin
        · cases hfin
          exact ⟨.refl _, fun h => rfl⟩
        · cases hfin
          exact ⟨.refl _, fun h => rfl⟩
    refine ⟨(hentered.trans hhandles).trans hlast.1, tr, hi, fun h => ?_⟩
    rw [List.count_append, hcalls h, hlast.2 h, Nat.add_zero]

/-- The function `h` is that of timer `i`, or of none. -/
structure Owned (w : Timers) (i h : Nat) : Prop where
  handle_le : h ≤ w.s_function_ref_id
  lt_next : i < w.next
  only : ∀ j tr, w.infos j = some tr → tr.handle = h → j = i

theorem Owned.step (ho : Owned w i h) (hhandles : Handles w w') (hnext : w.next ≤ w'.next) :
    Owned w' i h where
  handle_le := Nat.le_trans ho.handle_le hhandles.1
  lt_next := Nat.lt_of_lt_of_le ho.lt_next hnext
  only j tr' hj heq := by
    rcases hhandles.2 j tr' hj with hlt | ⟨tr, hj', heq'⟩
    · have hle := ho.handle_le
      omega
    · exact ho.only j tr hj' (heq'.trans heq)

/-! ## One count for both -/

/-- What is left of a count of `n` after `k` ticks; below zero it never ends. -/
def countdown (n : Int) (k : Nat) : Option Int :=
  if n < 0 then some n else if (k : Int) < n then some (n - k) else none

/-- Both counts of timer `i` stand at the same, or both blocks are gone. The
interval is 0 only on a timer that is to tick once. -/
def CountsAt (w : Timers) (i h : Nat) : Option Int → Prop
  | some m => ∃ repeatmsec addr, w.timers i = some ⟨i, m, repeatmsec, true⟩ ∧
    w.infos i = some ⟨h, m, addr⟩ ∧ (repeatmsec ≠ 0 ∨ m = 1)
  | none => w.timers i = none ∧ w.infos i = none

theorem CountsAt.congr {left : Option Int} (hc : CountsAt w i h left)
    (ht : w'.timers i = w.timers i) (hi : w'.infos i = w.infos i) : CountsAt w' i h left := by
  cases left with
  | none => exact ⟨ht.trans hc.1, hi.trans hc.2⟩
  | some m =>
    obtain ⟨repeatmsec, addr, ht', hi', hmsec⟩ := hc
    exact ⟨repeatmsec, addr, ht.trans ht', hi.trans hi', hmsec⟩

/-- **One tick** takes both counts down by one, and frees both blocks on the
last. -/
theorem CountsAt.tick (hc : CountsAt w i h (countdown n k)) (hn : 0 < n ∨ n = -1)
    (hlt : n < 2 ^ 31) (ht : w.timers i = some tm) (hticked : Ticked w w' i tm acts) :
    (0 < n → k < n) ∧ CountsAt w' i h (countdown n (k + 1)) := by
  obtain ⟨tr, hi, hi', -⟩ := hticked.info
  have ht' := hticked.timer
  rcases hn with hpos | rfl
  · have hnot : ¬ n < 0 := by omega
    rw [countdown, if_neg hnot] at hc
    by_cases hk : (k : Int) < n
    · rw [if_pos hk] at hc
      refine ⟨fun _ => hk, ?_⟩
      obtain ⟨repeatmsec, addr, htn, hin, hmsec⟩ := hc
      rw [ht, Option.some.injEq] at htn
      rw [hi, Option.some.injEq] at hin
      subst htn hin
      have hpred : toInt (n - k - 1) = n - k - 1 := toInt_pred (by omega) (by omega)
      rw [left, if_neg (by simp only; omega)] at hi'
      simp only [leftTimer, enteredTimer, hpred] at hi' ht'
      rw [countdown, if_neg hnot]
      by_cases hone : n - k = 1
      · rw [if_pos (by omega)] at hi'
        rw [if_pos hone] at ht'
        rw [if_neg (by omega)]
        exact ⟨ht', hi'⟩
      · rw [if_neg (by omega)] at hi'
        rw [if_neg hone, if_neg (by omega)] at ht'
        rw [if_pos (by omega)]
        have hactive : repeatmsec ≠ 0 := hmsec.resolve_right hone
        have hcount : n - ((k + 1 : Nat) : Int) = n - k - 1 := by omega
        rw [hcount]
        exact ⟨repeatmsec, addr, by rw [ht', decide_eq_true hactive], hi', .inl hactive⟩
    · rw [if_neg hk] at hc
      have hover := hc.1
      rw [ht] at hover
      cases hover
  · refine ⟨fun hpos => absurd hpos (by decide), ?_⟩
    obtain ⟨repeatmsec, addr, htn, hin, hmsec⟩ := hc
    rw [ht, Option.some.injEq] at htn
    rw [hi, Option.some.injEq] at hin
    subst htn hin
    have hactive : repeatmsec ≠ 0 := hmsec.resolve_right (by decide)
    refine ⟨repeatmsec, addr, ?_, hi', .inl hactive⟩
    rw [ht', leftTimer, if_neg (show ¬ (-1 : Int) = 1 by decide), enteredTimer,
      if_pos (show (-1 : Int) < 0 by decide)]
    simp only [hactive, ne_eq, not_false_eq_true, decide_true]

theorem CountsAt.held {m : Int} (hc : CountsAt w i h (some m)) (hb : Books w log) :
    Held w i h := by
  obtain ⟨repeatmsec, addr, ht, hi, -⟩ := hc
  exact ⟨⟨_, ht, rfl⟩, by rw [hi]; rfl, hb.registered i _ hi⟩

theorem CountsAt.released (hc : CountsAt w i h none) (hb : Books w log) (ho : Owned w i h) :
    Released w i h := by
  refine ⟨hc.1, hc.2, ?_⟩
  rw [Bool.eq_false_iff]
  intro hh
  obtain ⟨-, j, tr, hj, heq⟩ := hb.functions h hh
  rw [ho.only j tr hj heq, hc.2] at hj
  cases hj

/-! ## Runs without a cancel -/

section Runs

variable {c₁ c c' : Timers × List Effect} {e : TimerEvent} {events : List TimerEvent}

/-- What holds after `k` ticks of timer `i`. -/
structure Counted (c₁ c : Timers × List Effect) (i h : Nat) (n : Int) (k : Nat) : Prop where
  order : InOrder c.1 c.2
  owned : Owned c.1 i h
  counts : CountsAt c.1 i h (countdown n k)
  calls : c.2.count (.called h) = c₁.2.count (.called h) + k
  le : 0 < n → k ≤ n

/-- An event that was seen to its end. -/
theorem handle_of_record (hrecord : record step c e = some c') (hsound : c'.1.broken = false) :
    ∃ out, c.1.handle e = .ok (c'.1, out) ∧ c'.2 = c.2 ++ out := by
  have hsound₀ := sound_of_record hrecord
  obtain ⟨w', out, hstep, rfl⟩ := record_eq_some.mp hrecord
  rw [step, hsound₀] at hstep
  simp only [Bool.false_eq_true, if_false] at hstep
  split at hstep
  · rename_i r hrun
    cases hstep
    exact ⟨out, hrun, rfl⟩
  · cases hstep
    cases hsound
  · cases hstep

theorem sound_of_run (hrun : run step c events = some c') (hsound : c'.1.broken = false) :
    c.1.broken = false := by
  cases events with
  | nil =>
    rw [run, Option.some.injEq] at hrun
    rw [hrun]
    exact hsound
  | cons e events =>
    obtain ⟨c₂, hfirst, -⟩ := Option.bind_eq_some_iff.mp hrun
    exact sound_of_record hfirst

/-- **One event** that does not cancel the timer. -/
theorem Counted.record (hc : Counted c₁ c i h n k) (hn : 0 < n ∨ n = -1) (hlt : n < 2 ^ 31)
    (hno : ¬ e.Cancels i) (hrecord : record step c e = some c') (hsound : c'.1.broken = false) :
    Counted c₁ c' i h n (k + if e.ticks i then 1 else 0) := by
  have horder := (record_inOrder (fun _ => hc.order) hrecord).1 hsound
  obtain ⟨out, hrun, hlog⟩ := handle_of_record hrecord hsound
  have hcalls : ∀ m, out.count (.called h) = m →
      c'.2.count (.called h) = c₁.2.count (.called h) + (k + m) := by
    intro m hm
    rw [hlog, List.count_append, hm, hc.calls]
    omega
  cases e with
  | lua a =>
    obtain ⟨-, hacted⟩ := hc.order.books.act hrun
    obtain ⟨hhandles, hsilent⟩ := act_handles hrun
    obtain ⟨ht, hi⟩ := hacted.kept i hc.owned.lt_next
      (fun hmem => hno (List.mem_singleton.mp hmem).symm)
    exact ⟨horder, hc.owned.step hhandles hacted.next_le, hc.counts.congr ht hi,
      hcalls 0 (hsilent h), hc.le⟩
  | tick t acts =>
    cases ht : c.1.timers t with
    | none =>
      simp only [Timers.handle, ht] at hrun
      cases hrun
    | some tm =>
      simp only [Timers.handle, ht] at hrun
      split at hrun
      · obtain ⟨-, hticked⟩ := hc.order.books.tick ht hrun
        obtain ⟨hhandles, tr, hi, hcount⟩ := hc.order.books.tick_calls ht hrun
        have howned := hc.owned.step hhandles hticked.next_le
        by_cases hit : i = t
        · subst hit
          obtain ⟨hk, hcounts⟩ := hc.counts.tick hn hlt ht hticked
          have hhandle : tr.handle = h := by
            have hat := hc.counts
            revert hat
            cases countdown n k with
            | none =>
              intro hat
              rw [hat.1] at ht
              cases ht
            | some m =>
              rintro ⟨repeatmsec, addr, -, hi', -⟩
              rw [hi, Option.some.injEq] at hi'
              rw [hi']
          rw [TimerEvent.ticks, decide_eq_true rfl, if_pos rfl]
          exact ⟨horder, howned, hcounts, hcalls 1 (by rw [hcount, if_pos hhandle]),
            fun hpos => by have := hk hpos; omega⟩
        · have hne : tr.handle ≠ h := fun heq => hit (hc.owned.only t tr hi heq).symm
          obtain ⟨ht', hi'⟩ := hticked.kept i hit hc.owned.lt_next hno
          rw [TimerEvent.ticks, decide_eq_false (Ne.symm hit)]
          exact ⟨horder, howned, hc.counts.congr ht' hi', hcalls 0 (by rw [hcount, if_neg hne]),
            hc.le⟩
      · cases hrun

/-- **A run** without a cancel of the timer. -/
theorem Counted.run (hc : Counted c₁ c i h n k) (hn : 0 < n ∨ n = -1) (hlt : n < 2 ^ 31)
    (hno : ∀ e ∈ events, ¬ e.Cancels i) (hrun : run step c events = some c')
    (hsound : c'.1.broken = false) :
    Counted c₁ c' i h n (k + events.countP (TimerEvent.ticks i)) := by
  induction events generalizing c k with
  | nil =>
    rw [Lib.run, Option.some.injEq] at hrun
    rw [← hrun]
    exact hc
  | cons e events ih =>
    obtain ⟨c₂, hfirst, hrest⟩ := Option.bind_eq_some_iff.mp hrun
    have hc₂ := hc.record hn hlt (hno e (.head _)) hfirst (sound_of_run hrest hsound)
    have hrun' := ih hc₂ (fun e' he' => hno e' (.tail _ he')) hrest
    rw [List.countP_cons, Nat.add_comm (List.countP _ _), ← Nat.add_assoc]
    exact hrun'

theorem Counted.agree (hc : Counted c₁ c i h n k) : Agree c₁ c i h n k where
  calls := hc.calls
  positive hpos := by
    have hcounts := hc.counts
    rw [countdown, if_neg (by omega)] at hcounts
    refine ⟨hc.le hpos, fun hlt => ?_, fun heq => ?_⟩
    · rw [if_pos hlt] at hcounts
      exact hcounts.held hc.order.books
    · rw [if_neg (by omega)] at hcounts
      exact hcounts.released hc.order.books hc.owned
  negative hneg := by
    have hcounts := hc.counts
    rw [countdown, if_pos hneg] at hcounts
    exact hcounts.held hc.order.books

/-! ## Ticks that are possible -/

theorem releaseInfo_stop {κ : Stop} (hrun : w.releaseInfo t tr = .error κ) : κ = .freed := by
  rcases bind_eq_error.mp hrun with hfree | ⟨w₁, -, heq⟩
  · unfold smallCacheFree at hfree
    split at hfree
    · cases hfree
      rfl
    · split at hfree
      · cases hfree
        rfl
      · cases hfree
  · cases heq

/-- A function that asks for nothing is no reason to stop. -/
theorem luaScheduler_stop {κ : Stop} (hrun : w.luaScheduler t [] = .error κ) : κ = .freed := by
  unfold Timers.luaScheduler at hrun
  split at hrun
  · cases hrun
    rfl
  · rcases bind_eq_error.mp hrun with hcall | ⟨⟨w₁, out₁⟩, -, hend⟩
    · unfold executeLuaFunc at hcall
      split at hcall <;> cases hcall
    · rcases bind_eq_error.mp hend with hleft | ⟨p, -, heq⟩
      · unfold Timers.luaSchedulerEnd at hleft
        split at hleft
        · cases hleft
          rfl
        · split at hleft
          · cases hleft
          · simp only at hleft
            split at hleft
            · exact releaseInfo_stop hleft
            · cases hleft
      · cases heq

theorem onUvTimer_stop {κ : Stop} (hrun : w.onUvTimer t [] = .error κ) : κ = .freed := by
  unfold onUvTimer at hrun
  split at hrun
  · cases hrun
    rfl
  · split at hrun
    · exact luaScheduler_stop hrun
    · rcases bind_eq_error.mp hrun with hsched | ⟨⟨w₁, out₁⟩, -, hend⟩
      · exact luaScheduler_stop hsched
      · rcases bind_eq_error.mp hend with hfin | ⟨p, -, heq⟩
        · unfold onUvTimerEnd at hfin
          split at hfin
          · cases hfin
            rfl
          · split at hfin <;> cases hfin
        · cases heq

/-- A timer that has both blocks and is started can tick. -/
theorem InOrder.tick (horder : InOrder c.1 c.2) (ht : c.1.timers i = some tm)
    (hactive : tm.active = true) (hi : c.1.infos i = some tr) :
    ∃ c', Lib.record step c (.tick i []) = some c' ∧ InOrder c'.1 c'.2 ∧
      Ticked c.1 c'.1 i tm [] := by
  cases hrun : c.1.handle (.tick i []) with
  | ok r =>
    have hrecord : Lib.record step c (.tick i []) = some (r.1, c.2 ++ r.2) := by
      refine record_eq_some.mpr ⟨r.1, r.2, ?_, rfl⟩
      rw [step, horder.books.sound, hrun]
      rfl
    refine ⟨_, hrecord, (horder.handle hrun).1, ?_⟩
    simp only [Timers.handle, ht, hactive, if_true] at hrun
    exact (horder.books.tick ht hrun).2
  | error κ =>
    cases κ with
    | freed =>
      exact absurd ⟨by rw [hi]; rfl, List.not_mem_nil, trivial⟩ (horder.handle_freed hrun)
    | outside =>
      simp only [Timers.handle, ht, hactive, if_true] at hrun
      cases onUvTimer_stop hrun

/-- The timer ticks as often as its count says. -/
theorem Counted.ticks (hc : Counted c₁ c i h n k) (hn : 0 < n ∨ n = -1) (hlt : n < 2 ^ 31)
    (j : Nat) (hj : 0 < n → ((k + j : Nat) : Int) ≤ n) :
    ∃ c', Lib.run step c (List.replicate j (.tick i [])) = some c' ∧ c'.1.broken = false := by
  induction j generalizing c k with
  | zero => exact ⟨c, rfl, hc.order.books.sound⟩
  | succ j ih =>
    have hsome : countdown n k = some (if n < 0 then n else n - k) := by
      rw [countdown]
      split
      · rfl
      · rw [if_pos (by have := hj (by omega); omega)]
    have hcounts := hc.counts
    rw [hsome] at hcounts
    obtain ⟨repeatmsec, addr, ht, hi, -⟩ := hcounts
    obtain ⟨c₂, hrecord, horder, -⟩ := hc.order.tick ht rfl hi
    have hc₂ := hc.record hn hlt (e := .tick i []) List.not_mem_nil hrecord horder.books.sound
    rw [TimerEvent.ticks, decide_eq_true rfl, if_pos rfl] at hc₂
    obtain ⟨c', hrun, hsound⟩ := ih hc₂ fun hpos => by have := hj hpos; omega
    refine ⟨c', ?_, hsound⟩
    rw [List.replicate_succ, Lib.run, hrecord]
    exact hrun

/-! ## Other negative counts -/

/-- A timer that never ends, with a `scheduleInfo` that counts down: after as
many ticks it is gone. -/
theorem InOrder.endless (horder : InOrder c.1 c.2) {r : Int} {addr : Nat} (hneg : n < 0)
    (hr : r ≠ 0) (ht : c.1.timers i = some ⟨i, n, r, true⟩) (m : Nat)
    (hm : (m : Int) + 1 < 2 ^ 31) (hi : c.1.infos i = some ⟨h, m + 1, addr⟩) :
    ∃ c', Lib.run step c (List.replicate (m + 1) (.tick i [])) = some c' ∧
      c'.1.broken = false ∧ c'.1.infos i = none := by
  -- on the count of the `scheduleInfo`
  induction m generalizing c with
  | zero =>
    obtain ⟨c', hrecord, horder', hticked⟩ := horder.tick ht rfl hi
    refine ⟨c', ?_, horder'.books.sound, ?_⟩
    · rw [List.replicate_succ, Lib.run, hrecord]
      rfl
    · obtain ⟨tr, hi₀, hi', -⟩ := hticked.info
      rw [hi, Option.some.injEq] at hi₀
      subst hi₀
      exact hi'
  | succ m ih =>
    obtain ⟨c₂, hrecord, horder', hticked⟩ := horder.tick ht rfl hi
    obtain ⟨tr, hi₀, hi', -⟩ := hticked.info
    have ht' := hticked.timer
    rw [hi, Option.some.injEq] at hi₀
    subst hi₀
    have hpred : toInt (((m + 1 : Nat) : Int) + 1 - 1) = (m : Int) + 1 := by
      rw [toInt_pred (by omega) (by omega)]
      omega
    rw [left, if_neg (by simp only; omega)] at hi'
    simp only [hpred] at hi'
    rw [if_neg (by omega)] at hi'
    rw [leftTimer, if_neg (by simp only; omega), enteredTimer, if_pos hneg] at ht'
    simp only [hr, ne_eq, not_false_eq_true, decide_true] at ht'
    obtain ⟨c', hrun, hsound, hnone⟩ := ih horder' ht' (by omega) hi'
    refine ⟨c', ?_, hsound, hnone⟩
    rw [List.replicate_succ, Lib.run, hrecord]
    exact hrun

/-- Below -1 the two counts part: the timer goes on without its
`scheduleInfo`. The lowest `int` takes its time. -/
theorem InOrder.parts (horder : InOrder c.1 c.2) (hcounts : CountsAt c.1 i h (some n))
    (hlow : -2 ^ 31 ≤ n) (hneg : n < -1) :
    ∃ j c', Lib.run step c (List.replicate j (.tick i [])) = some c' ∧ c'.1.broken = false ∧
      c'.1.infos i = none := by
  obtain ⟨r, addr, ht, hi, hr⟩ := hcounts
  have hr : r ≠ 0 := hr.resolve_right (by omega)
  obtain ⟨c₂, hrecord, horder', hticked⟩ := horder.tick ht rfl hi
  obtain ⟨tr, hi₀, hi', -⟩ := hticked.info
  have ht' := hticked.timer
  rw [hi, Option.some.injEq] at hi₀
  subst hi₀
  rw [left, if_neg (by simp only; omega)] at hi'
  simp only at hi'
  by_cases hmin : n = -2 ^ 31
  · rw [leftTimer, if_neg (by simp only; omega), enteredTimer, if_pos (by simp only; omega)] at ht'
    simp only [hr, ne_eq, not_false_eq_true, decide_true] at ht'
    obtain ⟨m, hm⟩ : ∃ m : Nat, (m : Int) + 1 = 2 ^ 31 - 1 := ⟨2147483646, by decide⟩
    have hwrap : toInt (n - 1) = (m : Int) + 1 := by
      rw [hmin, toInt_pred_lowest, hm]
    rw [hwrap, if_neg (by omega)] at hi'
    obtain ⟨c', hrun, hsound, hnone⟩ := horder'.endless (by omega) hr ht' m (by omega) hi'
    refine ⟨m + 1 + 1, c', ?_, hsound, hnone⟩
    rw [List.replicate_succ, Lib.run, hrecord]
    exact hrun
  · rw [toInt_pred (by omega) (by omega), if_pos (by omega)] at hi'
    refine ⟨1, c₂, ?_, horder'.books.sound, hi'⟩
    rw [List.replicate_one, Lib.run, hrecord]
    rfl

/-! ## From the call on -/

theorem Books.scheduled_counts (hb : Books w log) {repeatmsec : Int} {heap : Nat}
    (hmsec : repeatmsec ≠ 0 ∨ n = 1)
    (hrun : w.refFunction.scheduleRepeat w.refFunction.s_function_ref_id n repeatmsec heap =
      .ok (w', out)) :
    Owned w' w.next w'.s_function_ref_id ∧ CountsAt w' w.next w'.s_function_ref_id (some n) := by
  obtain ⟨-, -, hnext, htimers, addr, hinfos⟩ := hb.scheduleRepeat hrun
  obtain ⟨-, hid, -⟩ := scheduleRepeat_handles hrun
  rw [hid]
  refine ⟨⟨by omega, by omega, fun j tr hj heq => ?_⟩, repeatmsec, addr, ?_, ?_, hmsec⟩
  · rw [hinfos, Function.update_apply] at hj
    split at hj
    · assumption
    · have hle := (hb.functions _ (hb.registered j tr hj)).1
      omega
  · rw [htimers, Function.update_self]
  · rw [hinfos, Function.update_self]

/-- A call that is accepted starts both counts at what it asked for. -/
theorem InOrder.accepted (horder : InOrder c.1 c.2) (ha : Accepted a n)
    (hrecord : Lib.record step c (.lua a) = some c') :
    InOrder c'.1 c'.2 ∧ Owned c'.1 c.1.next c'.1.s_function_ref_id ∧
      CountsAt c'.1 c.1.next c'.1.s_function_ref_id (some n) ∧
      (-2 ^ 31 ≤ n ∧ n < 2 ^ 31 ∧ n ≠ 0) := by
  obtain ⟨hinv, hiff⟩ := record_inOrder (fun _ => horder) hrecord
  have hok : c.1.ActOk a := by
    intro t ht
    rw [ht] at ha
    exact ha.elim
  have hsound := hiff.mpr ⟨horder.books.sound, hok⟩
  obtain ⟨out, hrun, -⟩ := handle_of_record hrecord hsound
  cases a with
  | cancel t => exact ha.elim
  | scheduleRepeat isFunction afterMsec repeatCount repeatMsec heap =>
    obtain ⟨hfunction, hafter, rfl, hcount⟩ := ha
    obtain ⟨hlow, hhigh⟩ := toInt_range repeatCount
    simp only [Timers.handle, Timers.act, luaScheduleRepeat, if_pos hfunction,
      if_pos (And.intro hafter hcount)] at hrun
    have hmsec : (if toInt repeatMsec = 0 then toInt afterMsec else toInt repeatMsec) ≠ 0 := by
      split
      · exact hafter
      · assumption
    obtain ⟨howned, hcounts⟩ := horder.books.scheduled_counts (.inl hmsec) hrun
    exact ⟨hinv hsound, howned, hcounts, hlow, hhigh, hcount⟩
  | scheduleOnce isFunction afterMsec heap =>
    obtain ⟨hfunction, hafter, rfl⟩ := ha
    simp only [Timers.handle, Timers.act, luaScheduleOnce, if_pos hfunction,
      if_pos hafter] at hrun
    obtain ⟨howned, hcounts⟩ := horder.books.scheduled_counts (.inr rfl) hrun
    exact ⟨hinv hsound, howned, hcounts, by decide, by decide, by decide⟩

end Runs

/-- **The two counts agree**, from any call that is accepted in any state on,
exactly when the count is positive or -1. -/
theorem repeat_counts {cacheMem : Nat} (harena : Arena cacheMem SMALLCACHENUM SMALLCACHE)
    (mem : Mem) {events : List TimerEvent} {c₀ c₁ : Timers × List Effect}
    (hrun : run step (start cacheMem mem, []) events = some c₀) (ha : Accepted a n)
    (hcall : record step c₀ (.lua a) = some c₁) :
    Agrees c₁ c₀.1.next c₁.1.s_function_ref_id n ↔ 0 < n ∨ n = -1 := by
  have horder := run_inOrder (fun _ => InOrder.start harena mem) hrun (sound_of_record hcall)
  obtain ⟨horder₁, howned, hcounts, hlow, hlt, hne⟩ := horder.accepted ha hcall
  constructor
  · rintro ⟨-, hagree⟩
    by_contra hn
    obtain ⟨j, c', hticks, hsound, hnone⟩ := horder₁.parts hcounts hlow (by omega)
    have hno : ∀ e ∈ List.replicate j (TimerEvent.tick c₀.1.next []), ¬ e.Cancels c₀.1.next := by
      intro e he
      rw [List.eq_of_mem_replicate he]
      exact List.not_mem_nil
    have hheld := (hagree _ c' hticks hsound hno).negative (by omega)
    have hinfo := hheld.info
    rw [hnone] at hinfo
    cases hinfo
  · intro hn
    have hstart : Counted c₁ c₁ c₀.1.next c₁.1.s_function_ref_id n 0 := by
      refine ⟨horder₁, howned, ?_, rfl, fun hpos => Int.le_of_lt hpos⟩
      have hfull : countdown n 0 = some n := by
        rw [countdown]
        split
        · rfl
        · rw [if_pos (by omega)]
          simp
      rw [hfull]
      exact hcounts
    constructor
    · intro k hk
      exact hstart.ticks hn hlt k (by rw [Nat.zero_add]; exact hk)
    · intro after c hafter hsound hno
      have hend := hstart.run hn hlt hno hafter hsound
      rw [Nat.zero_add] at hend
      exact hend.agree

/-- A timer of three ticks, started next to an endless one. -/
theorem repeat_counts_three : ∃ c₀ c₁,
    run step (start 65536 fun _ => 0, []) [.lua (.scheduleRepeat true 10 (-1) 0 0), .tick 0 []] =
      some c₀ ∧
    record step c₀ (.lua (.scheduleRepeat true 10 3 5 0)) = some c₁ ∧ Agrees c₁ 1 2 3 := by
  have hobs : ((run step (start 65536 fun _ => 0, [])
      [.lua (.scheduleRepeat true 10 (-1) 0 0), .tick 0 []]).bind fun c₀ =>
        (record step c₀ (.lua (.scheduleRepeat true 10 3 5 0))).map fun c₁ =>
          (c₀.1.next, c₁.1.s_function_ref_id)) = some (1, 2) := by
    decide +kernel
  obtain ⟨c₀, hrun, hmap⟩ := Option.bind_eq_some_iff.mp hobs
  obtain ⟨c₁, hcall, hids⟩ := Option.map_eq_some_iff.mp hmap
  obtain ⟨hnext, hid⟩ := Prod.mk.injEq _ _ _ _ ▸ hids
  have harena : Arena 65536 SMALLCACHENUM SMALLCACHE := ⟨by decide, by decide, by decide⟩
  have haccepted : Accepted (.scheduleRepeat true 10 3 5 0) 3 :=
    ⟨rfl, by decide, by decide, by decide⟩
  have hagrees := (repeat_counts harena _ hrun haccepted hcall).mpr (.inl (by decide))
  rw [hnext, hid] at hagrees
  exact ⟨c₀, c₁, hrun, hcall, hagrees⟩

/-- A count of -2: the `scheduleInfo` is freed on the first tick of a timer
that goes on. -/
theorem repeat_counts_below : ∃ c₁ c,
    record step (start 65536 fun _ => 0, []) (.lua (.scheduleRepeat true 10 (-2) 10 0)) =
      some c₁ ∧
    run step c₁ [.tick 0 []] = some c ∧ c.1.timers 0 = some ⟨0, -2, 10, true⟩ ∧
    c.1.infos 0 = none ∧ ¬ Agrees c₁ 0 1 (-2) := by
  have hobs : ((record step (start 65536 fun _ => 0, [])
      (.lua (.scheduleRepeat true 10 (-2) 10 0))).bind fun c₁ =>
        (run step c₁ [.tick 0 []]).map fun c =>
          (c.1.timers 0, c.1.infos 0, c.1.broken)) =
            some (some ⟨0, -2, 10, true⟩, none, false) := by
    decide +kernel
  obtain ⟨c₁, hcall, hmap⟩ := Option.bind_eq_some_iff.mp hobs
  obtain ⟨c, hrun, hends⟩ := Option.map_eq_some_iff.mp hmap
  simp only [Prod.mk.injEq] at hends
  obtain ⟨ht, hi, hsound⟩ := hends
  refine ⟨c₁, c, hcall, hrun, ht, hi, ?_⟩
  rintro ⟨-, hagree⟩
  have hno : ∀ e ∈ [TimerEvent.tick 0 []], ¬ e.Cancels 0 := by
    intro e he
    rw [List.mem_singleton.mp he]
    exact List.not_mem_nil
  have hheld := (hagree _ c hrun hsound hno).negative (by decide)
  have hinfo := hheld.info
  rw [hi] at hinfo
  cases hinfo

end Timers

end LibuvServer.Mylua
