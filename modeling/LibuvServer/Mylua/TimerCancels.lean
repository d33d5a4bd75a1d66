import LibuvServer.Mylua.LuaSchedule
import Mathlib.Tactic.Common

/-!
# Cancelling timers

What is freed of a timer, and when, over every order of ticks and cancels.
`luaScheduler` looks at its block again after its function has run, so a
function that cancels its own timer leaves it with a freed one. The books
hold in every state that is reached before a block is used after it was
freed.
-/

namespace LibuvServer.Mylua.Timers

open LibuvServer.Lib LibuvServer.Utils

variable {w w' w₁ w₂ : Timers} {log out more : List Effect} {i t : Nat} {tm : Timer}
  {tr : ScheduleInfo} {a : Act} {acts : List Act}

/-! ## What is wanted -/

/-- Nothing has been used after it was freed; the blocks of a timer are freed
once, both of them when it is over; a function is registered as long as a
timer is there to call it; the free list of the small cache is in order. -/
structure Safe (w : Timers) (log : List Effect) : Prop where
  sound : w.broken = false
  once : ∀ i, log.count (.freedInfo i) ≤ 1 ∧ log.count (.freedTimer i) ≤ 1
  ended : ∀ i, i < w.next → w.timers i = none →
    log.count (.freedInfo i) = 1 ∧ log.count (.freedTimer i) = 1
  functions : ∀ handle, w.functions handle = true →
    ∃ i tm tr, w.timers i = some tm ∧ w.infos i = some tr ∧ tr.handle = handle
  freeList : ∃ free, Integrity w.smallCache free

/-- A cancel finds the `scheduleInfo` of its timer. -/
def ActOk (w : Timers) (a : Act) : Prop := ∀ t, a = .cancel t → (w.infos t).isSome

/-- The same of one thing after another. -/
def ActsOk (w : Timers) : List Act → Prop
  | [] => True
  | a :: acts => w.ActOk a ∧ ∀ w' out, w.act a = .ok (w', out) → w'.ActsOk acts

instance (w : Timers) : (a : Act) → Decidable (w.ActOk a)
  | .scheduleRepeat .. => .isTrue fun _ h => by cases h
  | .scheduleOnce .. => .isTrue fun _ h => by cases h
  | .cancel t => decidable_of_iff ((w.infos t).isSome = true)
      ⟨fun h t' ht => by cases ht; exact h, fun h => h t rfl⟩

instance ActsOk.decidable : (w : Timers) → (acts : List Act) → Decidable (w.ActsOk acts)
  | _, [] => .isTrue trivial
  | w, a :: acts =>
    match h : w.act a with
    | .ok (w', _) =>
      have := ActsOk.decidable w' acts
      decidable_of_iff (w.ActOk a ∧ w'.ActsOk acts)
        ⟨fun hok => ⟨hok.1, fun _ _ hact => by rw [h] at hact; cases hact; exact hok.2⟩,
          fun hok => ⟨hok.1, hok.2 _ _ h⟩⟩
    | .error _ =>
      decidable_of_iff (w.ActOk a)
        ⟨fun hok => ⟨hok, fun _ _ hact => by rw [h] at hact; cases hact⟩, fun hok => hok.1⟩

/-- The timers when the function of `t` runs. -/
def entered (w : Timers) (t : Nat) : Timers :=
  match w.timers t with
  | none => w
  | some tm =>
    if tm.repeatCount < 0 then w.due t tm
    else (w.due t tm).setTimer t { tm with active := tm.repeatmsec ≠ 0
                                           repeatCount := tm.repeatCount - 1 }

/-- The condition on an event: a timer that ticks has its `scheduleInfo` and
is not cancelled by its own function, and every cancel finds the
`scheduleInfo` of its timer. -/
def Careful (w : Timers) : TimerEvent → Prop
  | .lua a => w.ActOk a
  | .tick t acts => (w.infos t).isSome ∧ .cancel t ∉ acts ∧ (w.entered t).ActsOk acts

instance (w : Timers) : (e : TimerEvent) → Decidable (w.Careful e)
  | .lua a => inferInstanceAs (Decidable (w.ActOk a))
  | .tick t acts => inferInstanceAs (Decidable ((w.infos t).isSome ∧ .cancel t ∉ acts ∧
      (w.entered t).ActsOk acts))

/-! ## The books -/

/-- What holds in every state, also while a function runs. -/
structure Books (w : Timers) (log : List Effect) : Prop where
  sound : w.broken = false
  fresh : ∀ i, w.next ≤ i → w.timers i = none ∧ w.infos i = none
  pool : ∃ free, Intact w.smallCache free
  addrs : ∀ i tr, w.infos i = some tr → tr.addr ∈ w.smallCache.addrs
  apart : ∀ i j tr tr', w.infos i = some tr → w.infos j = some tr' →
    tr.addr = tr'.addr ∨ tr.handle = tr'.handle → i = j
  registered : ∀ i tr, w.infos i = some tr → w.functions tr.handle = true
  functions : ∀ handle, w.functions handle = true →
    handle ≤ w.s_function_ref_id ∧ ∃ i tr, w.infos i = some tr ∧ tr.handle = handle
  uData : ∀ i tm, w.timers i = some tm → tm.uData = i
  infoCount : ∀ i, log.count (.freedInfo i) = if i < w.next ∧ w.infos i = none then 1 else 0
  timerCount : ∀ i, log.count (.freedTimer i) = if i < w.next ∧ w.timers i = none then 1 else 0

theorem Books.lt_of_timer (h : Books w log) (ht : w.timers i = some tm) : i < w.next := by
  by_contra hle
  rw [(h.fresh i (by omega)).1] at ht
  cases ht

theorem Books.lt_of_info (h : Books w log) (hi : w.infos i = some tr) : i < w.next := by
  by_contra hle
  rw [(h.fresh i (by omega)).2] at hi
  cases hi

theorem Books.start {cacheMem : Nat} (harena : Arena cacheMem SMALLCACHENUM SMALLCACHE)
    (mem : Mem) : Books (start cacheMem mem) [] where
  sound := rfl
  fresh _ _ := ⟨rfl, rfl⟩
  pool := ⟨_, Intact.start harena mem⟩
  addrs _ _ h := by cases h
  apart _ _ _ _ h := by cases h
  registered _ _ h := by cases h
  functions _ h := by cases h
  uData _ _ h := by cases h
  infoCount i := (if_neg fun h => Nat.not_lt_zero i h.1).symm
  timerCount i := (if_neg fun h => Nat.not_lt_zero i h.1).symm

/-- A field of a timer that is there. -/
theorem Books.setTimer (h : Books w log) (ht : w.timers t = some tm) {tm' : Timer}
    (hu : tm'.uData = t) : Books (w.setTimer t tm') log where
  sound := h.sound
  fresh i hi := by
    have hne : i ≠ t := by
      rintro rfl
      exact absurd (h.lt_of_timer ht) (Nat.not_lt.mpr hi)
    exact ⟨(Function.update_of_ne hne _ _).trans (h.fresh i hi).1, (h.fresh i hi).2⟩
  pool := h.pool
  addrs := h.addrs
  apart := h.apart
  registered := h.registered
  functions := h.functions
  uData i tm₁ h₁ := by
    simp only [Timers.setTimer, Function.update_apply] at h₁
    split at h₁
    · cases h₁
      rw [hu, ‹i = t›]
    · exact h.uData i tm₁ h₁
  infoCount := h.infoCount
  timerCount i := by
    rw [h.timerCount i]
    simp only [Timers.setTimer, Function.update_apply]
    by_cases hit : i = t
    · rw [if_pos hit, hit, ht]
      simp
    · rw [if_neg hit]

/-- A timer is freed. -/
theorem Books.freeTimer (h : Books w log) (ht : w.timers t = some tm) :
    Books (w.freeTimer t) (log ++ [.freedTimer t]) where
  sound := h.sound
  fresh i hi := by
    have hne : i ≠ t := by
      rintro rfl
      exact absurd (h.lt_of_timer ht) (Nat.not_lt.mpr hi)
    exact ⟨(Function.update_of_ne hne _ _).trans (h.fresh i hi).1, (h.fresh i hi).2⟩
  pool := h.pool
  addrs := h.addrs
  apart := h.apart
  registered := h.registered
  functions := h.functions
  uData i tm₁ h₁ := by
    simp only [Timers.freeTimer, Function.update_apply] at h₁
    split at h₁
    · cases h₁
    · exact h.uData i tm₁ h₁
  infoCount i := by
    rw [List.count_append, h.infoCount i]
    rfl
  timerCount i := by
    have hlt := h.lt_of_timer ht
    rw [List.count_append, h.timerCount i, List.count_singleton]
    simp only [Timers.freeTimer, Function.update_apply]
    by_cases hit : i = t
    · subst hit
      simp [ht, hlt]
    · have hti : t ≠ i := fun heq => hit heq.symm
      simp [hit, hti]

/-- A new count does not touch the block or the function. -/
theorem setInfo_info {n : Int} (hi : w.infos i = some tr) {j : Nat} {tr₁ : ScheduleInfo}
    (h : (w.setInfo i { tr with repeatCount := n }).infos j = some tr₁) :
    ∃ tr₀, w.infos j = some tr₀ ∧ tr₀.addr = tr₁.addr ∧ tr₀.handle = tr₁.handle := by
  simp only [Timers.setInfo, Function.update_apply] at h
  split at h
  · rename_i hji
    cases h
    exact ⟨tr, by rw [hji, hi], rfl, rfl⟩
  · exact ⟨tr₁, h, rfl, rfl⟩

/-- The count of a `scheduleInfo` that is there. -/
theorem Books.setInfo (h : Books w log) (hi : w.infos i = some tr) (n : Int) :
    Books (w.setInfo i { tr with repeatCount := n }) log where
  sound := h.sound
  fresh j hj := by
    have hne : j ≠ i := by
      rintro rfl
      exact absurd (h.lt_of_info hi) (Nat.not_lt.mpr hj)
    exact ⟨(h.fresh j hj).1, (Function.update_of_ne hne _ _).trans (h.fresh j hj).2⟩
  pool := h.pool
  addrs j tr₁ h₁ := by
    obtain ⟨tr₀, h₀, haddr, -⟩ := setInfo_info hi h₁
    rw [← haddr]
    exact h.addrs j tr₀ h₀
  apart j k tr₁ tr₂ h₁ h₂ hsame := by
    obtain ⟨tr₃, h₃, haddr, hhandle⟩ := setInfo_info hi h₁
    obtain ⟨tr₄, h₄, haddr', hhandle'⟩ := setInfo_info hi h₂
    rw [← haddr, ← haddr', ← hhandle, ← hhandle'] at hsame
    exact h.apart j k tr₃ tr₄ h₃ h₄ hsame
  registered j tr₁ h₁ := by
    obtain ⟨tr₀, h₀, -, hhandle⟩ := setInfo_info hi h₁
    rw [← hhandle]
    exact h.registered j tr₀ h₀
  functions handle hh := by
    obtain ⟨hle, j, tr₁, h₁, rfl⟩ := h.functions handle hh
    refine ⟨hle, j, ?_⟩
    simp only [Timers.setInfo, Function.update_apply]
    by_cases hji : j = i
    · rw [if_pos hji]
      rw [hji, hi] at h₁
      cases h₁
      exact ⟨_, rfl, rfl⟩
    · rw [if_neg hji]
      exact ⟨tr₁, h₁, rfl⟩
  uData := h.uData
  infoCount j := by
    rw [h.infoCount j]
    simp only [Timers.setInfo, Function.update_apply]
    by_cases hji : j = i
    · rw [if_pos hji, hji, hi]
      simp
    · rw [if_neg hji]
  timerCount := h.timerCount

/-- A `scheduleInfo` that is there can be given back, with its function. -/
theorem Books.releaseInfo (h : Books w log) (hi : w.infos i = some tr) {tr' : ScheduleInfo}
    (hhandle : tr'.handle = tr.handle) :
    ∃ w', w.releaseInfo i tr' = .ok (w', [.removed tr.handle, .freedInfo i]) ∧
      Books w' (log ++ [.removed tr.handle, .freedInfo i]) ∧ w'.next = w.next ∧
      w'.timers = w.timers ∧ w'.infos = Function.update w.infos i none ∧
      w'.functions tr.handle = false := by
  obtain ⟨free, hpool⟩ := h.pool
  obtain ⟨c, hgive⟩ := Pool.give_of_mem (h.addrs i tr hi)
  obtain ⟨hpool', -⟩ := Pool.give_ok hpool hgive
  refine ⟨{ w.removeLuaFunc tr.handle with
    smallCache := c, infos := Function.update w.infos i none }, ?_, ?_, rfl, rfl, rfl,
    Function.update_self _ _ _⟩
  · simp only [Timers.releaseInfo, hhandle, Timers.smallCacheFree, Timers.removeLuaFunc, hi, hgive]
    rfl
  -- the other blocks are not the one that was freed
  have hother : ∀ j tr₁, Function.update w.infos i none j = some tr₁ →
      j ≠ i ∧ w.infos j = some tr₁ := by
    intro j tr₁ h₁
    rw [Function.update_apply] at h₁
    split at h₁
    · cases h₁
    · exact ⟨‹_›, h₁⟩
  constructor
  · exact h.sound
  · intro j hj
    refine ⟨(h.fresh j hj).1, ?_⟩
    by_cases hji : j = i
    · rw [hji]
      exact Function.update_self _ _ _
    · exact (Function.update_of_ne hji _ _).trans (h.fresh j hj).2
  · exact hpool'
  · intro j tr₁ h₁
    obtain ⟨hji, h₁⟩ := hother j tr₁ h₁
    exact (Pool.mem_addrs_give hpool hgive).mpr ⟨h.addrs j tr₁ h₁,
      fun heq => hji (h.apart j i tr₁ tr h₁ hi (.inl heq))⟩
  · intro j k tr₁ tr₂ h₁ h₂
    exact h.apart j k tr₁ tr₂ (hother j tr₁ h₁).2 (hother k tr₂ h₂).2
  · intro j tr₁ h₁
    obtain ⟨hji, h₁⟩ := hother j tr₁ h₁
    have hne : tr₁.handle ≠ tr.handle := fun heq => hji (h.apart j i tr₁ tr h₁ hi (.inr heq))
    exact (Function.update_of_ne hne _ _).trans (h.registered j tr₁ h₁)
  · intro handle hh
    simp only [Timers.removeLuaFunc, Function.update_apply] at hh
    split at hh
    · cases hh
    · rename_i hne
      obtain ⟨hle, j, tr₁, h₁, rfl⟩ := h.functions handle hh
      refine ⟨hle, j, tr₁, ?_, rfl⟩
      have hji : j ≠ i := by
        rintro rfl
        rw [hi] at h₁
        cases h₁
        exact hne rfl
      exact (Function.update_of_ne hji _ _).trans h₁
  · exact h.uData
  · intro j
    have hlt := h.lt_of_info hi
    rw [List.count_append, h.infoCount j]
    simp only [Timers.removeLuaFunc, Function.update_apply]
    by_cases hji : j = i
    · subst hji
      simp [hi, hlt]
    · have hij : i ≠ j := fun heq => hji heq.symm
      simp [hji, hij]
  · intro j
    rw [List.count_append, h.timerCount j]
    rfl

/-- Nothing remains of a function that was registered for nothing. -/
theorem Books.refused (h : Books w log) :
    Books (w.refFunction.removeLuaFunc w.refFunction.s_function_ref_id)
      (log ++ [.removed w.refFunction.s_function_ref_id]) := by
  have hfunctions : ∀ handle, (w.refFunction.removeLuaFunc
      w.refFunction.s_function_ref_id).functions handle = w.functions handle := by
    intro handle
    simp only [Timers.refFunction, Timers.removeLuaFunc, Function.update_apply]
    split
    · rename_i heq
      rw [heq, eq_comm, Bool.eq_false_iff]
      intro hh
      have hle := (h.functions _ hh).1
      omega
    · rfl
  constructor
  · exact h.sound
  · exact h.fresh
  · exact h.pool
  · exact h.addrs
  · exact h.apart
  · intro i tr hi
    rw [hfunctions]
    exact h.registered i tr hi
  · intro handle hh
    rw [hfunctions] at hh
    obtain ⟨hle, hex⟩ := h.functions handle hh
    exact ⟨Nat.le_succ_of_le hle, hex⟩
  · exact h.uData
  · intro i
    rw [List.count_append, h.infoCount i]
    rfl
  · intro i
    rw [List.count_append, h.timerCount i]
    rfl

/-- A timer is scheduled with a function that was just registered. -/
theorem Books.scheduleRepeat (h : Books w log) {repeatCount repeatmsec : Int} {heap : Nat}
    (hrun : w.refFunction.scheduleRepeat w.refFunction.s_function_ref_id repeatCount repeatmsec
      heap = .ok (w', out)) :
    out = [] ∧ Books w' log ∧ w'.next = w.next + 1 ∧
      w'.timers = Function.update w.timers w.next (some ⟨w.next, repeatCount, repeatmsec, true⟩) ∧
      ∃ addr, w'.infos = Function.update w.infos w.next
        (some ⟨w.s_function_ref_id + 1, repeatCount, addr⟩) := by
  obtain ⟨free, hpool⟩ := h.pool
  unfold Timers.scheduleRepeat at hrun
  split at hrun
  · cases hrun
  rename_i block smallCache htake
  cases hrun
  have htake' : w.smallCache.take SCHEDULE_SIZE heap = some (block, smallCache) := htake
  obtain ⟨hpool', hlive⟩ := Pool.take_ok hpool htake'
  have hnew := Pool.take_fresh hpool htake'
  have haddrs : smallCache.addrs = block.addr :: w.smallCache.addrs := by
    rw [Pool.addrs, hlive]
    rfl
  have hfree := h.fresh w.next (Nat.le_refl _)
  -- the old blocks are where they were, and have other functions
  have hold : ∀ j tr, Function.update w.infos w.next
      (some ⟨w.s_function_ref_id + 1, repeatCount, block.addr⟩) j = some tr →
      (j = w.next ∧ tr = ⟨w.s_function_ref_id + 1, repeatCount, block.addr⟩) ∨
        (j ≠ w.next ∧ w.infos j = some tr ∧ tr.addr ≠ block.addr ∧
          tr.handle ≤ w.s_function_ref_id) := by
    intro j tr hj
    rw [Function.update_apply] at hj
    split at hj
    · cases hj
      exact .inl ⟨‹_›, rfl⟩
    · refine .inr ⟨‹_›, hj, fun heq => hnew (heq ▸ h.addrs j tr hj), ?_⟩
      exact (h.functions _ (h.registered j tr hj)).1
  refine ⟨rfl, ?_, rfl, rfl, block.addr, rfl⟩
  constructor
  · exact h.sound
  · intro j hj
    have hne : j ≠ w.next := by
      rintro rfl
      exact absurd hj (Nat.not_succ_le_self _)
    have hj' := h.fresh j (Nat.le_of_succ_le hj)
    exact ⟨(Function.update_of_ne hne _ _).trans hj'.1, (Function.update_of_ne hne _ _).trans hj'.2⟩
  · exact hpool'
  · intro j tr hj
    show tr.addr ∈ smallCache.addrs
    rw [haddrs]
    rcases hold j tr hj with ⟨-, rfl⟩ | ⟨-, hj, -⟩
    · exact .head _
    · exact .tail _ (h.addrs j tr hj)
  · intro j k tr tr' hj hk hsame
    rcases hold j tr hj with ⟨rfl, rfl⟩ | ⟨hjn, hj, haddr, hle⟩
    · rcases hold k tr' hk with ⟨rfl, rfl⟩ | ⟨-, -, haddr, hle⟩
      · rfl
      · simp only at hsame
        omega
    · rcases hold k tr' hk with ⟨rfl, rfl⟩ | ⟨-, hk, -⟩
      · simp only at hsame
        omega
      · exact h.apart j k tr tr' hj hk hsame
  · intro j tr hj
    show Function.update w.functions (w.s_function_ref_id + 1) true tr.handle = true
    rcases hold j tr hj with ⟨-, rfl⟩ | ⟨-, hj, -, hle⟩
    · exact Function.update_self _ _ _
    · rw [Function.update_of_ne (by omega)]
      exact h.registered j tr hj
  · intro handle hh
    simp only [Timers.refFunction, Function.update_apply] at hh
    split at hh
    · rename_i heq
      exact ⟨Nat.le_of_eq heq, w.next, _, Function.update_self _ _ _, heq.symm⟩
    · obtain ⟨hle, j, tr, hj, rfl⟩ := h.functions handle hh
      have hne : j ≠ w.next := Nat.ne_of_lt (h.lt_of_info hj)
      exact ⟨Nat.le_succ_of_le hle, j, tr, (Function.update_of_ne hne _ _).trans hj, rfl⟩
  · intro j tm hj
    simp only [Timers.refFunction, Function.update_apply] at hj
    split at hj
    · cases hj
      exact Eq.symm ‹_›
    · exact h.uData j tm hj
  · intro j
    rw [h.infoCount j]
    simp only [Timers.refFunction, Function.update_apply]
    by_cases hj : j = w.next
    · rw [if_pos hj, hj]
      simp
    · rw [if_neg hj]
      have hiff : j < w.next ↔ j < w.next + 1 := by omega
      simp only [hiff]
  · intro j
    rw [h.timerCount j]
    simp only [Timers.refFunction, Function.update_apply]
    by_cases hj : j = w.next
    · rw [if_pos hj, hj]
      simp
    · rw [if_neg hj]
      have hiff : j < w.next ↔ j < w.next + 1 := by omega
      simp only [hiff]

/-! ## What a call does -/

/-- The state of a timer while no function of its own runs: it is over, or it
never ends, or both counts say how often it has to run. -/
inductive Settled (w : Timers) (i : Nat) : Prop where
  | ended (ht : w.timers i = none) (hi : w.infos i = none)
  | endless {tm : Timer} (ht : w.timers i = some tm) (hneg : tm.repeatCount < 0)
  | counting {tm : Timer} {tr : ScheduleInfo} (ht : w.timers i = some tm)
      (hi : w.infos i = some tr) (hpos : 0 < tm.repeatCount) (hlt : tm.repeatCount < 2 ^ 31)
      (heq : tr.repeatCount = tm.repeatCount)

theorem Settled.congr (h : Settled w i) (ht : w'.timers i = w.timers i)
    (hi : w'.infos i = w.infos i) : Settled w' i := by
  cases h with
  | ended ht' hi' => exact .ended (ht.trans ht') (hi.trans hi')
  | endless ht' hneg => exact .endless (ht.trans ht') hneg
  | counting ht' hi' hpos hlt heq => exact .counting (ht.trans ht') (hi.trans hi') hpos hlt heq

/-- What `acts` have done to the timers. -/
structure Acted (w w' : Timers) (acts : List Act) : Prop where
  next_le : w.next ≤ w'.next
  settled : ∀ i, Settled w i → Settled w' i
  kept : ∀ i, i < w.next → .cancel i ∉ acts → w'.timers i = w.timers i ∧ w'.infos i = w.infos i
  cancelled : ∀ i, .cancel i ∈ acts → i < w'.next ∧ w'.infos i = none
  ok : w.ActsOk acts

theorem Acted.nil (w : Timers) : Acted w w [] where
  next_le := Nat.le_refl _
  settled _ h := h
  kept _ _ _ := ⟨rfl, rfl⟩
  cancelled i h := by cases h
  ok := trivial

theorem Acted.cons (h : Acted w w₁ [a]) (hact : w.act a = .ok (w₁, out)) (h' : Acted w₁ w₂ acts) :
    Acted w w₂ (a :: acts) where
  next_le := Nat.le_trans h.next_le h'.next_le
  settled i hi := h'.settled i (h.settled i hi)
  kept i hi hmem := by
    rw [List.mem_cons, not_or] at hmem
    have h₁ := h.kept i hi (by simpa using hmem.1)
    have h₂ := h'.kept i (Nat.lt_of_lt_of_le hi h.next_le) hmem.2
    exact ⟨h₂.1.trans h₁.1, h₂.2.trans h₁.2⟩
  cancelled i hi := by
    by_cases hmem : .cancel i ∈ acts
    · exact h'.cancelled i hmem
    · obtain ⟨hlt, hnone⟩ := h.cancelled i (by simpa [hmem] using hi)
      exact ⟨Nat.lt_of_lt_of_le hlt h'.next_le, (h'.kept i hlt hmem).2.trans hnone⟩
  ok := by
    refine ⟨h.ok.1, fun w' out' hact' => ?_⟩
    rw [hact, Except.ok.injEq, Prod.mk.injEq] at hact'
    rw [← hact'.1]
    exact h'.ok

/-- A call that touches no timer that is there. -/
theorem Acted.of_kept (hnext : w.next ≤ w'.next) (hnew : ∀ i, w.next ≤ i → Settled w' i)
    (hkept : ∀ i, i < w.next → w'.timers i = w.timers i ∧ w'.infos i = w.infos i)
    (ha : ∀ i, a ≠ .cancel i) : Acted w w' [a] where
  next_le := hnext
  settled i hi := by
    by_cases hlt : i < w.next
    · exact hi.congr (hkept i hlt).1 (hkept i hlt).2
    · exact hnew i (by omega)
  kept i hlt _ := hkept i hlt
  cancelled i hi := absurd (by simpa using hi) (ha i).symm
  ok := ⟨fun i hi => absurd hi (ha i), fun _ _ _ => trivial⟩

/-- `lua_scheduleRepeat` and `lua_scheduleOnce` after their checks. -/
theorem Books.scheduled (h : Books w log) {repeatCount repeatmsec : Int} {heap : Nat}
    (hcount : repeatCount ≠ 0) (hlt : repeatCount < 2 ^ 31)
    (hrun : w.refFunction.scheduleRepeat w.refFunction.s_function_ref_id repeatCount repeatmsec
      heap = .ok (w', out)) (ha : ∀ i, a ≠ .cancel i) :
    Books w' (log ++ out) ∧ Acted w w' [a] := by
  obtain ⟨rfl, hbooks, hnext, htimers, addr, hinfos⟩ := h.scheduleRepeat hrun
  rw [List.append_nil]
  refine ⟨hbooks, .of_kept (by omega) (fun i hi => ?_) (fun i hi => ?_) ha⟩
  · by_cases hin : i = w.next
    · have ht : w'.timers i = some ⟨w.next, repeatCount, repeatmsec, true⟩ := by
        rw [htimers, hin, Function.update_self]
      have hi : w'.infos i = some ⟨w.s_function_ref_id + 1, repeatCount, addr⟩ := by
        rw [hinfos, hin, Function.update_self]
      by_cases hneg : repeatCount < 0
      · exact .endless ht hneg
      · exact .counting ht hi (by simp only; omega) hlt rfl
    · have hfresh := h.fresh i hi
      refine .ended ?_ ?_
      · rw [htimers, Function.update_of_ne hin, hfresh.1]
      · rw [hinfos, Function.update_of_ne hin, hfresh.2]
  · have hne : i ≠ w.next := Nat.ne_of_lt hi
    exact ⟨by rw [htimers, Function.update_of_ne hne], by rw [hinfos, Function.update_of_ne hne]⟩

/-- A call that is refused after its function was registered. -/
theorem Books.notScheduled (h : Books w log) (ha : ∀ i, a ≠ .cancel i) :
    Books (w.refFunction.removeLuaFunc w.refFunction.s_function_ref_id)
        (log ++ [.removed w.refFunction.s_function_ref_id]) ∧
      Acted w (w.refFunction.removeLuaFunc w.refFunction.s_function_ref_id) [a] := by
  refine ⟨h.refused, .of_kept (Nat.le_refl _) (fun i hi => ?_) (fun i _ => ⟨rfl, rfl⟩) ha⟩
  exact .ended (h.fresh i hi).1 (h.fresh i hi).2

/-- A timer that is cancelled while it has its `scheduleInfo`. -/
theorem Books.cancel (h : Books w log) (ht : w.timers t = some tm) (hi : w.infos t = some tr) :
    ∃ w' out, w.luaCancelTimer t = .ok (w', out) ∧ Books w' (log ++ out) ∧
      Acted w w' [.cancel t] := by
  have hu := h.uData t tm ht
  obtain ⟨w₁, hrelease, hbooks, hnext, htimers, hinfos, -⟩ := h.releaseInfo hi rfl
  have ht₁ : w₁.timers t = some tm := by rw [htimers, ht]
  have hlt := h.lt_of_timer ht
  have hcancel : ∃ w' more, w₁.cancelTimer t = .ok (w', more) ∧
      Books w' (log ++ ([.removed tr.handle, .freedInfo t] ++ more)) ∧ w'.next = w₁.next ∧
      w'.infos = w₁.infos ∧ (∀ i, i ≠ t → w'.timers i = w₁.timers i) ∧
      (tm.repeatCount ≠ 0 → w'.timers t = none) := by
    simp only [Timers.cancelTimer, ht₁]
    split
    · rename_i hzero
      exact ⟨w₁, [], rfl, by rwa [List.append_nil], rfl, rfl, fun _ _ => rfl,
        fun hne => absurd hzero hne⟩
    · refine ⟨_, _, rfl, ?_, rfl, rfl, fun i hit => Function.update_of_ne hit _ _,
        fun _ => Function.update_self _ _ _⟩
      rw [← List.append_assoc]
      exact hbooks.freeTimer ht₁
  obtain ⟨w', more, hrun, hbooks', hnext', hinfos', hother, hover⟩ := hcancel
  have hkept : ∀ i, i ≠ t → w'.timers i = w.timers i ∧ w'.infos i = w.infos i := by
    intro i hit
    refine ⟨by rw [hother i hit, htimers], ?_⟩
    rw [hinfos', hinfos, Function.update_of_ne hit]
  have hnone : w'.infos t = none := by rw [hinfos', hinfos, Function.update_self]
  refine ⟨w', [.removed tr.handle, .freedInfo t] ++ more, ?_, hbooks', ?_⟩
  · simp only [Timers.luaCancelTimer, ht, hu, hi, hrelease]
    rw [bind_eq_ok]
    exact ⟨_, rfl, bind_eq_ok.mpr ⟨_, hrun, rfl⟩⟩
  · constructor
    · omega
    · intro i hs
      by_cases hit : i = t
      · rw [hit] at hs ⊢
        cases hs with
        | ended ht' _ =>
          rw [ht] at ht'
          cases ht'
        | endless ht' hneg =>
          rw [ht] at ht'
          cases ht'
          exact .ended (hover (by omega)) hnone
        | counting ht' _ hpos _ _ =>
          rw [ht] at ht'
          cases ht'
          exact .ended (hover (by omega)) hnone
      · exact hs.congr (hkept i hit).1 (hkept i hit).2
    · intro i _ hmem
      exact hkept i fun heq => hmem (by rw [heq]; exact .head _)
    · intro i hmem
      have hit : i = t := by simpa using hmem
      rw [hit]
      exact ⟨by omega, hnone⟩
    · refine ⟨fun i hit => ?_, fun _ _ _ => trivial⟩
      cases hit
      rw [hi]
      rfl

/-- **One call** keeps the books. -/
theorem Books.act (h : Books w log) (hact : w.act a = .ok (w', out)) :
    Books w' (log ++ out) ∧ Acted w w' [a] := by
  cases a with
  | scheduleRepeat isFunction afterMsec repeatCount repeatMsec heap =>
    have hno : ∀ i, Act.scheduleRepeat isFunction afterMsec repeatCount repeatMsec heap ≠
        .cancel i := by simp
    have hrange := toInt_range repeatCount
    simp only [Timers.act, luaScheduleRepeat] at hact
    split at hact
    · split at hact
      · rename_i hargs
        exact h.scheduled hargs.2 hrange.2 hact hno
      · cases hact
        exact h.notScheduled hno
    · cases hact
      rw [List.append_nil]
      exact ⟨h, .of_kept (Nat.le_refl _) (fun i hi => .ended (h.fresh i hi).1 (h.fresh i hi).2)
        (fun _ _ => ⟨rfl, rfl⟩) hno⟩
  | scheduleOnce isFunction afterMsec heap =>
    have hno : ∀ i, Act.scheduleOnce isFunction afterMsec heap ≠ .cancel i := by simp
    simp only [Timers.act, luaScheduleOnce] at hact
    split at hact
    · split at hact
      · exact h.scheduled (by decide) (by decide) hact hno
      · cases hact
        exact h.notScheduled hno
    · cases hact
      rw [List.append_nil]
      exact ⟨h, .of_kept (Nat.le_refl _) (fun i hi => .ended (h.fresh i hi).1 (h.fresh i hi).2)
        (fun _ _ => ⟨rfl, rfl⟩) hno⟩
  | cancel t =>
    simp only [Timers.act] at hact
    cases ht : w.timers t with
    | none =>
      rw [luaCancelTimer, ht] at hact
      cases hact
    | some tm =>
      cases hi : w.infos t with
      | none =>
        simp only [luaCancelTimer, ht, h.uData t tm ht, hi] at hact
        cases hact
      | some tr =>
        obtain ⟨w₁, out₁, hrun, hbooks, hacted⟩ := h.cancel ht hi
        rw [hrun] at hact
        cases hact
        exact ⟨hbooks, hacted⟩

/-- A call uses a freed block only where a cancel does not find its
`scheduleInfo`. -/
theorem Books.act_freed (h : Books w log) (hact : w.act a = .error .freed) : ¬ w.ActOk a := by
  intro hok
  cases a with
  | scheduleRepeat isFunction afterMsec repeatCount repeatMsec heap =>
    simp only [Timers.act, luaScheduleRepeat, Timers.scheduleRepeat] at hact
    split at hact
    · split at hact
      · split at hact <;> cases hact
      · cases hact
    · cases hact
  | scheduleOnce isFunction afterMsec heap =>
    simp only [Timers.act, luaScheduleOnce, Timers.scheduleRepeat] at hact
    split at hact
    · split at hact
      · split at hact <;> cases hact
      · cases hact
    · cases hact
  | cancel t =>
    simp only [Timers.act] at hact
    cases ht : w.timers t with
    | none =>
      rw [luaCancelTimer, ht] at hact
      cases hact
    | some tm =>
      obtain ⟨tr, hi⟩ := Option.isSome_iff_exists.mp (hok t rfl)
      obtain ⟨w₁, out₁, hrun, -⟩ := h.cancel ht hi
      rw [hrun] at hact
      cases hact

/-- **One call after another**, as a function makes them. -/
theorem Books.actAll (h : Books w log) (hacts : w.actAll acts = .ok (w', out)) :
    Books w' (log ++ out) ∧ Acted w w' acts := by
  induction acts generalizing w log out with
  | nil =>
    cases hacts
    rw [List.append_nil]
    exact ⟨h, .nil _⟩
  | cons a acts ih =>
    obtain ⟨⟨w₁, out₁⟩, hact, hrest⟩ := bind_eq_ok.mp hacts
    obtain ⟨⟨w₂, out₂⟩, hmore, heq⟩ := bind_eq_ok.mp hrest
    cases heq
    obtain ⟨hbooks, hacted⟩ := h.act hact
    obtain ⟨hbooks', hacted'⟩ := ih hbooks hmore
    rw [← List.append_assoc]
    exact ⟨hbooks', hacted.cons hact hacted'⟩

theorem Books.actAll_freed (h : Books w log) (hacts : w.actAll acts = .error .freed) :
    ¬ w.ActsOk acts := by
  induction acts generalizing w log with
  | nil => cases hacts
  | cons a acts ih =>
    rintro ⟨hok, hrest⟩
    rcases bind_eq_error.mp hacts with hact | ⟨⟨w₁, out₁⟩, hact, hmore⟩
    · exact h.act_freed hact hok
    · rcases bind_eq_error.mp hmore with hmore | ⟨⟨w₂, out₂⟩, -, heq⟩
      · exact ih (h.act hact).1 hmore (hrest w₁ out₁ hact)
      · cases heq

/-! ## What a tick does -/

theorem Books.called (h : Books w log) (handle : Nat) : Books w (log ++ [.called handle]) where
  sound := h.sound
  fresh := h.fresh
  pool := h.pool
  addrs := h.addrs
  apart := h.apart
  registered := h.registered
  functions := h.functions
  uData := h.uData
  infoCount i := by
    rw [List.count_append, h.infoCount i]
    rfl
  timerCount i := by
    rw [List.count_append, h.timerCount i]
    rfl

/-- What `luaScheduler` leaves of a `scheduleInfo` whose function has run. -/
def left (tr : ScheduleInfo) : Option ScheduleInfo :=
  if tr.repeatCount = -1 then some tr
  else if toInt (tr.repeatCount - 1) ≤ 0 then none
  else some { tr with repeatCount := toInt (tr.repeatCount - 1) }

theorem Books.luaSchedulerEnd (h : Books w log) (hi : w.infos t = some tr) :
    ∃ w' out, w.luaSchedulerEnd t = .ok (w', out) ∧ Books w' (log ++ out) ∧ w'.next = w.next ∧
      w'.timers = w.timers ∧ w'.infos = Function.update w.infos t (left tr) ∧
      (left tr = none → w'.functions tr.handle = false) := by
  simp only [Timers.luaSchedulerEnd, hi, left]
  split
  · refine ⟨w, [], rfl, by rwa [List.append_nil], rfl, rfl, ?_, fun hnone => by cases hnone⟩
    rw [← hi, Function.update_eq_self]
  · split
    · have hhandle : ({ tr with repeatCount := toInt (tr.repeatCount - 1) } :
          ScheduleInfo).handle = tr.handle := rfl
      obtain ⟨w', hrun, hbooks, hnext, htimers, hinfos, hfunction⟩ := h.releaseInfo hi hhandle
      exact ⟨w', _, hrun, hbooks, hnext, htimers, hinfos, fun _ => hfunction⟩
    · refine ⟨_, [], rfl, ?_, rfl, rfl, rfl, fun hnone => by cases hnone⟩
      rw [List.append_nil]
      exact h.setInfo hi _

/-- `luaScheduler` comes to its end when its function leaves its block alone. -/
theorem Books.luaScheduler (h : Books w log) (hrun : w.luaScheduler t acts = .ok (w', out)) :
    ∃ tr w₁, w.infos t = some tr ∧ .cancel t ∉ acts ∧ Acted w w₁ acts ∧ Books w' (log ++ out) ∧
      w'.next = w₁.next ∧ w'.timers = w₁.timers ∧
      w'.infos = Function.update w₁.infos t (left tr) ∧
      (left tr = none → w'.functions tr.handle = false) := by
  cases hi : w.infos t with
  | none =>
    rw [Timers.luaScheduler, hi] at hrun
    cases hrun
  | some tr =>
    simp only [Timers.luaScheduler, hi, executeLuaFunc, h.registered t tr hi, if_true] at hrun
    obtain ⟨p, hcall, hend⟩ := bind_eq_ok.mp hrun
    obtain ⟨⟨w₁, out₁⟩, hacts, heq⟩ := bind_eq_ok.mp hcall
    cases heq
    obtain ⟨⟨w₃, out₃⟩, hleft, heq⟩ := bind_eq_ok.mp hend
    cases heq
    obtain ⟨hbooks, hacted⟩ := (h.called tr.handle).actAll hacts
    by_cases hmem : .cancel t ∈ acts
    · -- the block is gone when it is looked at again
      simp only [Timers.luaSchedulerEnd, (hacted.cancelled t hmem).2] at hleft
      cases hleft
    · have hi₁ : w₁.infos t = some tr := (hacted.kept t (h.lt_of_info hi) hmem).2.trans hi
      obtain ⟨w₄, out₄, hrun₄, hbooks₄, hends⟩ := hbooks.luaSchedulerEnd hi₁
      rw [hrun₄] at hleft
      cases hleft
      refine ⟨tr, w₁, rfl, hmem, hacted, ?_, hends⟩
      simpa using hbooks₄

theorem Books.luaScheduler_freed (h : Books w log)
    (hrun : w.luaScheduler t acts = .error .freed) :
    ¬ ((w.infos t).isSome ∧ .cancel t ∉ acts ∧ w.ActsOk acts) := by
  rintro ⟨hsome, hmem, hok⟩
  obtain ⟨tr, hi⟩ := Option.isSome_iff_exists.mp hsome
  simp only [Timers.luaScheduler, hi, executeLuaFunc, h.registered t tr hi, if_true] at hrun
  rcases bind_eq_error.mp hrun with hcall | ⟨p, hcall, hend⟩
  · rcases bind_eq_error.mp hcall with hacts | ⟨q, -, heq⟩
    · exact h.actAll_freed hacts hok
    · cases heq
  · obtain ⟨⟨w₁, out₁⟩, hacts, heq⟩ := bind_eq_ok.mp hcall
    cases heq
    obtain ⟨hbooks, hacted⟩ := h.actAll hacts
    have hi₁ : w₁.infos t = some tr := (hacted.kept t (h.lt_of_info hi) hmem).2.trans hi
    obtain ⟨w₄, out₄, hrun₄, -⟩ := hbooks.luaSchedulerEnd hi₁
    rcases bind_eq_error.mp hend with hleft | ⟨⟨w₃, out₃⟩, -, heq⟩
    · rw [hrun₄] at hleft
      cases hleft
    · cases heq

/-- What `onUvTimer` has set when it calls `onTimer`. -/
def enteredTimer (tm : Timer) : Timer :=
  if tm.repeatCount < 0 then { tm with active := tm.repeatmsec ≠ 0 }
  else { tm with active := tm.repeatmsec ≠ 0, repeatCount := tm.repeatCount - 1 }

theorem entered_eq (ht : w.timers t = some tm) : w.entered t = w.setTimer t (enteredTimer tm) := by
  simp only [entered, ht, enteredTimer, due]
  split
  · rfl
  · simp only [Timers.setTimer, Function.update_idem]

/-- `onUvTimer` on a timer that is due. -/
theorem onUvTimer_due (ht : w.timers t = some tm) (hu : tm.uData = t) :
    (w.due t tm).onUvTimer t acts =
      if tm.repeatCount < 0 then (w.entered t).luaScheduler t acts
      else do
        let (w, out) ← (w.entered t).luaScheduler t acts
        let (w, more) ← w.onUvTimerEnd t
        return (w, out ++ more) := by
  have hdue : (w.due t tm).timers t = some { tm with active := tm.repeatmsec ≠ 0 } :=
    Function.update_self _ _ _
  simp only [onUvTimer, hdue, hu]
  split
  · rename_i hneg
    simp only [entered, ht, if_pos hneg]
  · rename_i hneg
    simp only [entered, ht, if_neg hneg, hu]

/-- What `onUvTimer` leaves of a timer. -/
def leftTimer (tm : Timer) : Option Timer :=
  if tm.repeatCount = 1 then none else some (enteredTimer tm)

/-- What a tick has done: to its own timer, and to the others through its
function. -/
structure Ticked (w w' : Timers) (t : Nat) (tm : Timer) (acts : List Act) : Prop where
  careful : w.Careful (.tick t acts)
  timer : w'.timers t = leftTimer tm
  info : ∃ tr, w.infos t = some tr ∧ w'.infos t = left tr ∧
    (left tr = none → w'.functions tr.handle = false)
  next_le : w.next ≤ w'.next
  others : ∀ i, i ≠ t → Settled w i → Settled w' i
  kept : ∀ i, i ≠ t → i < w.next → .cancel i ∉ acts →
    w'.timers i = w.timers i ∧ w'.infos i = w.infos i

/-- The books while the function of `t` runs. -/
theorem Books.entered (h : Books w log) (ht : w.timers t = some tm) :
    Books (w.entered t) log ∧ (w.entered t).timers t = some (enteredTimer tm) ∧
      (w.entered t).infos = w.infos ∧ (w.entered t).next = w.next ∧
      ∀ i, i ≠ t → (w.entered t).timers i = w.timers i := by
  rw [entered_eq ht]
  have hu : (enteredTimer tm).uData = t := by
    have hu := h.uData t tm ht
    unfold enteredTimer
    split <;> exact hu
  exact ⟨h.setTimer ht hu, Function.update_self _ _ _, rfl, rfl,
    fun i hit => Function.update_of_ne hit _ _⟩

/-- `luaScheduler` between the two halves of `onUvTimer`. -/
theorem Books.onTimer (h : Books w log) (ht : w.timers t = some tm)
    (hrun : (w.entered t).luaScheduler t acts = .ok (w', out)) :
    Books w' (log ++ out) ∧ w.Careful (.tick t acts) ∧ w'.timers t = some (enteredTimer tm) ∧
      (∃ tr, w.infos t = some tr ∧ w'.infos t = left tr ∧
        (left tr = none → w'.functions tr.handle = false)) ∧ w.next ≤ w'.next ∧
      (∀ i, i ≠ t → Settled w i → Settled w' i) ∧
      ∀ i, i ≠ t → i < w.next → .cancel i ∉ acts →
        w'.timers i = w.timers i ∧ w'.infos i = w.infos i := by
  obtain ⟨he, ht', hinfos', hnext', hothers'⟩ := h.entered ht
  obtain ⟨tr, w₁, hi, hmem, hacted, hbooks, hnext, htimers, hinfos, hfunction⟩ :=
    he.luaScheduler hrun
  obtain ⟨hkept, -⟩ := hacted.kept t (he.lt_of_info hi) hmem
  have hnext₁ := hacted.next_le
  rw [hinfos'] at hi
  refine ⟨hbooks, ⟨by rw [hi]; rfl, hmem, hacted.ok⟩, ?_, ⟨tr, hi, ?_, hfunction⟩, by omega, ?_, ?_⟩
  · rw [htimers, hkept, ht']
  · rw [hinfos, Function.update_self]
  · intro i hit hs
    have hs' := hs.congr (hothers' i hit) (congrFun hinfos' i)
    refine (hacted.settled i hs').congr (congrFun htimers i) ?_
    rw [hinfos, Function.update_of_ne hit]
  · intro i hit hlt hno
    obtain ⟨hti, hii⟩ := hacted.kept i (by omega) hno
    rw [htimers, hti, hothers' i hit, hinfos, Function.update_of_ne hit, hii, hinfos']
    exact ⟨rfl, rfl⟩

/-- **One tick** that comes to its end keeps the books. -/
theorem Books.tick (h : Books w log) (ht : w.timers t = some tm)
    (hrun : (w.due t tm).onUvTimer t acts = .ok (w', out)) :
    Books w' (log ++ out) ∧ Ticked w w' t tm acts := by
  rw [onUvTimer_due ht (h.uData t tm ht)] at hrun
  split at hrun
  · rename_i hneg
    obtain ⟨hbooks, hcareful, ht', hinfo, hnext, hothers, hkept⟩ := h.onTimer ht hrun
    refine ⟨hbooks, ⟨hcareful, ?_, hinfo, hnext, hothers, hkept⟩⟩
    rw [ht', leftTimer, if_neg (by omega)]
  · rename_i hneg
    obtain ⟨⟨w₂, out₂⟩, hsched, hend⟩ := bind_eq_ok.mp hrun
    obtain ⟨⟨w₃, out₃⟩, hfin, heq⟩ := bind_eq_ok.mp hend
    cases heq
    obtain ⟨hbooks, hcareful, ht', hinfo, hnext, hothers, hkept⟩ := h.onTimer ht hsched
    have hcount : (enteredTimer tm).repeatCount = tm.repeatCount - 1 := by
      rw [enteredTimer, if_neg hneg]
    simp only [onUvTimerEnd, ht', hcount] at hfin
    split at hfin
    · cases hfin
      rw [← List.append_assoc]
      refine ⟨hbooks.freeTimer ht', ⟨hcareful, ?_, hinfo, hnext, fun i hit hs => ?_,
        fun i hit hlt hno => ?_⟩⟩
      · rw [leftTimer, if_pos (by omega)]
        exact Function.update_self _ _ _
      · exact (hothers i hit hs).congr (Function.update_of_ne hit _ _) rfl
      · exact ⟨(Function.update_of_ne hit _ _).trans (hkept i hit hlt hno).1,
          (hkept i hit hlt hno).2⟩
    · cases hfin
      rw [List.append_nil]
      refine ⟨hbooks, ⟨hcareful, ?_, hinfo, hnext, hothers, hkept⟩⟩
      rw [ht', leftTimer, if_neg (by omega)]

/-- A timer that has ticked is settled again. -/
theorem Ticked.settled (h : Ticked w w' t tm acts) (hs : Settled w t)
    (ht : w.timers t = some tm) : Settled w' t := by
  obtain ⟨tr, hi, hi', -⟩ := h.info
  have ht' := h.timer
  cases hs with
  | ended htn _ =>
    rw [ht] at htn
    cases htn
  | endless htn hneg =>
    rw [ht] at htn
    cases htn
    rw [leftTimer, if_neg (by omega), enteredTimer, if_pos hneg] at ht'
    exact .endless ht' hneg
  | counting htn hin hpos hlt heq =>
    rw [ht] at htn
    cases htn
    rw [hi] at hin
    cases hin
    have hpred : toInt (tr.repeatCount - 1) = tr.repeatCount - 1 :=
      toInt_pred (by omega) (by omega)
    rw [left, if_neg (by omega), hpred] at hi'
    rw [leftTimer] at ht'
    by_cases hone : tm.repeatCount = 1
    · rw [if_pos (by omega)] at hi'
      rw [if_pos hone] at ht'
      exact .ended ht' hi'
    · rw [if_neg (by omega)] at hi'
      rw [if_neg hone, enteredTimer, if_neg (by omega)] at ht'
      exact .counting ht' hi' (by simp only; omega) (by simp only; omega) (by simp only; omega)

theorem Books.tick_freed (h : Books w log) (ht : w.timers t = some tm)
    (hrun : (w.due t tm).onUvTimer t acts = .error .freed) : ¬ w.Careful (.tick t acts) := by
  obtain ⟨he, -, hinfos, -⟩ := h.entered ht
  have hfreed : (w.entered t).luaScheduler t acts = .error .freed → ¬ w.Careful (.tick t acts) := by
    intro hsched hcareful
    refine he.luaScheduler_freed hsched ⟨?_, hcareful.2⟩
    rw [hinfos]
    exact hcareful.1
  rw [onUvTimer_due ht (h.uData t tm ht)] at hrun
  split at hrun
  · exact hfreed hrun
  · rcases bind_eq_error.mp hrun with hsched | ⟨⟨w₂, out₂⟩, hsched, hend⟩
    · exact hfreed hsched
    · -- the timer is still there when `onUvTimer` looks at it again
      obtain ⟨-, -, ht', -⟩ := h.onTimer ht hsched
      rcases bind_eq_error.mp hend with hfin | ⟨p, -, heq⟩
      · simp only [onUvTimerEnd, ht'] at hfin
        split at hfin <;> cases hfin
      · cases heq

/-! ## Runs -/

/-- The timers between two events. -/
structure InOrder (w : Timers) (log : List Effect) : Prop where
  books : Books w log
  settled : ∀ i, Settled w i

theorem InOrder.handle (h : InOrder w log) {e : TimerEvent} (hrun : w.handle e = .ok (w', out)) :
    InOrder w' (log ++ out) ∧ w.Careful e := by
  cases e with
  | lua a =>
    obtain ⟨hbooks, hacted⟩ := h.books.act hrun
    exact ⟨⟨hbooks, fun i => hacted.settled i (h.settled i)⟩, hacted.ok.1⟩
  | tick t acts =>
    cases ht : w.timers t with
    | none =>
      simp only [Timers.handle, ht] at hrun
      cases hrun
    | some tm =>
      simp only [Timers.handle, ht] at hrun
      split at hrun
      · obtain ⟨hbooks, hticked⟩ := h.books.tick ht hrun
        refine ⟨⟨hbooks, fun i => ?_⟩, hticked.careful⟩
        by_cases hit : i = t
        · rw [hit]
          exact hticked.settled (h.settled t) ht
        · exact hticked.others i hit (h.settled i)
      · cases hrun

theorem InOrder.handle_freed (h : InOrder w log) {e : TimerEvent}
    (hrun : w.handle e = .error .freed) : ¬ w.Careful e := by
  cases e with
  | lua a => exact h.books.act_freed hrun
  | tick t acts =>
    cases ht : w.timers t with
    | none =>
      simp only [Timers.handle, ht] at hrun
      cases hrun
    | some tm =>
      simp only [Timers.handle, ht] at hrun
      split at hrun
      · exact h.books.tick_freed ht hrun
      · cases hrun

theorem InOrder.safe (h : InOrder w log) : Safe w log where
  sound := h.books.sound
  once i := by
    rw [h.books.infoCount i, h.books.timerCount i]
    constructor <;> split <;> decide
  ended i hlt ht := by
    have hi : w.infos i = none := by
      cases h.settled i with
      | ended _ hi => exact hi
      | endless ht' _ =>
        rw [ht] at ht'
        cases ht'
      | counting ht' _ _ _ _ =>
        rw [ht] at ht'
        cases ht'
    rw [h.books.infoCount i, h.books.timerCount i, if_pos ⟨hlt, hi⟩, if_pos ⟨hlt, ht⟩]
    exact ⟨rfl, rfl⟩
  functions handle hh := by
    obtain ⟨-, i, tr, hi, rfl⟩ := h.books.functions handle hh
    have htimer : ∃ tm, w.timers i = some tm := by
      cases h.settled i with
      | ended _ hin =>
        rw [hi] at hin
        cases hin
      | endless ht' _ => exact ⟨_, ht'⟩
      | counting ht' _ _ _ _ => exact ⟨_, ht'⟩
    obtain ⟨tm, ht⟩ := htimer
    exact ⟨i, tm, tr, ht, hi, rfl⟩
  freeList := by
    obtain ⟨free, hpool⟩ := h.books.pool
    exact ⟨free, hpool.integrity⟩

/-- Nothing comes after a use of a freed block. -/
theorem sound_of_record {c c' : Timers × List Effect} {e : TimerEvent}
    (hrecord : record step c e = some c') : c.1.broken = false := by
  obtain ⟨w', out, hstep, -⟩ := record_eq_some.mp hrecord
  cases hb : c.1.broken with
  | false => rfl
  | true =>
    rw [step, hb] at hstep
    cases hstep

/-- An event keeps the order, or something is used after it was freed. -/
theorem record_inOrder {c c' : Timers × List Effect} {e : TimerEvent}
    (h : c.1.broken = false → InOrder c.1 c.2) (hrecord : record step c e = some c') :
    (c'.1.broken = false → InOrder c'.1 c'.2) ∧
      (c'.1.broken = false ↔ c.1.broken = false ∧ c.1.Careful e) := by
  have hsound := sound_of_record hrecord
  obtain ⟨w', out, hstep, rfl⟩ := record_eq_some.mp hrecord
  have horder := h hsound
  rw [step, hsound] at hstep
  simp only [Bool.false_eq_true, if_false] at hstep
  split at hstep
  · rename_i r hrun
    cases hstep
    obtain ⟨horder', hcareful⟩ := horder.handle hrun
    exact ⟨fun _ => horder', iff_of_true horder'.books.sound ⟨hsound, hcareful⟩⟩
  · rename_i hrun
    cases hstep
    have hnot := horder.handle_freed hrun
    refine ⟨fun hb => absurd hb (by simp), iff_of_false (by simp) fun hc => hnot hc.2⟩
  · cases hstep

theorem InOrder.start {cacheMem : Nat} (harena : Arena cacheMem SMALLCACHENUM SMALLCACHE)
    (mem : Mem) : InOrder (start cacheMem mem) [] :=
  ⟨.start harena mem, fun _ => .ended rfl rfl⟩

theorem run_inOrder {c c' : Timers × List Effect} {events : List TimerEvent}
    (h : c.1.broken = false → InOrder c.1 c.2) (hrun : run step c events = some c') :
    c'.1.broken = false → InOrder c'.1 c'.2 :=
  run_invariant (P := fun _ _ => True) (I := fun c => c.1.broken = false → InOrder c.1 c.2)
    (fun _ _ _ h _ hrecord => (record_inOrder h hrecord).1) h (along_true _ _) hrun

/-- **Cancelling is safe** over every order of ticks and cancels exactly as
long as no function cancels its own timer, and no tick and no cancel comes to
a timer that has lost its `scheduleInfo`. -/
theorem timer_cancels {cacheMem : Nat} (harena : Arena cacheMem SMALLCACHENUM SMALLCACHE)
    (mem : Mem) {events : List TimerEvent} {c : Timers × List Effect}
    (hrun : run step (start cacheMem mem, []) events = some c) :
    Safe c.1 c.2 ↔ Along step (fun c e => c.1.Careful e) (start cacheMem mem, []) events := by
  have horder := InOrder.start harena mem
  have hinv := run_inOrder (fun _ => horder) hrun
  have hiff := run_iff_along (I := fun c : Timers × List Effect => c.1.broken = false →
    InOrder c.1 c.2) (R := fun c => c.1.broken = false) (P := fun c e => c.1.Careful e)
    (fun c e c' h hrecord => record_inOrder h hrecord) (fun _ => horder) hrun
  constructor
  · intro hsafe
    exact (hiff.mp hsafe.sound).2
  · intro halong
    exact (hinv (hiff.mpr ⟨rfl, halong⟩)).safe

/-- Three ticks of a timer and one of another, which its function cancels; the
last tick finds both over. -/
def careful : List TimerEvent :=
  [.lua (.scheduleRepeat true 10 3 5 0), .lua (.scheduleRepeat true 10 (-1) 0 0), .tick 0 [],
    .tick 1 [], .tick 0 [.cancel 1, .scheduleOnce true 7 0], .tick 0 [], .lua (.cancel 2)]

theorem timer_cancels_careful : ∃ c,
    run step (start 65536 fun _ => 0, []) careful = some c ∧ c.1.next = 3 ∧ Safe c.1 c.2 := by
  obtain ⟨hobs, halong⟩ : (run step (start 65536 fun _ => 0, []) careful).map (fun c => c.1.next) =
      some 3 ∧ Along step (fun c e => c.1.Careful e) (start 65536 fun _ => 0, []) careful := by
    decide +kernel
  obtain ⟨c, hrun, hnext⟩ := Option.map_eq_some_iff.mp hobs
  have harena : Arena 65536 SMALLCACHENUM SMALLCACHE := ⟨by decide, by decide, by decide⟩
  exact ⟨c, hrun, hnext, (timer_cancels harena _ hrun).mpr halong⟩

/-- A function cancels its own timer, in its first tick of an endless one. -/
theorem timer_cancels_own : ∃ c,
    run step (start 65536 fun _ => 0, [])
        [.lua (.scheduleRepeat true 10 (-1) 10 0), .tick 0 [.cancel 0]] = some c ∧
      ¬ Safe c.1 c.2 := by
  have hobs : (run step (start 65536 fun _ => 0, [])
      [.lua (.scheduleRepeat true 10 (-1) 10 0), .tick 0 [.cancel 0]]).map (fun c => c.1.broken) =
        some true := by
    decide +kernel
  obtain ⟨c, hrun, hbroken⟩ := Option.map_eq_some_iff.mp hobs
  refine ⟨c, hrun, fun hsafe => ?_⟩
  rw [hsafe.sound] at hbroken
  cases hbroken

end LibuvServer.Mylua.Timers
