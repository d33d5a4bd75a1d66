import LibuvServer.Database.Outcomes
import Mathlib.Tactic.Common

/-!
# Queries and their functions

What comes of the function a query was given, whatever else happens to the
context and to the function table meanwhile (`Progress`). The function is
known by its reference, which no other call gets.
-/

namespace LibuvServer.Database

open LibuvServer.Lib LibuvServer.Lib.LuaStack LibuvServer.Netbus LibuvServer.Mylua

variable {d : Driver} {c c' : State d × List (Entry d)} {n : Nat}

/-! ## One function -/

/-- The function an entry is about. -/
def Entry.handler? : Entry d → Option Nat
  | .called handler _ _ _ | .outcome handler _ _ | .func handler _ _ _ => some handler
  | .read _ _ | .destroyed | .freed => none

def Entry.func? : Entry d → Option (Nat × LuaStackValue × LuaStackValue)
  | .func _ f err res => some (f, err, res)
  | .called _ _ _ _ | .read _ _ | .destroyed | .freed | .outcome _ _ _ => none

/-- What is seen of function `n`. -/
def seenOf (n : Nat) (trace : List (Entry d)) : List (Entry d) :=
  trace.filter (·.handler? = some n)

/-- The calls of function `n`. -/
def calls (n : Nat) (trace : List (Entry d)) : List (Nat × LuaStackValue × LuaStackValue) :=
  (seenOf n trace).filterMap Entry.func?

def Item.handler? (item : Item d) : Option Nat :=
  match item.work with
  | .query r => some r.handler
  | .close => none

/-- The function has been called once, with an error or with a result, and its
reference is gone. -/
structure Answered (n f : Nat) (c : State d × List (Entry d)) : Prop where
  once : ∃ err res, calls n c.2 = [(f, err, res)] ∧ isNil err ≠ isNil res
  removed : c.1.funcs.lookup n = none

/-- The context was open, the worker had its connection, and what the driver
gave is clean. -/
def Answerable (d : Driver) (text : Bytes) (accepted : Bool) (ended : List (d.Outcome × Bool)) :
    Prop :=
  accepted = true ∧ ∃ o, ended = [(o, true)] ∧ Clean d text o

/-- Item `i` is the query with function `n`, and there is no other. -/
structure Owns (n : Nat) (text : Bytes) (items : List (Item d)) (i : Nat) (item : Item d) :
    Prop where
  get : items[i]? = some item
  work : item.work = .query ⟨text, n⟩
  only : ∀ (j : Nat) (x : Item d), items[j]? = some x → x.handler? = some n → j = i

/-- There is no query with function `n`. -/
def Unowned (n : Nat) (items : List (Item d)) : Prop :=
  ∀ (i : Nat) (item : Item d), items[i]? = some item → item.handler? ≠ some n

def Phase.early : Phase → Bool
  | .queued | .started | .locked => true
  | .worked | .unlocked | .completed => false

/-- How far a call with function `n` has come, and everything seen of it. -/
inductive Progress (n : Nat) (c : State d × List (Entry d)) : Prop where
  | silent : Unowned n c.1.items → seenOf n c.2 = [] → Progress n c
  | refused {f : Nat} {text : Bytes} : n ≤ c.1.refid → Unowned n c.1.items →
      seenOf n c.2 = [.called n f text false] → Progress n c
  | waiting {f : Nat} {text : Bytes} {i : Nat} {item : Item d} : n ≤ c.1.refid →
      Owns n text c.1.items i item → item.phase.early = true → c.1.fault ≠ some i →
      c.1.funcs.lookup n = some f → seenOf n c.2 = [.called n f text true] → Progress n c
  | lost {f : Nat} {text : Bytes} {i : Nat} {o : d.Outcome} {conn : Bool} : c.1.fault = some i →
      (conn = true → d.queryWork text o = none) →
      seenOf n c.2 = [.called n f text true, .outcome n o conn] → Progress n c
  | worked {f : Nat} {text : Bytes} {i : Nat} {item : Item d} {o : d.Outcome} : n ≤ c.1.refid →
      Owns n text c.1.items i item → item.phase = .worked ∨ item.phase = .unlocked →
      c.1.fault ≠ some i → c.1.funcs.lookup n = some f →
      d.queryWork text o = some item.answer →
      seenOf n c.2 = [.called n f text true, .outcome n o true] → Progress n c
  | stuck {f : Nat} {text : Bytes} {i : Nat} {o : d.Outcome} {answer : d.Answer} :
      c.1.fault = some i → d.queryWork text o = some answer → ¬ HandsOn d answer →
      seenOf n c.2 = [.called n f text true, .outcome n o true] → Progress n c
  | answered {f : Nat} {text : Bytes} {i : Nat} {item : Item d} {o : d.Outcome}
      {answer : d.Answer} {err res : LuaStackValue} {rest : Stack} : n ≤ c.1.refid →
      Owns n text c.1.items i item → item.phase = .completed → c.1.funcs.lookup n = none →
      d.queryWork text o = some answer → d.operationQue answer [] = some (res :: err :: rest) →
      seenOf n c.2 = [.called n f text true, .outcome n o true, .func n f err res] → Progress n c

theorem seenOf_append (n : Nat) (trace more : List (Entry d)) :
    seenOf n (trace ++ more) = seenOf n trace ++ seenOf n more := List.filter_append _ _

theorem seenOf_reads (n : Nat) (item : Item d) (i : Nat) (parts : List Part) :
    seenOf n (item.reads i parts) = [] := by
  rw [seenOf, List.filter_eq_nil_iff, Item.reads]
  intro e he
  split at he
  · obtain ⟨part, -, rfl⟩ := List.mem_map.mp he
    simp [Entry.handler?]
  · cases he

/-! ## Other functions -/

/-- What an event does that is not about function `n`. -/
theorem Progress.congr (h : Progress n c) (hnone : c.1.fault = none)
    (hrefid : c.1.refid ≤ c'.1.refid)
    (hitems : ∀ (i : Nat) (x : Item d), x.handler? = some n →
      (c'.1.items[i]? = some x ↔ c.1.items[i]? = some x))
    (hfault : ∀ (i : Nat) (x : Item d), c.1.items[i]? = some x → x.handler? = some n →
      c'.1.fault ≠ some i)
    (hlookup : c'.1.funcs.lookup n = c.1.funcs.lookup n) (hseen : seenOf n c'.2 = seenOf n c.2) :
    Progress n c' := by
  have hno : Unowned n c.1.items → Unowned n c'.1.items :=
    fun hq i x hx hn => hq i x ((hitems i x hn).mp hx) hn
  have howns : ∀ {text i item}, Owns n text c.1.items i item →
      item.handler? = some n ∧ Owns n text c'.1.items i item := by
    intro text i item ho
    have hn : item.handler? = some n := by rw [Item.handler?, ho.work]
    exact ⟨hn, (hitems i item hn).mpr ho.get, ho.work,
      fun j x hx hxn => ho.only j x ((hitems j x hxn).mp hx) hxn⟩
  cases h with
  | silent hq hs => exact .silent (hno hq) (hseen.trans hs)
  | refused hn hq hs => exact .refused (Nat.le_trans hn hrefid) (hno hq) (hseen.trans hs)
  | waiting hn ho hp hf hl hs =>
    obtain ⟨hown, ho'⟩ := howns ho
    exact .waiting (Nat.le_trans hn hrefid) ho' hp (hfault _ _ ho.get hown) (hlookup.trans hl)
      (hseen.trans hs)
  | lost hf => rw [hnone] at hf; cases hf
  | worked hn ho hp hf hl hw hs =>
    obtain ⟨hown, ho'⟩ := howns ho
    exact .worked (Nat.le_trans hn hrefid) ho' hp (hfault _ _ ho.get hown) (hlookup.trans hl) hw
      (hseen.trans hs)
  | stuck hf => rw [hnone] at hf; cases hf
  | answered hn ho hp hl hw hq hs =>
    obtain ⟨-, ho'⟩ := howns ho
    exact .answered (Nat.le_trans hn hrefid) ho' hp (hlookup.trans hl) hw hq (hseen.trans hs)

theorem items_set_other {items : List (Item d)} {j : Nat} {item item' : Item d}
    (hget : items[j]? = some item) (hne : item.handler? ≠ some n)
    (hsame : item'.handler? = item.handler?) (i : Nat) (x : Item d) (hx : x.handler? = some n) :
    (items.set j item')[i]? = some x ↔ items[i]? = some x := by
  by_cases hij : j = i
  · subst hij
    have hlt := (List.getElem?_eq_some_iff.mp hget).1
    rw [List.getElem?_set_self hlt, hget, Option.some.injEq, Option.some.injEq]
    constructor
    · rintro rfl
      exact absurd (hsame.symm.trans hx) hne
    · rintro rfl
      exact absurd hx hne
  · rw [List.getElem?_set_ne hij]

theorem items_append_other {items : List (Item d)} {item : Item d} (hne : item.handler? ≠ some n)
    (i : Nat) (x : Item d) (hx : x.handler? = some n) :
    (items ++ [item])[i]? = some x ↔ items[i]? = some x := by
  rw [List.getElem?_append]
  split
  · rfl
  · rename_i hle
    rw [List.getElem?_eq_none (by omega : items.length ≤ i)]
    constructor
    · intro hlast
      obtain rfl := List.mem_singleton.mp (List.mem_of_getElem? hlast)
      exact absurd hx hne
    · intro hnone
      cases hnone

theorem ne_fault {s : State d} (hnone : s.fault = none) (i : Nat) : s.fault ≠ some i := by
  simp [hnone]

/-- The handling of another item goes wrong. -/
theorem fault_other {items : List (Item d)} {j : Nat} {item : Item d}
    (hget : items[j]? = some item) (hne : item.handler? ≠ some n) (i : Nat) (x : Item d)
    (hx : items[i]? = some x) (hn : x.handler? = some n) : some j ≠ some i := by
  rintro heq
  cases heq
  rw [hget, Option.some.injEq] at hx
  exact hne (hx ▸ hn)

theorem lookup_remove (funcs : List (Nat × Nat)) (m : Nat) :
    (funcs.filter (·.1 ≠ m)).lookup n = if n = m then none else funcs.lookup n := by
  induction funcs with
  | nil => simp
  | cons func funcs ih =>
    obtain ⟨k, f⟩ := func
    rw [List.filter_cons]
    by_cases hk : k = m
    · rw [if_neg (by simp [hk]), ih]
      by_cases hn : n = m
      · rw [if_pos hn, if_pos hn]
      · have hne : (n == k) = false := by simp [hk, hn]
        rw [if_neg hn, if_neg hn, List.lookup_cons, hne]
    · rw [if_pos (by simp [hk]), List.lookup_cons, List.lookup_cons, ih]
      cases hnk : n == k with
      | true =>
        have hn : n ≠ m := fun hnm => hk ((beq_iff_eq.mp hnk).symm.trans hnm)
        simp only [if_neg hn]
      | false => rfl

/-! ## Its own item -/

theorem Owns.handler {text : Bytes} {items : List (Item d)} {i : Nat} {item : Item d}
    (h : Owns n text items i item) : item.handler? = some n := by
  rw [Item.handler?, h.work]

theorem Owns.unique {text : Bytes} {items : List (Item d)} {i j : Nat} {item x : Item d}
    (h : Owns n text items i item) (hget : items[j]? = some x) (hn : x.handler? = some n) :
    j = i ∧ x = item := by
  obtain rfl := h.only j x hget hn
  refine ⟨rfl, ?_⟩
  have hitem := h.get
  rw [hget, Option.some.injEq] at hitem
  exact hitem

theorem Owns.set {text : Bytes} {items : List (Item d)} {i : Nat} {item item' : Item d}
    (h : Owns n text items i item) (hwork : item'.work = item.work) :
    Owns n text (items.set i item') i item' := by
  refine ⟨?_, hwork.trans h.work, fun j x hx hn => ?_⟩
  · exact List.getElem?_set_self (List.getElem?_eq_some_iff.mp h.get).1
  · by_contra hne
    rw [List.getElem?_set_ne (Ne.symm hne)] at hx
    exact hne (h.only j x hx hn)

/-- An item starts, gets the lock or gives it back. -/
theorem Progress.moves (h : Progress n c) (hnone : c.1.fault = none) {i : Nat} {item : Item d}
    (hget : c.1.items[i]? = some item) {phase : Phase}
    (hphase : item.phase.early = true ∧ phase.early = true ∨
      item.phase = .worked ∧ phase = .unlocked) (lock : Option Nat) (parts : List Part) :
    Progress n ({ c.1.setItem i { item with phase := phase } with lock := lock },
      c.2 ++ item.reads i parts) := by
  have hseen : seenOf n (c.2 ++ item.reads i parts) = seenOf n c.2 := by
    rw [seenOf_append, seenOf_reads, List.append_nil]
  by_cases hn : item.handler? = some n
  · cases h with
    | silent hq => exact absurd hn (hq i item hget)
    | refused _ hq => exact absurd hn (hq i item hget)
    | waiting hle ho hp hf hl hs =>
      obtain ⟨rfl, rfl⟩ := ho.unique hget hn
      rcases hphase with ⟨-, hearly⟩ | ⟨hworked, -⟩
      · exact .waiting hle (ho.set rfl) hearly hf hl (hseen.trans hs)
      · rw [hworked] at hp
        cases hp
    | lost hf =>
      rw [hnone] at hf
      cases hf
    | worked hle ho hp hf hl hw hs =>
      obtain ⟨rfl, rfl⟩ := ho.unique hget hn
      rcases hphase with ⟨hearly, -⟩ | ⟨-, hunlocked⟩
      · rcases hp with hp | hp <;> rw [hp] at hearly <;> cases hearly
      · exact .worked hle (ho.set rfl) (.inr hunlocked) hf hl hw (hseen.trans hs)
    | stuck hf =>
      rw [hnone] at hf
      cases hf
    | answered hle ho hp =>
      obtain ⟨rfl, rfl⟩ := ho.unique hget hn
      rw [hp] at hphase
      rcases hphase with ⟨hearly, -⟩ | ⟨hworked, -⟩
      · cases hearly
      · cases hworked
  · exact h.congr hnone (Nat.le_refl _) (items_set_other hget hn rfl)
      (fun j _ _ _ => ne_fault hnone j) rfl hseen

/-! ## Events -/

variable {s : State d} {out : List (Entry d)}

theorem request_handler {args : Args} {m : Nat} {r : Request} (h : args.request d m = some r) :
    r.handler = m := by
  unfold Args.request at h
  split at h
  · obtain ⟨text, -, rfl⟩ := Option.map_eq_some_iff.mp h
    rfl
  · cases h

theorem handler_query (r : Request) : ((Work.query r).item : Item d).handler? = some r.handler :=
  rfl

/-- Nothing is known of a reference that has not been given out. -/
theorem Progress.fresh (h : Progress n c) (hnone : c.1.fault = none) (hnew : c.1.refid < n) :
    Unowned n c.1.items ∧ seenOf n c.2 = [] := by
  cases h with
  | silent hq hs => exact ⟨hq, hs⟩
  | refused hle => omega
  | waiting hle => omega
  | worked hle => omega
  | answered hle => omega
  | lost hf =>
    rw [hnone] at hf
    cases hf
  | stuck hf =>
    rw [hnone] at hf
    cases hf

theorem Owns.queued {items : List (Item d)} (h : Unowned n items) (text : Bytes) :
    Owns n text (items ++ [(Work.query ⟨text, n⟩).item]) items.length
      (Work.query ⟨text, n⟩).item := by
  refine ⟨List.getElem?_concat_length, rfl, fun j x hx hn => ?_⟩
  rw [List.getElem?_append] at hx
  split at hx
  · exact absurd hn (h j x hx)
  · have hlt := (List.getElem?_eq_some_iff.mp hx).1
    rw [List.length_singleton] at hlt
    omega

/-- **A query is asked for**, and its function gets a new reference. -/
theorem Progress.query (h : Progress n c) (hn : n ≠ 0) (hnone : c.1.fault = none) {args : Args}
    {stale : Bool} (hs : c.1.query args stale = (s, out)) : Progress n (s, c.2 ++ out) := by
  have hfault : ∀ (i : Nat) (x : Item d), c.1.items[i]? = some x → x.handler? = some n →
      c.1.fault ≠ some i := fun i _ _ _ => ne_fault hnone i
  unfold State.query at hs
  cases hfunc : args.func with
  | none =>
    simp only [hfunc, State.refFunction] at hs
    split at hs
    · obtain ⟨rfl, rfl⟩ := Prod.mk.inj hs
      rw [List.append_nil]
      exact h
    · rename_i r hreq
      obtain ⟨rfl, rfl⟩ := Prod.mk.inj hs
      have hzero : (Work.query r).item.handler? (d := d) ≠ some n := by
        rw [handler_query, request_handler hreq, ne_eq, Option.some.injEq]
        exact Ne.symm hn
      show Progress n (_, c.2 ++ [])
      rw [List.append_nil, State.managerQuery]
      split
      · exact h
      · exact h.congr hnone (Nat.le_refl _) (items_append_other hzero) hfault rfl rfl
  | some f =>
    simp only [hfunc, State.refFunction] at hs
    by_cases hnew : n = c.1.refid + 1
    · -- the new reference is its own
      obtain ⟨hunowned, hsilent⟩ := h.fresh hnone (by omega)
      split at hs
      · obtain ⟨rfl, rfl⟩ := Prod.mk.inj hs
        rw [List.append_nil]
        exact .silent hunowned hsilent
      · rename_i r hreq
        obtain ⟨rfl, rfl⟩ := Prod.mk.inj hs
        obtain ⟨text, m⟩ := r
        obtain rfl : m = c.1.refid + 1 := request_handler hreq
        subst hnew
        have hseen : ∀ accepted, seenOf (c.1.refid + 1)
            (c.2 ++ [.called (c.1.refid + 1) f text accepted]) =
              [.called (c.1.refid + 1) f text accepted] := by
          intro accepted
          rw [seenOf_append, hsilent]
          simp [seenOf, Entry.handler?]
        have hlookup : List.lookup (c.1.refid + 1) ((c.1.refid + 1, f) :: c.1.funcs) = some f := by
          rw [List.lookup_cons, beq_self_eq_true]
        have hsame : State.closedAs { c.1 with
            funcs := (c.1.refid + 1, f) :: c.1.funcs, refid := c.1.refid + 1 } stale =
              c.1.closedAs stale := rfl
        rw [State.managerQuery, hsame]
        cases hclosed : c.1.closedAs stale with
        | true => exact .refused (Nat.le_refl _) hunowned (hseen false)
        | false =>
          exact .waiting (Nat.le_refl _) (.queued hunowned text) rfl (ne_fault hnone _) hlookup
            (hseen true)
    · have hlookup : List.lookup n ((c.1.refid + 1, f) :: c.1.funcs) = c.1.funcs.lookup n := by
        rw [List.lookup_cons, beq_eq_false_iff_ne.mpr hnew]
      split at hs
      · obtain ⟨rfl, rfl⟩ := Prod.mk.inj hs
        rw [List.append_nil]
        exact h.congr hnone (Nat.le_succ _) (fun _ _ _ => Iff.rfl) hfault hlookup rfl
      · rename_i r hreq
        obtain ⟨rfl, rfl⟩ := Prod.mk.inj hs
        have hne : some r.handler ≠ some n := by
          rw [request_handler hreq, ne_eq, Option.some.injEq]
          exact Ne.symm hnew
        have hseen : seenOf n (c.2 ++ (some f).toList.map fun f =>
            (.called r.handler f r.text (!c.1.closedAs stale) : Entry d)) = seenOf n c.2 := by
          rw [seenOf_append]
          simp [seenOf, Entry.handler?, hne]
        unfold State.managerQuery
        split
        · exact h.congr hnone (Nat.le_succ _) (fun _ _ _ => Iff.rfl) hfault hlookup hseen
        · exact h.congr hnone (Nat.le_succ _) (items_append_other hne) hfault hlookup hseen

/-- **The driver has answered**, or the worker has not survived it. -/
theorem Progress.queryWork (h : Progress n c) (hnone : c.1.fault = none) {i : Nat} {item : Item d}
    {r : Request} (hget : c.1.items[i]? = some item) (hwork : item.work = .query r)
    (hphase : item.phase = .locked) {o : d.Outcome} (hs : c.1.queryWork i item r o = (s, out)) :
    Progress n (s, c.2 ++ out) := by
  have hr : item.handler? = some r.handler := by rw [Item.handler?, hwork]
  unfold State.queryWork at hs
  simp only at hs
  by_cases hn : r.handler = n
  · have hown : item.handler? = some n := by rw [hr, hn]
    cases h with
    | silent hq => exact absurd hown (hq i item hget)
    | refused _ hq => exact absurd hown (hq i item hget)
    | @waiting f text _ _ hle ho _ hf hl hseen =>
      obtain ⟨rfl, rfl⟩ := ho.unique hget hown
      cases hwork.symm.trans ho.work
      have hseen' : seenOf n (c.2 ++ [.read i .connection, .outcome n o c.1.conn]) =
          [.called n f text true, .outcome n o c.1.conn] := by
        rw [seenOf_append, hseen]
        simp [seenOf, Entry.handler?]
      split at hs
      · rename_i hlost
        obtain ⟨rfl, rfl⟩ := Prod.mk.inj hs
        refine .lost rfl (fun hon => ?_) hseen'
        rwa [if_pos hon] at hlost
      · rename_i answer hanswer
        obtain ⟨rfl, rfl⟩ := Prod.mk.inj hs
        obtain ⟨hon, hanswer⟩ := Option.ite_none_right_eq_some.mp hanswer
        rw [hon] at hseen'
        exact .worked hle (ho.set rfl) (.inl rfl) hf hl hanswer (by rw [hon]; exact hseen')
    | worked _ ho hp =>
      obtain ⟨rfl, rfl⟩ := ho.unique hget hown
      rw [hphase] at hp
      rcases hp with hp | hp <;> cases hp
    | answered _ ho hp =>
      obtain ⟨rfl, rfl⟩ := ho.unique hget hown
      rw [hphase] at hp
      cases hp
    | lost hf =>
      rw [hnone] at hf
      cases hf
    | stuck hf =>
      rw [hnone] at hf
      cases hf
  · have hne : item.handler? ≠ some n := by
      rw [hr, ne_eq, Option.some.injEq]
      exact hn
    have hseen : seenOf n (c.2 ++ [.read i .connection, .outcome r.handler o c.1.conn]) =
        seenOf n c.2 := by
      rw [seenOf_append]
      simp [seenOf, Entry.handler?, hn]
    split at hs
    · obtain ⟨rfl, rfl⟩ := Prod.mk.inj hs
      exact h.congr hnone (Nat.le_refl _) (fun _ _ _ => Iff.rfl) (fault_other hget hne) rfl hseen
    · obtain ⟨rfl, rfl⟩ := Prod.mk.inj hs
      exact h.congr hnone (Nat.le_refl _) (items_set_other hget hne rfl)
        (fun j _ _ _ => ne_fault hnone j) rfl hseen

/-- **A query is over.** -/
theorem Progress.queryComplete (h : Progress n c) (hnone : c.1.fault = none) {i : Nat}
    {item : Item d} {r : Request} (hget : c.1.items[i]? = some item)
    (hwork : item.work = .query r) (hphase : item.phase = .unlocked)
    (hs : c.1.queryComplete i item r = (s, out)) : Progress n (s, c.2 ++ out) := by
  have hr : item.handler? = some r.handler := by rw [Item.handler?, hwork]
  unfold State.queryComplete at hs
  by_cases hn : r.handler = n
  · have hown : item.handler? = some n := by rw [hr, hn]
    cases h with
    | silent hq => exact absurd hown (hq i item hget)
    | refused _ hq => exact absurd hown (hq i item hget)
    | waiting _ ho hp =>
      obtain ⟨rfl, rfl⟩ := ho.unique hget hown
      rw [hphase] at hp
      cases hp
    | @worked f text _ _ o hle ho _ hf hl hw hseen =>
      obtain ⟨rfl, rfl⟩ := ho.unique hget hown
      cases hwork.symm.trans ho.work
      split at hs
      · rename_i hstuck
        obtain ⟨rfl, rfl⟩ := Prod.mk.inj hs
        rw [List.append_nil]
        refine .stuck rfl hw ?_ hseen
        rintro ⟨res, err, rest, hque, -⟩
        rw [hque, Option.bind_some] at hstuck
        simp [State.executeLuaFunc, hl] at hstuck
      · rename_i seen hcall
        obtain ⟨rfl, rfl⟩ := Prod.mk.inj hs
        obtain ⟨stack, hque, hcall⟩ := Option.bind_eq_some_iff.mp hcall
        simp only [State.executeLuaFunc, hl] at hcall
        split at hcall
        · rename_i res err rest
          cases hcall
          have hseen' : seenOf n (c.2 ++ [.func n f err res]) =
              [.called n f text true, .outcome n o true, .func n f err res] := by
            rw [seenOf_append, hseen]
            simp [seenOf, Entry.handler?]
          exact .answered hle (ho.set rfl) rfl ((lookup_remove c.1.funcs n).trans (if_pos rfl)) hw
            hque hseen'
        · cases hcall
    | answered _ ho hp =>
      obtain ⟨rfl, rfl⟩ := ho.unique hget hown
      rw [hphase] at hp
      cases hp
    | lost hf =>
      rw [hnone] at hf
      cases hf
    | stuck hf =>
      rw [hnone] at hf
      cases hf
  · have hne : item.handler? ≠ some n := by
      rw [hr, ne_eq, Option.some.injEq]
      exact hn
    split at hs
    · obtain ⟨rfl, rfl⟩ := Prod.mk.inj hs
      rw [List.append_nil]
      exact h.congr hnone (Nat.le_refl _) (fun _ _ _ => Iff.rfl) (fault_other hget hne) rfl rfl
    · rename_i seen hcall
      obtain ⟨rfl, rfl⟩ := Prod.mk.inj hs
      obtain ⟨stack, -, hcall⟩ := Option.bind_eq_some_iff.mp hcall
      have hseen : seenOf n (c.2 ++ seen) = seenOf n c.2 := by
        rw [seenOf_append]
        rcases executeLuaFunc_seen hcall with rfl | ⟨f, err, res, rfl⟩
        · simp [seenOf]
        · simp [seenOf, Entry.handler?, hn]
      exact h.congr hnone (Nat.le_refl _) (items_set_other hget hne rfl)
        (fun j _ _ _ => ne_fault hnone j)
        ((lookup_remove c.1.funcs r.handler).trans (if_neg (Ne.symm hn))) hseen

/-- **Every event** leaves every call somewhere on its way. -/
theorem Progress.record (h : Progress n c) (hn : n ≠ 0) {e : Event d}
    (hrecord : Lib.record Database.step c e = some c') : Progress n c' := by
  obtain ⟨s, out, hstep, rfl⟩ := record_eq_some.mp hrecord
  obtain ⟨hnone, hnext⟩ := Option.ite_none_right_eq_some.mp hstep
  have hfault : ∀ (i : Nat) (x : Item d), c.1.items[i]? = some x → x.handler? = some n →
      c.1.fault ≠ some i := fun i _ _ _ => ne_fault hnone i
  cases e with
  | query args stale => exact h.query hn hnone (Option.some.inj hnext)
  | close stale =>
    obtain ⟨rfl, rfl⟩ := Prod.mk.inj (Option.some.inj hnext)
    rw [List.append_nil, State.close]
    split
    · exact h
    · exact h.congr hnone (Nat.le_refl _) (items_append_other nofun) hfault rfl rfl
  | start i =>
    obtain ⟨item, hitem, heq⟩ := Option.map_eq_some_iff.mp hnext
    cases heq
    obtain ⟨hget, hphase⟩ := itemAt_eq_some.mp hitem
    exact h.moves hnone hget (.inl ⟨by rw [hphase]; rfl, rfl⟩) c.1.lock _
  | lock i =>
    obtain ⟨-, hnext⟩ := Option.ite_none_right_eq_some.mp hnext
    obtain ⟨item, hitem, heq⟩ := Option.map_eq_some_iff.mp hnext
    cases heq
    obtain ⟨hget, hphase⟩ := itemAt_eq_some.mp hitem
    exact h.moves hnone hget (.inl ⟨by rw [hphase]; rfl, rfl⟩) (some i) _
  | unlock i =>
    obtain ⟨item, hitem, heq⟩ := Option.map_eq_some_iff.mp hnext
    cases heq
    obtain ⟨hget, hphase⟩ := itemAt_eq_some.mp hitem
    exact h.moves hnone hget (.inr ⟨hphase, rfl⟩) none _
  | work i o =>
    obtain ⟨item, hitem, heq⟩ := Option.bind_eq_some_iff.mp hnext
    obtain ⟨hget, hphase⟩ := itemAt_eq_some.mp hitem
    split at heq
    · rename_i r hwork
      exact h.queryWork hnone hget hwork hphase (Option.some.inj heq)
    · cases heq
  | destroy i =>
    obtain ⟨item, hitem, heq⟩ := Option.bind_eq_some_iff.mp hnext
    obtain ⟨hget, -⟩ := itemAt_eq_some.mp hitem
    split at heq
    · cases heq
    · rename_i hwork
      have hne : item.handler? ≠ some n := by
        rw [Item.handler?, hwork]
        exact nofun
      have hdone := Option.some.inj heq
      unfold State.closeWork at hdone
      split at hdone
      · obtain ⟨rfl, rfl⟩ := Prod.mk.inj hdone
        refine h.congr hnone (Nat.le_refl _) (items_set_other hget hne rfl) hfault rfl ?_
        rw [seenOf_append]
        simp [seenOf, Entry.handler?]
      · obtain ⟨rfl, rfl⟩ := Prod.mk.inj hdone
        rw [List.append_nil]
        exact h.congr hnone (Nat.le_refl _) (fun _ _ _ => Iff.rfl) (fault_other hget hne) rfl rfl
  | complete i =>
    obtain ⟨item, hitem, heq⟩ := Option.map_eq_some_iff.mp hnext
    obtain ⟨hget, hphase⟩ := itemAt_eq_some.mp hitem
    split at heq
    · rename_i r hwork
      exact h.queryComplete hnone hget hwork hphase heq
    · rename_i hwork
      have hne : item.handler? ≠ some n := by
        rw [Item.handler?, hwork]
        exact nofun
      cases heq
      refine h.congr hnone (Nat.le_refl _) (items_set_other hget hne rfl) hfault rfl ?_
      rw [seenOf_append]
      simp [seenOf, Entry.handler?]

theorem progress_run {events : List (Event d)} (hrun : run d events = some c) (hn : n ≠ 0) :
    Progress n c :=
  run_invariant (fun _ _ _ h _ hrecord => h.record hn hrecord)
    (.silent (fun _ _ hitem => by cases hitem) rfl) (along_true _ events) hrun

/-- The query of `sampleArgs` up to its outcome. -/
def worked (d : Driver) (o : d.Outcome) : List (Event d) :=
  [.query sampleArgs false, .start 0, .lock 0, .work 0 o]

end LibuvServer.Database
