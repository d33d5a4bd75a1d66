import LibuvServer.Database.Database
import Mathlib.Tactic.Common

/-!
# Contexts and their queries

`close` marks the context, so that no query comes after it, and queues the
destruction of the connection like any other work. It does not wait for the
queries that were accepted before. What a run comes to is decided where the
connection is destroyed and where a context that is gone is asked again.
-/

namespace LibuvServer.Database

open LibuvServer.Lib LibuvServer.Netbus LibuvServer.Mylua

variable {d : Driver} {c c' : State d × List (Entry d)}

/-- No worker reads the context or its connection after they are gone. -/
def NoLateRead (trace : List (Entry d)) : Prop :=
  Justified (fun pre e => ∀ i part, e = .read i part → .destroyed ∉ pre ∧ .freed ∉ pre) trace

/-- The worker of a query has returned. -/
def Item.Through (item : Item d) : Prop :=
  match item.work with
  | .query _ => item.phase = .unlocked ∨ item.phase = .completed
  | .close => True

/-- No query is left that would read what has been destroyed. -/
def NoneLeft (c : State d) : Prop := c.conn = false → ∀ item ∈ c.items, item.Through

/-- The connection is destroyed when every query accepted on the context is
through, and the manager is not asked for a query on a context that has been
freed and reads as open. -/
def Orderly (c : State d × List (Entry d)) : Event d → Prop
  | .destroy _ => ∀ item ∈ c.1.items, item.Through
  | .query args stale => c.1.freed = true →
    stale = true ∨ args.request d (c.1.refFunction args.func).2 = none
  | .close _ | .start _ | .lock _ | .work _ _ | .unlock _ | .complete _ => True

/-! ## Traces -/

theorem noLateRead_reads {trace more : List (Entry d)} (hdestroyed : .destroyed ∉ more)
    (hfreed : .freed ∉ more) :
    NoLateRead (trace ++ more) ↔ NoLateRead trace ∧
      ∀ i part, .read i part ∈ more → .destroyed ∉ trace ∧ .freed ∉ trace := by
  have hjust : NoLateRead (trace ++ more) ↔ NoLateRead trace ∧
      ∀ e ∈ more, ∀ i part, e = .read i part → .destroyed ∉ trace ∧ .freed ∉ trace := by
    refine justified_append fun pre e post heq => ?_
    have hpre : .destroyed ∉ pre ∧ .freed ∉ pre := by
      constructor
      · exact fun h => hdestroyed (by simp [heq, h])
      · exact fun h => hfreed (by simp [heq, h])
    simp only [List.mem_append, hpre.1, hpre.2, or_false]
  rw [hjust]
  refine and_congr_right fun _ => ⟨fun hall i part hmem => hall _ hmem i part rfl, ?_⟩
  rintro hall e hmem i part rfl
  exact hall i part hmem

theorem noLateRead_silent {trace more : List (Entry d)} (h : ∀ i part, .read i part ∉ more) :
    NoLateRead (trace ++ more) ↔ NoLateRead trace := by
  have hjust : NoLateRead (trace ++ more) ↔ NoLateRead trace ∧ ∀ e ∈ more, True := by
    refine justified_append fun pre e post heq => iff_of_true ?_ trivial
    rintro i part rfl
    exact absurd (by simp [heq]) (h i part)
  rw [hjust]
  exact and_iff_left fun _ _ => trivial

/-! ## Items -/

/-- A close has marked the context, and destroyed the connection when it has
worked. -/
def Closers (c : State d) : Prop :=
  ∀ item ∈ c.items, item.work = .close → c.is_closed = true ∧
    (item.phase = .worked ∨ item.phase = .unlocked ∨ item.phase = .completed → c.conn = false)

theorem Closers.set {c : State d} (h : Closers c) {i : Nat} {item item' : Item d}
    (hget : c.items[i]? = some item) (hwork : item'.work = item.work)
    (hphase : item'.work = .close →
      item'.phase = .worked ∨ item'.phase = .unlocked ∨ item'.phase = .completed →
        c.conn = false) : Closers (c.setItem i item') := by
  intro x hx hclose
  rcases List.mem_or_eq_of_mem_set hx with hx | rfl
  · exact h x hx hclose
  · exact ⟨(h item (List.mem_of_getElem? hget) (hwork ▸ hclose)).1, hphase hclose⟩

/-- A query's item does not matter. -/
theorem Closers.query {c : State d} (h : Closers c) (r : Request) :
    Closers { c with items := c.items ++ [(Work.query r).item] } := by
  intro x hx hclose
  rcases List.mem_append.mp hx with hx | hx
  · exact h x hx hclose
  · rw [List.mem_singleton] at hx
    rw [hx] at hclose
    cases hclose

theorem Closers.close {c : State d} (h : Closers c) :
    Closers { c with is_closed := true, items := c.items ++ [Work.close.item] } := by
  intro x hx hclose
  refine ⟨rfl, fun hphase => ?_⟩
  rcases List.mem_append.mp hx with hx | hx
  · exact (h x hx hclose).2 hphase
  · rw [List.mem_singleton] at hx
    rw [hx] at hphase
    rcases hphase with hp | hp | hp <;> cases hp

/-- An item that moves on without being through, or while it is, changes
nothing for the others. -/
theorem through_set {items : List (Item d)} {i : Nat} {item item' : Item d}
    (hget : items[i]? = some item) (h : item'.Through ↔ item.Through) :
    (∀ x ∈ items.set i item', x.Through) ↔ ∀ x ∈ items, x.Through := by
  constructor
  · intro hall x hx
    obtain ⟨j, hj⟩ := List.mem_iff_getElem?.mp hx
    by_cases hij : i = j
    · subst hij
      rw [hget, Option.some.injEq] at hj
      subst hj
      have hlt := (List.getElem?_eq_some_iff.mp hget).1
      exact h.mp (hall item' (List.mem_set hlt item'))
    · exact hall x (List.mem_of_getElem? (by rw [List.getElem?_set_ne hij]; exact hj))
  · intro hall x hx
    rcases List.mem_or_eq_of_mem_set hx with hx | rfl
    · exact hall x hx
    · exact h.mpr (hall item (List.mem_of_getElem? hget))

/-! ## Steps -/

/-- What the flags of a context say about the trace. -/
structure Consistent (c : State d × List (Entry d)) : Prop where
  destroyed : .destroyed ∈ c.2 ↔ c.1.conn = false
  freed : .freed ∈ c.2 → c.1.conn = false
  memory : c.1.freed = true → c.1.conn = false
  closed : c.1.conn = false → c.1.is_closed = true
  closers : Closers c.1

/-- What an event does that leaves the connection alone. -/
theorem Consistent.step (h : Consistent c) {s : State d} {out : List (Entry d)}
    (hconn : s.conn = c.1.conn) (hclosed : c.1.is_closed = true → s.is_closed = true)
    (hmemory : s.freed = true → s.conn = false) (hclosers : Closers s)
    (hdestroyed : .destroyed ∉ out) (hfreed : .freed ∈ out → s.conn = false) :
    Consistent (s, c.2 ++ out) := by
  refine ⟨?_, fun hmem => ?_, hmemory, fun hgone => ?_, hclosers⟩
  · show .destroyed ∈ c.2 ++ out ↔ s.conn = false
    rw [List.mem_append, or_iff_left hdestroyed, hconn]
    exact h.destroyed
  · rcases List.mem_append.mp hmem with hold | hnew
    · exact hconn.trans (h.freed hold)
    · exact hfreed hnew
  · exact hclosed (h.closed (hconn.symm.trans hgone))

/-- Nothing has been read too late so far, and nothing is left to be. -/
def Safe (c : State d × List (Entry d)) : Prop := NoLateRead c.2 ∧ NoneLeft c.1

theorem safe_silent {s : State d} {out : List (Entry d)} (hout : ∀ i part, .read i part ∉ out)
    (hnone : NoneLeft s ↔ NoneLeft c.1) : Safe (s, c.2 ++ out) ↔ Safe c := by
  show NoLateRead (c.2 ++ out) ∧ NoneLeft s ↔ NoLateRead c.2 ∧ NoneLeft c.1
  rw [noLateRead_silent hout, hnone]

/-- The worker of a query reads. -/
theorem Consistent.safe_reads (h : Consistent c) {item : Item d} (hmem : item ∈ c.1.items)
    (hbusy : ¬ item.Through) {s : State d} {out : List (Entry d)} (hconn : s.conn = c.1.conn)
    (hdestroyed : .destroyed ∉ out) (hfreed : .freed ∉ out)
    (hread : ∃ i part, .read i part ∈ out) : Safe (s, c.2 ++ out) ↔ Safe c := by
  show NoLateRead (c.2 ++ out) ∧ NoneLeft s ↔ NoLateRead c.2 ∧ NoneLeft c.1
  rw [noLateRead_reads hdestroyed hfreed]
  constructor
  · rintro ⟨⟨hlate, hnew⟩, -⟩
    obtain ⟨i, part, hr⟩ := hread
    have hon := (hnew i part hr).1
    rw [h.destroyed] at hon
    exact ⟨hlate, fun hoff => absurd hoff hon⟩
  · rintro ⟨hlate, hnone⟩
    -- the connection is there, or this query would be through
    have hon : c.1.conn ≠ false := fun hoff => hbusy (hnone hoff item hmem)
    refine ⟨⟨hlate, fun i part _ => ⟨?_, ?_⟩⟩, fun hoff => absurd (hconn.symm.trans hoff) hon⟩
    · exact fun hd => hon (h.destroyed.mp hd)
    · exact fun hf => hon (h.freed hf)

theorem through_query (item : Item d) {r : Request} (hwork : item.work = .query r) :
    item.Through ↔ item.phase = .unlocked ∨ item.phase = .completed := by
  rw [Item.Through, hwork]

theorem through_close (item : Item d) (hwork : item.work = .close) : item.Through := by
  rw [Item.Through, hwork]
  trivial

/-- A close that moves on makes no difference to the queries. -/
theorem noneLeft_close {s : State d} {i : Nat} {item : Item d} (hget : s.items[i]? = some item)
    (hwork : item.work = .close) (phase : Phase) :
    (∀ x ∈ s.items.set i { item with phase := phase }, x.Through) ↔ ∀ x ∈ s.items, x.Through :=
  through_set hget (iff_of_true (through_close _ hwork) (through_close item hwork))

theorem Work.query_or_close (work : Work) : (∃ r, work = .query r) ∨ work = .close := by
  cases work with
  | query r => exact .inl ⟨r, rfl⟩
  | close => exact .inr rfl

/-- A worker moves on by one phase, and reads when it is a query's. -/
theorem Consistent.moves (h : Consistent c) {i : Nat} {item : Item d}
    (hget : c.1.items[i]? = some item) (hphase : item.phase ≠ .unlocked ∧ item.phase ≠ .completed)
    {phase : Phase} (hclose : item.work = .close →
      phase = .worked ∨ phase = .unlocked ∨ phase = .completed → c.1.conn = false)
    (lock : Option Nat) {parts : List Part} (hparts : parts ≠ []) :
    Consistent ({ c.1.setItem i { item with phase := phase } with lock := lock },
        c.2 ++ item.reads i parts) ∧
      (Safe ({ c.1.setItem i { item with phase := phase } with lock := lock },
        c.2 ++ item.reads i parts) ↔ Safe c) := by
  have hclosers : Closers (c.1.setItem i { item with phase := phase }) :=
    h.closers.set hget rfl hclose
  obtain ⟨r, hwork⟩ | hwork := item.work.query_or_close
  · have hreads : item.reads i parts = parts.map (.read i) := by rw [Item.reads, hwork]
    have hdestroyed : .destroyed ∉ item.reads i parts := by simp [hreads]
    have hfreed : .freed ∉ item.reads i parts := by simp [hreads]
    have hbusy : ¬ item.Through := by
      rw [through_query item hwork]
      exact fun hthrough => hthrough.elim hphase.1 hphase.2
    obtain ⟨part, hpart⟩ := List.exists_mem_of_ne_nil parts hparts
    refine ⟨h.step rfl id h.memory hclosers hdestroyed fun hf => absurd hf hfreed, ?_⟩
    exact h.safe_reads (List.mem_of_getElem? hget) hbusy rfl hdestroyed hfreed
      ⟨i, part, by rw [hreads]; exact List.mem_map_of_mem hpart⟩
  · have hreads : item.reads i parts = [] := by rw [Item.reads, hwork]
    rw [hreads]
    exact ⟨h.step rfl id h.memory hclosers (by simp) (by simp),
      safe_silent (by simp) (imp_congr_right fun _ => noneLeft_close hget hwork phase)⟩

/-- Taking a reference leaves the context alone. -/
theorem refFunction_eq (c : State d) (func : Option Nat) :
    ∃ funcs refid, (c.refFunction func).1 = { c with funcs := funcs, refid := refid } := by
  cases func with
  | none => exact ⟨c.funcs, c.refid, rfl⟩
  | some f => exact ⟨_, _, rfl⟩

theorem not_mem_called {func : Option Nat} {r : Request} {accepted : Bool} {e : Entry d}
    (h : ∀ f, e ≠ .called r.handler f r.text accepted) :
    e ∉ func.toList.map fun f => .called r.handler f r.text accepted := by
  rw [List.mem_map]
  rintro ⟨f, -, rfl⟩
  exact h f rfl

variable {s : State d} {out : List (Entry d)}

/-- **A query is asked for.** -/
theorem Consistent.query (h : Consistent c) {args : Args} {stale : Bool}
    (hs : c.1.query args stale = (s, out)) :
    Consistent (s, c.2 ++ out) ∧
      (Safe (s, c.2 ++ out) ↔ Safe c ∧ Orderly c (.query args stale)) := by
  obtain ⟨funcs, refid, href⟩ := refFunction_eq c.1 args.func
  unfold State.query at hs
  unfold Orderly
  cases hreq : args.request d (c.1.refFunction args.func).2 with
  | none =>
    simp only [hreq, href, Prod.mk.injEq] at hs
    obtain ⟨rfl, rfl⟩ := hs
    simp only [hreq, or_true, implies_true, and_true]
    exact ⟨h.step rfl id h.memory h.closers (by simp) (by simp), safe_silent (by simp) Iff.rfl⟩
  | some r =>
    simp only [hreq, href, Prod.mk.injEq] at hs
    obtain ⟨rfl, rfl⟩ := hs
    simp only [hreq, reduceCtorEq, or_false]
    generalize hout : (args.func.toList.map fun f =>
      (.called r.handler f r.text (!c.1.closedAs stale) : Entry d)) = out
    have hdestroyed : Entry.destroyed ∉ out := hout ▸ not_mem_called fun f => nofun
    have hfreed : Entry.freed ∉ out := hout ▸ not_mem_called fun f => nofun
    have hread : ∀ i part, Entry.read i part ∉ out :=
      fun i part => hout ▸ not_mem_called fun f => nofun
    have hsame : State.closedAs { c.1 with funcs := funcs, refid := refid } stale =
        c.1.closedAs stale := rfl
    rw [State.managerQuery, hsame]
    by_cases hclosed : c.1.closedAs stale = true
    · -- refused
      rw [if_pos hclosed]
      refine ⟨h.step rfl id h.memory h.closers hdestroyed fun hf => absurd hf hfreed, ?_⟩
      refine (safe_silent hread Iff.rfl).trans (and_iff_left fun hon => ?_).symm
      rwa [State.closedAs, if_pos hon] at hclosed
    · rw [if_neg hclosed]
      refine ⟨h.step rfl id h.memory (h.closers.query r) hdestroyed fun hf => absurd hf hfreed, ?_⟩
      show NoLateRead (c.2 ++ out) ∧
        (c.1.conn = false → ∀ x ∈ c.1.items ++ [(Work.query r).item], x.Through) ↔ _
      rw [noLateRead_silent hread]
      have hbusy : ¬ ((Work.query r).item : Item d).Through := by
        rw [through_query _ rfl]
        exact nofun
      constructor
      · rintro ⟨hlate, hnone⟩
        have hon : c.1.conn ≠ false := fun hoff =>
          hbusy (hnone hoff _ (List.mem_append_right _ (List.mem_singleton_self _)))
        exact ⟨⟨hlate, fun hoff => absurd hoff hon⟩, fun hf => absurd (h.memory hf) hon⟩
      · rintro ⟨⟨hlate, -⟩, horder⟩
        refine ⟨hlate, fun hoff => ?_⟩
        -- a context without its connection is marked, unless it has been freed
        by_cases hf : c.1.freed = true
        · exact absurd (by rw [State.closedAs, if_pos hf]; exact horder hf) hclosed
        · exact absurd (by rw [State.closedAs, if_neg hf]; exact h.closed hoff) hclosed

/-- **A worker has its connection.** -/
theorem Consistent.queryWork (h : Consistent c) {i : Nat} {item : Item d} {r : Request}
    (hget : c.1.items[i]? = some item) (hwork : item.work = .query r)
    (hphase : item.phase = .locked) {o : d.Outcome} (hs : c.1.queryWork i item r o = (s, out)) :
    Consistent (s, c.2 ++ out) ∧ (Safe (s, c.2 ++ out) ↔ Safe c) := by
  have hbusy : ¬ item.Through := by
    rw [through_query item hwork, hphase]
    exact nofun
  have hmem := List.mem_of_getElem? hget
  unfold State.queryWork at hs
  simp only at hs
  split at hs
  · obtain ⟨rfl, rfl⟩ := Prod.mk.inj hs
    refine ⟨h.step rfl id h.memory h.closers (by simp) (by simp), ?_⟩
    exact h.safe_reads hmem hbusy rfl (by simp) (by simp) ⟨i, .connection, .head _⟩
  · rename_i answer _
    obtain ⟨rfl, rfl⟩ := Prod.mk.inj hs
    have hclosers : Closers (c.1.setItem i { item with phase := .worked, answer := answer }) :=
      h.closers.set hget rfl fun hclose => by cases hwork.symm.trans hclose
    refine ⟨h.step rfl id h.memory hclosers (by simp) (by simp), ?_⟩
    exact h.safe_reads hmem hbusy rfl (by simp) (by simp) ⟨i, .connection, .head _⟩

/-- **The connection is destroyed.** -/
theorem Consistent.closeWork (h : Consistent c) {i : Nat} {item : Item d}
    (hget : c.1.items[i]? = some item) (hwork : item.work = .close)
    (hs : c.1.closeWork i item = (s, out)) :
    Consistent (s, c.2 ++ out) ∧
      (Safe (s, c.2 ++ out) ↔ Safe c ∧ ∀ item ∈ c.1.items, item.Through) := by
  unfold State.closeWork at hs
  by_cases hon : c.1.conn = true
  · rw [if_pos hon] at hs
    obtain ⟨rfl, rfl⟩ := Prod.mk.inj hs
    have hmarked := (h.closers item (List.mem_of_getElem? hget) hwork).1
    constructor
    · exact ⟨by simp, fun _ => rfl, fun _ => rfl, fun _ => hmarked,
        fun x _ _ => ⟨hmarked, fun _ => rfl⟩⟩
    · show NoLateRead (c.2 ++ [.destroyed]) ∧ (false = false →
        ∀ x ∈ c.1.items.set i { item with phase := .worked }, x.Through) ↔ _
      rw [noLateRead_silent (by simp), noneLeft_close hget hwork]
      constructor
      · rintro ⟨hlate, hall⟩
        exact ⟨⟨hlate, fun _ => hall rfl⟩, hall rfl⟩
      · rintro ⟨⟨hlate, -⟩, hall⟩
        exact ⟨hlate, fun _ => hall⟩
  · rw [if_neg hon] at hs
    obtain ⟨rfl, rfl⟩ := Prod.mk.inj hs
    refine ⟨h.step rfl id h.memory h.closers (by simp) (by simp), ?_⟩
    refine (safe_silent (by simp) Iff.rfl).trans (and_iff_left_of_imp fun hsafe => ?_).symm
    exact hsafe.2 (Bool.eq_false_iff.mpr hon)

/-- **A query is over.** -/
theorem Consistent.queryComplete (h : Consistent c) {i : Nat} {item : Item d} {r : Request}
    (hget : c.1.items[i]? = some item) (hwork : item.work = .query r)
    (hphase : item.phase = .unlocked) (hs : c.1.queryComplete i item r = (s, out)) :
    Consistent (s, c.2 ++ out) ∧ (Safe (s, c.2 ++ out) ↔ Safe c) := by
  unfold State.queryComplete at hs
  split at hs
  · obtain ⟨rfl, rfl⟩ := Prod.mk.inj hs
    exact ⟨h.step rfl id h.memory h.closers (by simp) (by simp), safe_silent (by simp) Iff.rfl⟩
  · rename_i seen heq
    obtain ⟨rfl, rfl⟩ := Prod.mk.inj hs
    obtain ⟨stack, -, hcall⟩ := Option.bind_eq_some_iff.mp heq
    have hclosers : Closers (c.1.setItem i { item with phase := .completed }) :=
      h.closers.set hget rfl fun hclose => by cases hwork.symm.trans hclose
    have hall : (∀ x ∈ c.1.items.set i { item with phase := .completed }, x.Through) ↔
        ∀ x ∈ c.1.items, x.Through :=
      through_set hget (iff_of_true
        ((through_query ({ item with phase := .completed } : Item d) hwork).mpr (.inr rfl))
        ((through_query item hwork).mpr (.inl hphase)))
    rcases executeLuaFunc_seen hcall with rfl | ⟨f, err, res, rfl⟩
    · exact ⟨h.step rfl id h.memory hclosers (by simp) (by simp),
        safe_silent (by simp) (imp_congr_right fun _ => hall)⟩
    · exact ⟨h.step rfl id h.memory hclosers (by simp) (by simp),
        safe_silent (by simp) (imp_congr_right fun _ => hall)⟩

theorem readsBefore_ne_nil (d : Driver) : d.readsBefore ≠ [] := by
  cases d <;> exact List.cons_ne_nil _ _

theorem readsLocked_ne_nil (d : Driver) : d.readsLocked ≠ [] := by
  cases d <;> exact List.cons_ne_nil _ _

/-- **Every event** keeps the flags right, and makes the context unsafe just
when it is out of order. -/
theorem Consistent.record (h : Consistent c) {e : Event d}
    (hrecord : Lib.record Database.step c e = some c') :
    Consistent c' ∧ (Safe c' ↔ Safe c ∧ Orderly c e) := by
  obtain ⟨s, out, hstep, rfl⟩ := record_eq_some.mp hrecord
  obtain ⟨-, hnext⟩ := Option.ite_none_right_eq_some.mp hstep
  cases e with
  | query args stale =>
    exact h.query (Option.some.inj hnext)
  | close stale =>
    obtain ⟨rfl, rfl⟩ := Prod.mk.inj (Option.some.inj hnext)
    rw [Orderly, and_true]
    unfold State.close
    split
    · exact ⟨h.step rfl id h.memory h.closers (by simp) (by simp), safe_silent (by simp) Iff.rfl⟩
    · refine ⟨h.step rfl (fun _ => rfl) h.memory h.closers.close (by simp) (by simp),
        safe_silent (by simp) (imp_congr_right fun _ => ?_)⟩
      show (∀ x ∈ c.1.items ++ [Work.close.item], x.Through) ↔ _
      rw [List.forall_mem_append, List.forall_mem_singleton]
      exact and_iff_left (through_close _ rfl)
  | start i =>
    obtain ⟨item, hitem, heq⟩ := Option.map_eq_some_iff.mp hnext
    cases heq
    obtain ⟨hget, hphase⟩ := itemAt_eq_some.mp hitem
    rw [Orderly, and_true]
    exact h.moves hget (by simp [hphase]) (by simp) c.1.lock (readsBefore_ne_nil d)
  | lock i =>
    obtain ⟨-, hnext⟩ := Option.ite_none_right_eq_some.mp hnext
    obtain ⟨item, hitem, heq⟩ := Option.map_eq_some_iff.mp hnext
    cases heq
    obtain ⟨hget, hphase⟩ := itemAt_eq_some.mp hitem
    rw [Orderly, and_true]
    exact h.moves hget (by simp [hphase]) (by simp) (some i) (readsLocked_ne_nil d)
  | unlock i =>
    obtain ⟨item, hitem, heq⟩ := Option.map_eq_some_iff.mp hnext
    cases heq
    obtain ⟨hget, hphase⟩ := itemAt_eq_some.mp hitem
    rw [Orderly, and_true]
    refine h.moves hget (by simp [hphase]) (fun hclose _ => ?_) none (List.cons_ne_nil _ _)
    exact (h.closers item (List.mem_of_getElem? hget) hclose).2 (.inl hphase)
  | work i o =>
    obtain ⟨item, hitem, heq⟩ := Option.bind_eq_some_iff.mp hnext
    obtain ⟨hget, hphase⟩ := itemAt_eq_some.mp hitem
    rw [Orderly, and_true]
    split at heq
    · rename_i r hwork
      exact h.queryWork hget hwork hphase (Option.some.inj heq)
    · cases heq
  | destroy i =>
    obtain ⟨item, hitem, heq⟩ := Option.bind_eq_some_iff.mp hnext
    obtain ⟨hget, -⟩ := itemAt_eq_some.mp hitem
    split at heq
    · cases heq
    · rename_i hwork
      exact h.closeWork hget hwork (Option.some.inj heq)
  | complete i =>
    obtain ⟨item, hitem, heq⟩ := Option.map_eq_some_iff.mp hnext
    obtain ⟨hget, hphase⟩ := itemAt_eq_some.mp hitem
    rw [Orderly, and_true]
    split at heq
    · rename_i r hwork
      exact h.queryComplete hget hwork hphase heq
    · rename_i hwork
      cases heq
      have hoff := (h.closers item (List.mem_of_getElem? hget) hwork).2 (.inr (.inl hphase))
      have hclosers : Closers (c.1.setItem i { item with phase := .completed }) :=
        h.closers.set hget rfl fun _ _ => hoff
      exact ⟨h.step rfl id (fun _ => hoff) hclosers (by simp) (fun _ => hoff),
        safe_silent (by simp) (imp_congr_right fun _ => noneLeft_close hget hwork .completed)⟩

theorem consistent_init (d : Driver) : Consistent (init d, ([] : List (Entry d))) := by
  refine ⟨by simp [init], by simp, by simp [init], by simp [init], ?_⟩
  intro item hitem
  cases hitem

theorem safe_init (d : Driver) : Safe (init d, ([] : List (Entry d))) := by
  refine ⟨justified_nil, fun hoff => ?_⟩
  cases hoff

/-- **Contexts and their queries.** No worker has read a context or its
connection too late, nor is one left to, just when every event was in order. -/
theorem context_outlives_queries {events : List (Event d)} (hrun : run d events = some c) :
    NoLateRead c.2 ∧ NoneLeft c.1 ↔ Along Database.step Orderly (init d, []) events := by
  have hiff : Safe c ↔ Safe (init d, []) ∧ Along Database.step Orderly (init d, []) events :=
    run_iff_along (fun _ _ _ h hrecord => h.record hrecord) (consistent_init d) hrun
  rw [and_iff_right (safe_init d)] at hiff
  exact hiff

/-- The query gets the lock before the close that came after it. -/
def inOrder : List (Event .mysql) :=
  [.query sampleArgs false, .close false, .start 0, .start 1, .lock 0,
    .work 0 MysqlOutcome.noResult, .unlock 0, .lock 1, .destroy 1, .unlock 1, .complete 1]

/-- The close overtakes it: the context has been freed when its worker starts. -/
def overtaken (d : Driver) : List (Event d) :=
  [.query sampleArgs false, .close false, .start 1, .lock 1, .destroy 1, .unlock 1, .complete 1,
    .start 0]

theorem context_outlives_queries_inOrder :
    ∃ c, run .mysql inOrder = some c ∧ NoLateRead c.2 := by
  obtain ⟨c, hrun⟩ : ∃ c, run .mysql inOrder = some c := ⟨_, rfl⟩
  refine ⟨c, hrun, ((context_outlives_queries hrun).mpr ?_).1⟩
  refine .cons (fun hfreed => by cases hfreed) rfl (.cons trivial rfl (.cons trivial rfl
    (.cons trivial rfl (.cons trivial rfl (.cons trivial rfl (.cons trivial rfl
      (.cons trivial rfl (.cons ?_ rfl (.cons trivial rfl (.cons trivial rfl trivial))))))))))
  -- the query is through where the connection is destroyed
  intro item hitem
  rcases List.mem_cons.mp hitem with rfl | hitem
  · exact .inl rfl
  · rw [List.mem_singleton.mp hitem]
    exact trivial

/-- Both drivers fail alike. -/
theorem context_outlives_queries_overtaken :
    (¬ ∀ (events : List (Event .mysql)) (c : State .mysql × List (Entry .mysql)),
      run .mysql events = some c → NoLateRead c.2) ∧
    (¬ ∀ (events : List (Event .redis)) (c : State .redis × List (Entry .redis)),
      run .redis events = some c → NoLateRead c.2) := by
  constructor
  · intro hall
    obtain ⟨hnot, -⟩ := hall (overtaken .mysql) _ rfl
      [.called 1 7 [0x64, 0x6f, 0x20, 0x31] true, .destroyed, .freed] (.read 0 .lock) [] rfl
        0 .lock rfl
    simp at hnot
  · intro hall
    obtain ⟨hnot, -⟩ := hall (overtaken .redis) _ rfl
      [.called 1 7 [0x64, 0x6f, 0x20, 0x31] true, .destroyed, .freed] (.read 0 .pConn)
        [.read 0 .lock] rfl 0 .pConn rfl
    simp at hnot

end LibuvServer.Database
