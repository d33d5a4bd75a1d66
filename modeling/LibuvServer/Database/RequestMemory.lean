import LibuvServer.Database.RequestBlocks
import LibuvServer.Lib.Placement
import Mathlib.Data.List.Nodup

/-!
# Memory of requests

`Cache.cc` keeps one list of free blocks for the whole program, without a lock.
The loop uses it, and so do the workers of the pool: `connect_work` and
`query_work` obtain contexts and the texts of errors. While only one of them is
at the list it gives blocks that are free, whichever these are. Once two have
been there together, or a worker has used a context that is gone, nothing is
known of what it gives.
-/

namespace LibuvServer.Database.Requests

open LibuvServer.Lib LibuvServer.Netbus HeapEntry

/-- `inside` are the workers that are at the list; memory that is torn may give
any block. -/
structure Memory where
  state : State
  blocks : Placement Block Nat
  inside : List Nat
  torn : Bool

/-- A worker goes to the list; an event, with the blocks that it is given; the
loop is at the list for the rest of the program. -/
inductive Op where
  | enter (i : Nat)
  | event (e : Event) (given : List Nat)
  | elsewhere

def SMALLCACHE : Nat := 128

/-- The worker's block is one of the list. `strdupCache` has longer ones from
`malloc`. -/
def State.listed (c : State) (i : Nat) : Bool :=
  c.items[i]?.elim false fun item =>
    item.workMallocs ≠ [] && item.err.all fun text => text.length + 2 ≤ SMALLCACHE

/-- The event is one of the loop, which is at the list for it. -/
def State.uses (c : State) : Event → Bool
  | .call (.connect _) => true
  | .call (.query k _ stale) | .call (.close k stale) => !c.closedAs k stale
  | .complete _ _ => true
  | .connect_work _ _ | .query_work _ _ _ | .close_work _ => false

/-- The context of the work is not there any more: a close of it has worked. -/
def State.gone (c : State) (i : Nat) : Bool :=
  c.items[i]?.elim false fun item =>
    match item.work with
    | .connect => false
    | .query k _ | .close k => c.items.any fun x => x.work = .close k && x.phase ≠ .queued

namespace Memory

def init : Memory := ⟨Requests.init, .empty, [], false⟩

variable (m : Memory)

/-- What an event obtains is put where the allocator says. -/
def after (inside : List Nat) (torn : Bool) (r : State × List Entry) (given : List Nat) :
    Option (Memory × List (HeapEntry Nat)) :=
  (m.blocks.place (!torn) r.2 given).map fun placed => (⟨r.1, placed.1, inside, torn⟩, placed.2)

def step : Op → Option (Memory × List (HeapEntry Nat))
  | .enter i =>
    if i ∈ m.inside then none
    else (m.state.itemAt i .queued).map fun _ =>
      ({ m with inside := i :: m.inside, torn := m.torn || !m.inside.isEmpty }, [])
  | .elsewhere => some ({ m with torn := m.torn || !m.inside.isEmpty }, [])
  | .event e given => (Requests.step m.state e).bind fun r =>
    match e.worker with
    | some i =>
      if i ∈ m.inside ↔ r.1.listed i = true then
        m.after (m.inside.erase i) (m.torn || m.state.gone i) r given
      else none
    | none => m.after m.inside (m.torn || m.state.uses e && !m.inside.isEmpty) r given

def run (ops : List Op) : Option (Memory × List (HeapEntry Nat)) := Lib.run step (init, []) ops

end Memory

/-! ## What is wanted -/

/-- Only blocks that are there are given back, none is there twice, and when no
work is left those that are there are the ones that are owned. -/
structure Balances (m : Memory) (trace : List (HeapEntry Nat)) : Prop where
  sound : Sound trace
  once : ∀ a, live trace a ≤ 1
  live_iff : Quiescent m.state → ∀ a,
    0 < live trace a ↔ ∃ b, Owned m.state b ∧ m.blocks.address b = some a
  apart : Quiescent m.state → ∀ b b', Owned m.state b → Owned m.state b' →
    m.blocks.address b = m.blocks.address b' → b = b'

/-- One at a time is at the list, no worker uses a context that is gone, and none
that is gone and reads as open is closed. -/
def Ordered (c : Memory × List (HeapEntry Nat)) : Op → Prop
  | .enter _ | .elsewhere => c.1.inside = []
  | .event e _ => (c.1.state.uses e = true → c.1.inside = []) ∧
    (∀ i ∈ e.worker, c.1.state.gone i = false) ∧ Calls Fresh c.1.state e

/-- It connects to redis only. -/
def OnlyRedis (c : Memory × List (HeapEntry Nat)) : Op → Prop
  | .enter _ | .elsewhere => True
  | .event e _ => Calls OnRedis c.1.state e

def Clean (c : Memory × List (HeapEntry Nat)) (op : Op) : Prop := Ordered c op ∧ OnlyRedis c op

instance Ordered.decidable (c : Memory × List (HeapEntry Nat)) :
    (op : Op) → Decidable (Ordered c op)
  | .enter _ | .elsewhere => inferInstanceAs (Decidable (c.1.inside = []))
  | .event e _ => inferInstanceAs (Decidable ((c.1.state.uses e = true → c.1.inside = []) ∧
      (∀ i ∈ e.worker, c.1.state.gone i = false) ∧ Calls Fresh c.1.state e))

instance OnlyRedis.decidable (c : Memory × List (HeapEntry Nat)) :
    (op : Op) → Decidable (OnlyRedis c op)
  | .enter _ | .elsewhere => .isTrue trivial
  | .event e _ => inferInstanceAs (Decidable (Calls OnRedis c.1.state e))

instance Clean.decidable (c : Memory × List (HeapEntry Nat)) (op : Op) : Decidable (Clean c op) :=
  inferInstanceAs (Decidable (Ordered c op ∧ OnlyRedis c op))

/-! ## Steps -/

variable {c : State} {names : List Entry} {m : Memory} {trace out : List (HeapEntry Nat)}

theorem mallocs_nodup (item : Item) : item.mallocs.Nodup := by
  obtain ⟨d, work, phase, err, context⟩ := item
  cases work <;> cases d <;> cases context <;> cases err <;>
    simp [Item.mallocs, Work.mallocs, Item.workMallocs, Item.contextBlock, Item.errBlock]

/-- Each pointer is used for one block. -/
theorem Books.mallocs_le_one (h : Books c names) (b : Block) :
    HeapEntry.mallocs names b ≤ 1 := by
  obtain ⟨i, p⟩ := b
  rw [h.mallocs]
  unfold partsOf
  cases c.items[i]? with
  | none => exact Nat.zero_le 1
  | some item => exact List.nodup_iff_count_le_one.mp (mallocs_nodup item) p

/-- What holds in every run: the pointers have their own trace, and blocks that
were given out in order follow it. -/
structure InMemory (m : Memory) (trace : List (HeapEntry Nat)) (names : List Entry) : Prop where
  ok : Ok (m.state, names)
  follows : ClosedOnce m.state → m.torn = false → m.blocks.Follows names trace

/-- What an operation does to the state. -/
inductive Operated (m : Memory) : Op → Memory × List (HeapEntry Nat) → Prop where
  | still (op : Op) (inside : List Nat) : op = .elsewhere ∨ (∃ i, op = .enter i) →
      Operated m op ({ m with inside := inside, torn := m.torn || !m.inside.isEmpty }, [])
  | moved (e : Event) (given inside : List Nat) (torn : Bool) (r : State × List Entry)
      (placed : Placement Block Nat × List (HeapEntry Nat)) :
      Requests.step m.state e = some r → m.blocks.place (!torn) r.2 given = some placed →
      (torn = false ↔ m.torn = false ∧ (m.state.uses e = true → m.inside = []) ∧
        ∀ i ∈ e.worker, m.state.gone i = false) →
      Operated m (.event e given) (⟨r.1, placed.1, inside, torn⟩, placed.2)

theorem Memory.step_cases {op : Op} {r : Memory × List (HeapEntry Nat)} (h : m.step op = some r) :
    Operated m op r := by
  cases op with
  | enter i =>
    rw [Memory.step] at h
    split at h
    · cases h
    · obtain ⟨item, -, rfl⟩ := Option.map_eq_some_iff.mp h
      exact .still _ _ (.inr ⟨i, rfl⟩)
  | elsewhere =>
    cases h
    exact .still _ m.inside (.inl rfl)
  | event e given =>
    obtain ⟨s, hs, hafter⟩ := Option.bind_eq_some_iff.mp h
    split at hafter
    · rename_i i hworker
      split at hafter
      · obtain ⟨placed, hplace, rfl⟩ := Option.map_eq_some_iff.mp hafter
        refine .moved e given _ _ s placed hs hplace ?_
        have hloop : m.state.uses e = false := by
          cases e with
          | call call => cases hworker
          | complete i calls => cases hworker
          | connect_work i o => rfl
          | query_work i d o => rfl
          | close_work i => rfl
        simp [hworker, hloop]
      · cases hafter
    · rename_i hworker
      obtain ⟨placed, hplace, rfl⟩ := Option.map_eq_some_iff.mp hafter
      refine .moved e given _ _ s placed hs hplace ?_
      simp [hworker]

/-- **Every operation** keeps what holds in every run. -/
theorem InMemory.step (h : InMemory m trace names) {op : Op} {r : Memory × List (HeapEntry Nat)}
    (hstep : m.step op = some r) : ∃ names', InMemory r.1 (trace ++ r.2) names' := by
  cases Memory.step_cases hstep with
  | still op inside _ =>
    refine ⟨names, h.ok, fun honce htorn => ?_⟩
    rw [List.append_nil]
    exact h.follows honce (Bool.or_eq_false_iff.mp htorn).1
  | moved e given inside torn s placed hs hplace htorn =>
    have hafter : Ok (s.1, names ++ s.2) := h.ok.step hs
    refine ⟨names ++ s.2, hafter, fun honce hintact => ?_⟩
    have hbefore := (fresh_decides.step h.ok.kept hs).mp honce
    have hfollows := h.follows hbefore.1 (htorn.mp hintact).1
    rw [show torn = false from hintact] at hplace
    exact hfollows.place (hafter.sound honce) hafter.books.mallocs_le_one hplace

/-- Operations in order keep memory in order, and no others. -/
theorem InMemory.ordered (h : InMemory m trace names) {op : Op}
    {r : Memory × List (HeapEntry Nat)} (hstep : m.step op = some r) :
    (ClosedOnce r.1.state ∧ r.1.torn = false) ↔
      (ClosedOnce m.state ∧ m.torn = false) ∧ Ordered (m, trace) op := by
  cases Memory.step_cases hstep with
  | still op inside hop =>
    have hordered : Ordered (m, trace) op ↔ m.inside = [] := by
      rcases hop with rfl | ⟨i, rfl⟩ <;> exact Iff.rfl
    rw [hordered, and_assoc]
    refine and_congr_right fun _ => ?_
    simp
  | moved e given inside torn s placed hs hplace htorn =>
    rw [fresh_decides.step h.ok.kept hs]
    show (ClosedOnce m.state ∧ Calls Fresh m.state e) ∧ torn = false ↔ _
    rw [htorn]
    unfold Ordered
    tauto

theorem InMemory.onlyRedis (h : InMemory m trace names) {op : Op}
    {r : Memory × List (HeapEntry Nat)} (hstep : m.step op = some r) :
    AllRedis r.1.state ↔ AllRedis m.state ∧ OnlyRedis (m, trace) op := by
  cases Memory.step_cases hstep with
  | still op inside hop =>
    rcases hop with rfl | ⟨i, rfl⟩ <;> exact (and_iff_left trivial).symm
  | moved e given inside torn s placed hs hplace htorn => exact onRedis_decides.step h.ok.kept hs

/-! ## Runs -/

/-- Some trace of the pointers explains the run. -/
def Explained (c : Memory × List (HeapEntry Nat)) : Prop := ∃ names, InMemory c.1 c.2 names

theorem explained_init : Explained (Memory.init, []) :=
  ⟨[], ⟨.init, .init, fun _ => sound_nil⟩, fun _ _ => .empty⟩

/-- What a run in order comes to. -/
theorem explained_run {ops : List Op} {c : Memory × List (HeapEntry Nat)}
    (hrun : Memory.run ops = some c) :
    Explained c ∧
      ((ClosedOnce c.1.state ∧ c.1.torn = false) ↔
        Along Memory.step Ordered (Memory.init, []) ops) ∧
      (AllRedis c.1.state ↔ Along Memory.step OnlyRedis (Memory.init, []) ops) := by
  have hstep : ∀ c op c', Explained c → record Memory.step c op = some c' → Explained c' ∧
      ((ClosedOnce c'.1.state ∧ c'.1.torn = false) ↔
        (ClosedOnce c.1.state ∧ c.1.torn = false) ∧ Ordered c op) ∧
      (AllRedis c'.1.state ↔ AllRedis c.1.state ∧ OnlyRedis c op) := by
    rintro ⟨m, trace⟩ op c' ⟨names, h⟩ hrecord
    obtain ⟨s, out, hone, rfl⟩ := record_eq_some.mp hrecord
    have hordered := h.ordered hone
    have hredis := h.onlyRedis hone
    exact ⟨h.step hone, hordered, hredis⟩
  have honce : ClosedOnce Memory.init.state ∧ Memory.init.torn = false :=
    ⟨fun _ => Nat.zero_le 1, rfl⟩
  have hredis : AllRedis Memory.init.state := fun x hx => absurd hx List.not_mem_nil
  refine ⟨?_, ?_, ?_⟩
  · exact run_invariant (P := fun _ _ => True)
      (fun c e c' hc _ hrecord => (hstep c e c' hc hrecord).1) explained_init (along_true _ _) hrun
  · refine (run_iff_along (I := Explained)
      (R := fun c => ClosedOnce c.1.state ∧ c.1.torn = false) ?_ explained_init hrun).trans
      (and_iff_right honce)
    exact fun c e c' hc hrecord => ⟨(hstep c e c' hc hrecord).1, (hstep c e c' hc hrecord).2.1⟩
  · refine (run_iff_along (I := Explained) (R := fun c => AllRedis c.1.state) ?_ explained_init
      hrun).trans (and_iff_right hredis)
    exact fun c e c' hc hrecord => ⟨(hstep c e c' hc hrecord).1, (hstep c e c' hc hrecord).2.2⟩

/-- When no work is left, what is owned is where its blocks are. -/
theorem InMemory.balances (h : InMemory m trace names) (honce : ClosedOnce m.state)
    (hintact : m.torn = false) (hredis : AllRedis m.state) : Balances m trace := by
  have hfollows := h.follows honce hintact
  have howned : Quiescent m.state → ∀ b, 0 < live names b ↔ Owned m.state b := by
    intro hquiet b
    rw [h.ok.live_owned hredis hquiet]
    split <;> simp [*]
  refine ⟨hfollows.sound, hfollows.once, fun hquiet a => ?_, fun hquiet b b' hb hb' => ?_⟩
  · rw [hfollows.live_iff a]
    exact exists_congr fun b => and_congr_left' (howned hquiet b)
  · exact hfollows.apart b b' ((howned hquiet b).mpr hb) ((howned hquiet b').mpr hb')

/-- What balances has no connect to MySQL. -/
theorem InMemory.allRedis (h : InMemory m trace names) (honce : ClosedOnce m.state)
    (hintact : m.torn = false) (hquiet : Quiescent m.state) (hbalances : Balances m trace) :
    AllRedis m.state := by
  have hfollows := h.follows honce hintact
  refine h.ok.allRedis hquiet fun b hb => ?_
  obtain ⟨a, hat⟩ := Option.isSome_iff_exists.mp (hfollows.placed b hb)
  obtain ⟨b', hb', hat'⟩ :=
    (hbalances.live_iff hquiet a).mp ((hfollows.live_iff a).mpr ⟨b, hb, hat⟩)
  rw [hfollows.apart b b' hb (h.ok.owned_live hquiet hb') (hat.trans hat'.symm)]
  exact hb'

/-- **Blocks balance** in every run that is clean; and one that is in order
balances, where no work is left, only if it is. -/
theorem blocks_balance (ops : List Op) : ∀ m trace, Memory.run ops = some (m, trace) →
    (Along Memory.step Clean (Memory.init, []) ops → Balances m trace) ∧
      (Along Memory.step Ordered (Memory.init, []) ops → Quiescent m.state → Balances m trace →
        Along Memory.step Clean (Memory.init, []) ops) := by
  intro m trace hrun
  obtain ⟨⟨names, h⟩, hordered, hredis⟩ := explained_run hrun
  have hclean : Along Memory.step Clean (Memory.init, []) ops ↔
      Along Memory.step Ordered (Memory.init, []) ops ∧
        Along Memory.step OnlyRedis (Memory.init, []) ops := along_and
  rw [hclean]
  constructor
  · rintro ⟨horder, honly⟩
    obtain ⟨honce, hintact⟩ := hordered.mpr horder
    exact h.balances honce hintact (hredis.mpr honly)
  · intro horder hquiet hbalances
    obtain ⟨honce, hintact⟩ := hordered.mpr horder
    exact ⟨horder, hredis.mp (h.allRedis honce hintact hquiet hbalances)⟩

/-- A connect that fails, one from its callback, a query and a close. -/
def redisDay : List Op :=
  [.event (.call (.connect .redis)) [0, 1, 2], .enter 0, .event (.connect_work 0 (.error [])) [3],
    .event (.complete 0 [.connect .redis]) [4, 5, 6], .elsewhere, .enter 1,
    .event (.connect_work 1 .connected) [0], .event (.complete 1 [.query 1 [0x70] false]) [1, 2, 3],
    .event (.query_work 2 .redis (some .nil)) [], .event (.complete 2 [.close 1 false]) [4],
    .event (.close_work 3) [], .event (.complete 3 []) []]

theorem blocks_balance_redis : ∃ m trace, Memory.run redisDay = some (m, trace) ∧
    Quiescent m.state ∧ Balances m trace := by
  have hmap : (Memory.run redisDay).map (fun r => r.1.state.items.map Item.phase) =
      some (List.replicate 4 .completed) := by decide
  obtain ⟨⟨m, trace⟩, hrun, hphases⟩ := Option.map_eq_some_iff.mp hmap
  have hbalances := (blocks_balance redisDay m trace hrun).1 (by decide)
  refine ⟨m, trace, hrun, fun item hitem => ?_, hbalances⟩
  have hmem : item.phase ∈ List.replicate 4 Phase.completed := hphases ▸ List.mem_map_of_mem hitem
  exact List.eq_of_mem_replicate hmem

/-- A connect to MySQL that fails leaves the texts. -/
theorem blocks_balance_not : ¬ ∀ m trace,
    Memory.run [.event (.call (.connect .mysql)) [0, 1, 2, 3, 4, 5],
      .event (.connect_work 0 (.error [])) [], .event (.complete 0 []) []] = some (m, trace) →
        Balances m trace := by
  intro hall
  have hmap : (Memory.run [.event (.call (.connect .mysql)) [0, 1, 2, 3, 4, 5],
      .event (.connect_work 0 (.error [])) [], .event (.complete 0 []) []]).map
      (fun r => (r.1.state.items.map fun item => (item.phase, item.context), live r.2 2)) =
        some ([(.completed, false)], 1) := by decide
  obtain ⟨⟨m, trace⟩, hrun, hobs⟩ := Option.map_eq_some_iff.mp hmap
  obtain ⟨hitems, hlive⟩ := Prod.mk.inj hobs
  have honly : ∀ item ∈ m.state.items, (item.phase, item.context) = (.completed, false) :=
    fun item hitem => List.mem_singleton.mp (hitems ▸ List.mem_map_of_mem hitem)
  have hquiet : Quiescent m.state := fun item hitem => (Prod.mk.inj (honly item hitem)).1
  obtain ⟨b, ⟨-, item, hget, hcontext, -⟩, -⟩ :=
    ((hall m trace hrun).live_iff hquiet 2).mp (by rw [hlive]; exact Nat.zero_lt_one)
  -- there is no context
  have hnone := (Prod.mk.inj (honly item (List.mem_of_getElem? hget))).2
  cases hcontext.symm.trans hnone

/-- Two workers that are at the list together can be given one block. -/
example : (Memory.run [.event (.call (.connect .redis)) [0, 1, 2],
    .event (.call (.connect .redis)) [3, 4, 5], .enter 0, .enter 1,
    .event (.connect_work 0 .connected) [6], .event (.connect_work 1 .connected) [6]]).map
      (fun r => live r.2 6) = some 2 := by decide

end LibuvServer.Database.Requests
