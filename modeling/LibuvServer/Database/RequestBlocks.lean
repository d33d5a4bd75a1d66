import LibuvServer.Database.Database
import LibuvServer.Lib.HeapTrace

/-!
# Blocks of requests

What `mysqlmanager.cc` and `redismanager.cc` obtain from the small cache for
their requests and contexts, and what they give back, each block by the pointer
that holds it. Where the blocks are is a matter of `RequestMemory`. Here there
are any number of contexts. What a worker reads of a context that is gone is a
matter of `Contexts`; here its query may come to anything.
-/

namespace LibuvServer.Database.Requests

open LibuvServer.Lib LibuvServer.Netbus HeapEntry

/-- What is pointed to; `w` is the `uv_work_t`, `r` its request. -/
inductive Part where
  | w
  | r
  | ip
  | db_name
  | uname
  | upwd
  | sql
  | cmd
  | err
  | context
  deriving DecidableEq

/-- A block of the work it was obtained for. -/
structure Block where
  item : Nat
  part : Part
  deriving DecidableEq

abbrev Entry : Type := HeapEntry Block

/-- A context goes by the number of the connect that made it. -/
inductive Work where
  | connect
  | query (context : Nat) (text : Bytes)
  | close (context : Nat)
  deriving DecidableEq

inductive Phase where
  | queued
  | worked
  | completed
  deriving DecidableEq

/-- Work of a manager. Its worker sets `r->err` and `r->context`. -/
structure Item where
  driver : Driver
  work : Work
  phase : Phase
  err : Option Bytes
  context : Bool

/-! ## What is obtained and given back -/

/-- What `connect`, `query` and `close` obtain. -/
def Work.mallocs : Driver → Work → List Part
  | .mysql, .connect => [.w, .r, .ip, .db_name, .uname, .upwd]
  | .redis, .connect => [.w, .r, .ip]
  | .mysql, .query _ _ => [.w, .r, .sql]
  | .redis, .query _ _ => [.w, .r, .cmd]
  | _, .close _ => [.w]

namespace Item

def errBlock (item : Item) : List Part := if item.err.isSome then [.err] else []

def contextBlock (item : Item) : List Part := if item.context then [.context] else []

/-- What `connect_work` and `query_work` obtain. For MySQL the text of a
connect's error stays the exception's. -/
def workMallocs (item : Item) : List Part :=
  match item.work, item.driver with
  | .connect, .mysql => item.contextBlock
  | .connect, .redis => item.contextBlock ++ item.errBlock
  | .query _ _, _ => item.errBlock
  | .close _, _ => []

/-- What is given back of it in the end: `on_connect_complete`,
`mysql_query_complete`, `redis_query_complete` and `on_close_complete`. -/
def completeFrees (item : Item) : List Part :=
  match item.work, item.driver with
  | .connect, .mysql =>
    if item.context then [.ip, .uname, .upwd] ++ item.errBlock ++ [.w] else [.r, .w]
  | .connect, .redis => [.ip] ++ item.errBlock ++ [.r, .w]
  | .query _ _, .mysql => [.sql] ++ item.errBlock ++ [.r, .w]
  | .query _ _, .redis => [.cmd] ++ item.errBlock ++ [.r, .w]
  | .close _, _ => [.w]

/-- The blocks given back at the end of work `i`; a close gives back the context. -/
def frees (item : Item) (i : Nat) : List Block :=
  let own := item.completeFrees.map (Block.mk i)
  match item.work with
  | .close k => ⟨k, .context⟩ :: own
  | _ => own

end Item

/-! ## Runs -/

/-- How `driver->connect` and `redisConnectWithTimeout` can end. -/
inductive ConnectOutcome where
  | connected
  | null
  | error (text : Bytes)

/-- `connect_work`: `r->err`, and whether it sets `r->context`. -/
def connect_work : Driver → ConnectOutcome → Option (Option Bytes × Bool)
  | _, .connected => some (none, true)
  | _, .error text => some (some text, false)
  | .mysql, .null => some (none, false)
  -- `redisCon->err`
  | .redis, .null => none

structure State where
  items : List Item
  is_closed : Nat → Bool
  freed : Nat → Bool

def init : State := ⟨[], fun _ => false, fun _ => false⟩

/-- A call reads `is_closed` as `stale` when the context has been freed. -/
inductive Call where
  | connect (d : Driver)
  | query (context : Nat) (text : Bytes) (stale : Bool)
  | close (context : Nat) (stale : Bool)

/-- A call, a worker, or what follows it in the loop, with the calls that its
callback makes. -/
inductive Event where
  | call (call : Call)
  | connect_work (i : Nat) (o : ConnectOutcome)
  | query_work (i : Nat) (d : Driver) (o : d.Outcome)
  | close_work (i : Nat)
  | complete (i : Nat) (calls : List Call)

namespace State

variable (c : State)

def itemAt (i : Nat) (phase : Phase) : Option Item := c.items[i]?.filter (·.phase = phase)

def closedAs (k : Nat) (stale : Bool) : Bool := if c.freed k then stale else c.is_closed k

/-- The manager of a context that a callback has got. -/
def contextDriver (k : Nat) : Option Driver :=
  ((c.itemAt k .completed).filter (·.context)).map Item.driver

def queue (d : Driver) (work : Work) : State × List Entry :=
  ({ c with items := c.items ++ [⟨d, work, .queued, none, false⟩] },
    (work.mallocs d).map fun part => .malloc ⟨c.items.length, part⟩)

/-- `connect`, `query` and `close` of the managers. -/
def call : Call → Option (State × List Entry)
  | .connect d => some (c.queue d .connect)
  | .query k text stale => (c.contextDriver k).map fun d =>
    if c.closedAs k stale then (c, []) else c.queue d (.query k text)
  | .close k stale => (c.contextDriver k).map fun d =>
    if c.closedAs k stale then (c, [])
    else { c with is_closed := Function.update c.is_closed k true }.queue d (.close k)

/-- What a worker has left. -/
def worked (i : Nat) (item : Item) (err : Option Bytes) (context : Bool) : State × List Entry :=
  let item := { item with phase := .worked, err := err, context := context }
  ({ c with items := c.items.set i item }, item.workMallocs.map fun part => .malloc ⟨i, part⟩)

def completed (i : Nat) (item : Item) : State where
  items := c.items.set i { item with phase := .completed }
  is_closed := c.is_closed
  -- `on_close_complete`
  freed := fun k => c.freed k || item.work = .close k

end State

def step (c : State) : Event → Option (State × List Entry)
  | .call call => c.call call
  | .connect_work i o => (c.itemAt i .queued).bind fun item =>
    match item.work with
    | .connect => (connect_work item.driver o).map fun r => c.worked i item r.1 r.2
    | _ => none
  | .query_work i d o => (c.itemAt i .queued).bind fun item =>
    match item.work with
    | .query _ text =>
      if item.driver = d then
        (d.queryWork text o).map fun answer => c.worked i item answer.1 false
      else none
    | _ => none
  | .close_work i => (c.itemAt i .queued).bind fun item =>
    match item.work with
    | .close _ => some (c.worked i item none false)
    | _ => none
  | .complete i calls => (c.itemAt i .worked).bind fun item =>
    match item.work, calls with
    -- a close has no callback
    | .close _, _ :: _ => none
    | _, _ => (Lib.run State.call (c.completed i item, []) calls).map fun r =>
      (r.1, r.2 ++ (item.frees i).map .free)

def run (events : List Event) : Option (State × List Entry) := Lib.run step (init, []) events

/-- The work whose worker it is. -/
def Event.worker : Event → Option Nat
  | .connect_work i _ | .query_work i _ _ | .close_work i => some i
  | .call _ | .complete _ _ => none

/-! ## What is wanted -/

/-- All started work has completed. -/
def Quiescent (c : State) : Prop := ∀ item ∈ c.items, item.phase = .completed

/-- A block of a context that is open. -/
def Owned (c : State) (b : Block) : Prop :=
  c.is_closed b.item = false ∧ ∃ item ∈ c.items[b.item]?, item.context = true ∧
    (b.part = .context ∨ b.part = .db_name ∧ item.driver = .mysql)

instance Owned.decidable (c : State) (b : Block) : Decidable (Owned c b) :=
  inferInstanceAs (Decidable (_ ∧ ∃ item ∈ c.items[b.item]?, item.context = true ∧
    (b.part = .context ∨ b.part = .db_name ∧ item.driver = .mysql)))

/-- It does not connect to MySQL. -/
def OnRedis (_ : State × List Entry) : Call → Prop
  | .connect d => d = .redis
  | .query _ _ _ | .close _ _ => True

/-- It does not close a context that is gone and reads as open. -/
def Fresh (c : State × List Entry) : Call → Prop
  | .close k stale => c.1.freed k = true → stale = true
  | .connect _ | .query _ _ _ => True

instance OnRedis.decidable (c : State × List Entry) :
    (call : Call) → Decidable (OnRedis c call)
  | .connect d => inferInstanceAs (Decidable (d = .redis))
  | .query _ _ _ | .close _ _ => .isTrue trivial

instance Fresh.decidable (c : State × List Entry) : (call : Call) → Decidable (Fresh c call)
  | .close k stale => inferInstanceAs (Decidable (c.1.freed k = true → stale = true))
  | .connect _ | .query _ _ _ => .isTrue trivial

/-- All its calls meet `P`. -/
def Calls (P : State × List Entry → Call → Prop) (c : State) : Event → Prop
  | .call call => P (c, []) call
  | .complete i calls => ∀ item ∈ c.itemAt i .worked,
    Along State.call P (c.completed i item, []) calls
  | .connect_work _ _ | .query_work _ _ _ | .close_work _ => True

instance Calls.decidable (P : State × List Entry → Call → Prop) [∀ c call, Decidable (P c call)]
    (c : State) : (e : Event) → Decidable (Calls P c e)
  | .call call => inferInstanceAs (Decidable (P (c, []) call))
  | .complete i calls => inferInstanceAs (Decidable (∀ item ∈ c.itemAt i .worked,
      Along State.call P (c.completed i item, []) calls))
  | .connect_work _ _ | .query_work _ _ _ | .close_work _ => .isTrue trivial

/-! ## What is kept of contexts -/

/-- Closes belong to contexts that were made, and mark them. -/
structure Kept (c : State) : Prop where
  made : ∀ item ∈ c.items, item.context = true → item.work = .connect ∧ item.err = none
  queued : ∀ item ∈ c.items, item.phase = .queued → item.err = none ∧ item.context = false
  closing : ∀ item ∈ c.items, ∀ k, item.work = .close k →
    c.is_closed k = true ∧ ∃ made, c.items[k]? = some made ∧ made.context = true
  closed : ∀ k, c.is_closed k = true → ∃ item ∈ c.items, item.work = .close k
  freed : ∀ k, c.freed k = true ↔ ∃ item ∈ c.items, item.work = .close k ∧ item.phase = .completed

section Contexts

variable {c c' : State} {i k : Nat} {item : Item} {d : Driver} {work : Work}

theorem itemAt_eq_some {phase : Phase} :
    c.itemAt i phase = some item ↔ c.items[i]? = some item ∧ item.phase = phase := by
  rw [State.itemAt, Option.filter_eq_some_iff, decide_eq_true_iff]

theorem Kept.init : Kept Requests.init where
  made _ h := by cases h
  queued _ h := by cases h
  closing _ h := by cases h
  closed _ h := by cases h
  freed k := by simp [Requests.init]

/-- More work, which marks a context that it closes. -/
theorem Kept.queue (h : Kept c) (d : Driver) (work : Work) {is_closed : Nat → Bool}
    (hclosed : ∀ k, is_closed k = true ↔ c.is_closed k = true ∨ work = .close k)
    (hmade : ∀ k, work = .close k → ∃ made, c.items[k]? = some made ∧ made.context = true) :
    Kept ({ c with is_closed := is_closed }.queue d work).1 where
  made item hitem hcontext := by
    rcases List.mem_append.mp hitem with hold | hnew
    · exact h.made item hold hcontext
    · rw [List.mem_singleton.mp hnew] at hcontext
      cases hcontext
  queued item hitem hphase := by
    rcases List.mem_append.mp hitem with hold | hnew
    · exact h.queued item hold hphase
    · rw [List.mem_singleton.mp hnew]
      exact ⟨rfl, rfl⟩
  closing item hitem k hwork := by
    have hsome : is_closed k = true ∧ ∃ made, c.items[k]? = some made ∧ made.context = true := by
      rcases List.mem_append.mp hitem with hold | hnew
      · obtain ⟨hk, hold⟩ := h.closing item hold k hwork
        exact ⟨(hclosed k).mpr (.inl hk), hold⟩
      · rw [List.mem_singleton.mp hnew] at hwork
        exact ⟨(hclosed k).mpr (.inr hwork), hmade k hwork⟩
    obtain ⟨hk, made, hget, hcontext⟩ := hsome
    exact ⟨hk, made, getElem?_of_snoc hget, hcontext⟩
  closed k hk := by
    rcases (hclosed k).mp hk with hk | hwork
    · obtain ⟨item, hitem, hwork⟩ := h.closed k hk
      exact ⟨item, List.mem_append_left _ hitem, hwork⟩
    · exact ⟨_, List.mem_append_right _ (List.mem_singleton_self _), hwork⟩
  freed k := by
    refine (h.freed k).trans ⟨fun ⟨item, hitem, hdone⟩ => ?_, fun ⟨item, hitem, hdone⟩ => ?_⟩
    · exact ⟨item, List.mem_append_left _ hitem, hdone⟩
    · rcases List.mem_append.mp hitem with hold | hnew
      · exact ⟨item, hold, hdone⟩
      · rw [List.mem_singleton.mp hnew] at hdone
        cases hdone.2

/-- The next phase of some work. -/
theorem Kept.set (h : Kept c) (hget : c.items[i]? = some item) (next : Item)
    (hwork : next.work = item.work) (hphase : next.phase ≠ .queued)
    (hkeep : item.context = true → next.context = true)
    (hmade : next.context = true → next.work = .connect ∧ next.err = none) {freed : Nat → Bool}
    (hfreed : ∀ k, freed k = true ↔
      ∃ x ∈ c.items.set i next, x.work = .close k ∧ x.phase = .completed) :
    Kept ⟨c.items.set i next, c.is_closed, freed⟩ where
  made x hx hcontext := by
    rcases List.mem_or_eq_of_mem_set hx with hold | rfl
    · exact h.made x hold hcontext
    · exact hmade hcontext
  queued x hx hx' := by
    rcases List.mem_or_eq_of_mem_set hx with hold | rfl
    · exact h.queued x hold hx'
    · exact absurd hx' hphase
  closing x hx k hk := by
    have hsome : c.is_closed k = true ∧ ∃ made, c.items[k]? = some made ∧ made.context = true := by
      rcases List.mem_or_eq_of_mem_set hx with hold | rfl
      · exact h.closing x hold k hk
      · exact h.closing item (List.mem_of_getElem? hget) k (hwork ▸ hk)
    obtain ⟨hclosed, made, hmade', hcontext⟩ := hsome
    refine ⟨hclosed, ?_⟩
    by_cases hik : i = k
    · rw [← hik] at hmade' ⊢
      rw [hget, Option.some.injEq] at hmade'
      refine ⟨next, List.getElem?_set_self (List.getElem?_eq_some_iff.mp hget).1, hkeep ?_⟩
      rw [hmade', hcontext]
    · exact ⟨made, (List.getElem?_set_ne hik).trans hmade', hcontext⟩
  closed k hk := exists_mem_set hget (fun hx => hwork.trans hx) (h.closed k hk)
  freed := hfreed

/-- A worker returns. -/
theorem Kept.worked (h : Kept c) (hitem : c.itemAt i .queued = some item) {err : Option Bytes}
    {context : Bool} (hmade : context = true → item.work = .connect ∧ err = none) :
    Kept (c.worked i item err context).1 := by
  obtain ⟨hget, hphase⟩ := itemAt_eq_some.mp hitem
  have hnone := (h.queued item (List.mem_of_getElem? hget) hphase).2
  refine h.set hget { item with phase := .worked, err := err, context := context } rfl nofun
    (fun hcontext => ?_) hmade fun k => ?_
  · rw [hnone] at hcontext
    cases hcontext
  · refine (h.freed k).trans ⟨exists_mem_set hget fun hdone => ?_, fun ⟨x, hx, hdone⟩ => ?_⟩
    · rw [hphase] at hdone
      cases hdone.2
    · rcases List.mem_or_eq_of_mem_set hx with hold | rfl
      · exact ⟨x, hold, hdone⟩
      · cases hdone.2

/-- Work is completed. -/
theorem Kept.completed (h : Kept c) (hitem : c.itemAt i .worked = some item) :
    Kept (c.completed i item) := by
  obtain ⟨hget, hphase⟩ := itemAt_eq_some.mp hitem
  have hmem := List.mem_of_getElem? hget
  refine h.set hget { item with phase := .completed } rfl nofun id (h.made item hmem) fun k => ?_
  rw [Bool.or_eq_true, decide_eq_true_iff, h.freed k]
  constructor
  · rintro (hold | hwork)
    · exact exists_mem_set hget (fun hdone => ⟨hdone.1, hdone.2 ▸ rfl⟩) hold
    · refine ⟨_, List.mem_of_getElem? (List.getElem?_set_self ?_), hwork, rfl⟩
      exact (List.getElem?_eq_some_iff.mp hget).1
  · rintro ⟨x, hx, hdone⟩
    rcases List.mem_or_eq_of_mem_set hx with hx | rfl
    · exact .inl ⟨x, hx, hdone⟩
    · exact .inr hdone.1

/-- What a call can do. -/
inductive Called (c : State) : Call → State × List Entry → Prop where
  | connect (d : Driver) : Called c (.connect d) (c.queue d .connect)
  | query (d : Driver) (k : Nat) (text : Bytes) (stale : Bool) :
      Called c (.query k text stale) (c.queue d (.query k text))
  | close (d : Driver) (k : Nat) (stale : Bool) :
      (∃ made, c.items[k]? = some made ∧ made.context = true) → c.closedAs k stale = false →
      Called c (.close k stale)
        ({ c with is_closed := Function.update c.is_closed k true }.queue d (.close k))
  | notQueried (k : Nat) (text : Bytes) (stale : Bool) : Called c (.query k text stale) (c, [])
  | notClosed (k : Nat) (stale : Bool) : c.closedAs k stale = true →
      Called c (.close k stale) (c, [])

theorem call_cases {call : Call} {r : State × List Entry} (h : c.call call = some r) :
    Called c call r := by
  cases call with
  | connect d =>
    cases h
    exact .connect d
  | query k text stale =>
    obtain ⟨d, -, h⟩ := Option.map_eq_some_iff.mp h
    split at h
    · cases h
      exact .notQueried k text stale
    · cases h
      exact .query d k text stale
  | close k stale =>
    obtain ⟨d, hd, h⟩ := Option.map_eq_some_iff.mp h
    split at h
    · rename_i hclosed
      cases h
      exact .notClosed k stale hclosed
    · rename_i hopen
      cases h
      obtain ⟨made, hmade, -⟩ := Option.map_eq_some_iff.mp hd
      obtain ⟨hget, hcontext⟩ := Option.filter_eq_some_iff.mp hmade
      exact .close d k stale ⟨made, (itemAt_eq_some.mp hget).1, hcontext⟩
        (Bool.eq_false_iff.mpr hopen)

/-- A call of the managers. -/
theorem Kept.call (h : Kept c) {call : Call} {r : State × List Entry} (hcall : Called c call r) :
    Kept r.1 := by
  cases hcall with
  | connect d => exact h.queue d .connect (fun k => by simp) nofun
  | query d k text stale => exact h.queue d (.query k text) (fun k => by simp) nofun
  | close d k stale hmade _ =>
    refine h.queue d (.close k) (fun x => ?_) fun x hx => ?_
    · by_cases hx : x = k
      · rw [hx, Function.update_self]
        exact iff_of_true rfl (.inr rfl)
      · rw [Function.update_of_ne hx, Work.close.injEq]
        exact (or_iff_left (Ne.symm hx)).symm
    · cases hx
      exact hmade
  | notQueried k text stale => exact h
  | notClosed k stale _ => exact h

end Contexts

/-! ## Counting blocks -/

def Item.mallocs (item : Item) : List Part := item.work.mallocs item.driver ++ item.workMallocs

/-- Its own blocks that have been given back. -/
def Item.freed (item : Item) : List Part :=
  if item.phase = .completed then item.completeFrees else []

/-- A close of the context that has come to its end. -/
def Item.Closed (k : Nat) (item : Item) : Bool :=
  item.work = .close k && item.phase = .completed

/-- The blocks of work `i`. -/
def partsOf (f : Item → List Part) (items : List Item) (i : Nat) : List Part := items[i]?.elim [] f

/-- How often each block was obtained and given back. -/
structure Books (c : State) (trace : List Entry) : Prop where
  mallocs : ∀ i p, mallocs trace ⟨i, p⟩ = (partsOf Item.mallocs c.items i).count p
  frees : ∀ i p, frees trace ⟨i, p⟩ = (partsOf Item.freed c.items i).count p +
    if p = .context then c.items.countP (Item.Closed i) else 0

section Counting

variable {c c' : State} {trace out : List Entry} {i k : Nat} {item next : Item} {p : Part}
  {f : Item → List Part} {items : List Item}

theorem partsOf_get (hget : items[i]? = some item) : partsOf f items i = f item := by
  rw [partsOf, hget, Option.elim_some]

theorem partsOf_none (hi : items.length ≤ i) : partsOf f items i = [] := by
  rw [partsOf, List.getElem?_eq_none hi, Option.elim_none]

theorem partsOf_snoc (j : Nat) :
    partsOf f (items ++ [next]) j = if j = items.length then f next else partsOf f items j := by
  by_cases hj : j = items.length
  · rw [if_pos hj, hj]
    exact partsOf_get List.getElem?_concat_length
  · rw [if_neg hj]
    by_cases hlt : j < items.length
    · rw [partsOf, List.getElem?_append_left hlt, partsOf]
    · have hlen : (items ++ [next]).length ≤ j := by
        rw [List.length_append, List.length_singleton]
        omega
      rw [partsOf_none hlen, partsOf_none (Nat.not_lt.mp hlt)]

theorem partsOf_set (hget : items[i]? = some item) (j : Nat) :
    partsOf f (items.set i next) j = if j = i then f next else partsOf f items j := by
  by_cases hj : j = i
  · rw [if_pos hj, hj]
    exact partsOf_get (List.getElem?_set_self (List.getElem?_eq_some_iff.mp hget).1)
  · rw [if_neg hj, partsOf, List.getElem?_set_ne (Ne.symm hj), partsOf]

theorem count_block (parts : List Part) (i j : Nat) (p : Part) :
    (parts.map (Block.mk i)).count ⟨j, p⟩ = if j = i then parts.count p else 0 := by
  split
  · rename_i hj
    rw [hj]
    exact List.count_map_of_injective parts _ (fun _ _ h => (Block.mk.inj h).2) p
  · rename_i hj
    refine List.count_eq_zero.mpr fun h => hj ?_
    obtain ⟨x, -, hx⟩ := List.mem_map.mp h
    exact (Block.mk.inj hx).1.symm

/-- What the blocks of some work come to when only they are obtained. -/
theorem mallocs_own (parts : List Part) (i j : Nat) (p : Part) :
    HeapEntry.mallocs (parts.map fun part => HeapEntry.malloc (Block.mk i part)) ⟨j, p⟩ =
      if j = i then parts.count p else 0 := by
  have hmap := mallocs_malloc (parts.map (Block.mk i)) ⟨j, p⟩
  rw [List.map_map, count_block] at hmap
  exact hmap

theorem frees_own (parts : List Part) (i j : Nat) (p : Part) :
    HeapEntry.frees (parts.map fun part => HeapEntry.malloc (Block.mk i part)) ⟨j, p⟩ = 0 := by
  have hmap := frees_malloc (parts.map (Block.mk i)) ⟨j, p⟩
  rw [List.map_map] at hmap
  exact hmap

theorem Books.init : Books Requests.init [] where
  mallocs _ _ := rfl
  frees _ p := by cases p <;> rfl

theorem Books.queue (h : Books c trace) (d : Driver) (work : Work) (is_closed : Nat → Bool) :
    Books ({ c with is_closed := is_closed }.queue d work).1
      (trace ++ ({ c with is_closed := is_closed }.queue d work).2) where
  mallocs j p := by
    have hnew : Item.mallocs ⟨d, work, .queued, none, false⟩ = work.mallocs d := by
      cases d <;> cases work <;> rfl
    unfold State.queue
    rw [mallocs_append, h.mallocs, mallocs_own, partsOf_snoc, hnew]
    by_cases hj : j = c.items.length
    · rw [if_pos hj, if_pos hj, hj, partsOf_none (Nat.le_refl _), List.count_nil, Nat.zero_add]
    · rw [if_neg hj, if_neg hj, Nat.add_zero]
  frees j p := by
    have hnew : Item.Closed j ⟨d, work, .queued, none, false⟩ = false := Bool.and_false _
    unfold State.queue
    rw [frees_append, h.frees, frees_own, Nat.add_zero, List.countP_append, List.countP_singleton,
      hnew, if_neg Bool.false_ne_true, Nat.add_zero, partsOf_snoc]
    congr 2
    split
    · rename_i hj
      rw [hj, partsOf_none (Nat.le_refl _)]
      rfl
    · rfl

/-- One item goes on. -/
theorem countP_set_closed (hget : items[i]? = some item) (hold : Item.Closed k item = false) :
    (items.set i next).countP (Item.Closed k) =
      items.countP (Item.Closed k) + if Item.Closed k next then 1 else 0 := by
  obtain ⟨hlt, rfl⟩ := List.getElem?_eq_some_iff.mp hget
  rw [List.countP_set hlt, hold, if_neg Bool.false_ne_true, Nat.sub_zero]

/-- The next phase of some work. -/
theorem Books.worked (h : Books c trace) (hkept : Kept c) (hitem : c.itemAt i .queued = some item)
    (err : Option Bytes) (context : Bool) :
    Books (c.worked i item err context).1 (trace ++ (c.worked i item err context).2) := by
  obtain ⟨hget, hphase⟩ := itemAt_eq_some.mp hitem
  obtain ⟨herr, hcontext⟩ := hkept.queued item (List.mem_of_getElem? hget) hphase
  refine ⟨fun j p => ?_, fun j p => ?_⟩
  · unfold State.worked
    rw [mallocs_append, h.mallocs, mallocs_own, partsOf_set hget]
    by_cases hj : j = i
    · have hold : item.workMallocs = [] := by
        unfold Item.workMallocs Item.contextBlock Item.errBlock
        rw [herr, hcontext]
        cases item.work <;> cases item.driver <;> rfl
      rw [if_pos hj, if_pos hj, hj, partsOf_get hget, Item.mallocs, hold, List.append_nil,
        Item.mallocs, List.count_append]
    · rw [if_neg hj, if_neg hj, Nat.add_zero]
  · unfold State.worked
    have hold : Item.Closed j item = false := by simp [Item.Closed, hphase]
    have hnew : Item.Closed j ⟨item.driver, item.work, .worked, err, context⟩ = false :=
      Bool.and_false _
    rw [frees_append, h.frees, frees_own, Nat.add_zero, partsOf_set hget,
      countP_set_closed hget hold, hnew, if_neg Bool.false_ne_true, Nat.add_zero]
    congr 2
    split
    · rename_i hj
      rw [hj, partsOf_get hget, Item.freed, hphase]
      rfl
    · rfl

/-- What the end of some work gives back. -/
theorem count_frees (item : Item) (i j : Nat) (p : Part) :
    (item.frees i).count ⟨j, p⟩ = (if j = i then item.completeFrees.count p else 0) +
      if p = .context ∧ item.work = .close j then 1 else 0 := by
  have hown := count_block item.completeFrees i j p
  unfold Item.frees
  cases hwork : item.work with
  | close k =>
    simp only
    rw [List.count_cons, hown]
    congr 2
    simp only [beq_iff_eq, Block.mk.injEq, Work.close.injEq, eq_iff_iff]
    rw [and_comm, eq_comm (b := p)]
  | connect => simpa using hown
  | query k text => simpa using hown

/-- Work is completed. -/
theorem Books.completed (h : Books c trace) (hitem : c.itemAt i .worked = some item) :
    Books (c.completed i item) (trace ++ (item.frees i).map .free) := by
  obtain ⟨hget, hphase⟩ := itemAt_eq_some.mp hitem
  have hold : ∀ k, Item.Closed k item = false := fun k => by simp [Item.Closed, hphase]
  refine ⟨fun j p => ?_, fun j p => ?_⟩
  · unfold State.completed
    rw [mallocs_append, h.mallocs, mallocs_free, Nat.add_zero, partsOf_set hget]
    split
    · rename_i hj
      rw [hj, partsOf_get hget]
      rfl
    · rfl
  · unfold State.completed
    rw [frees_append, h.frees, frees_free, count_frees, partsOf_set hget,
      countP_set_closed hget (hold j)]
    have hnew : Item.Closed j ⟨item.driver, item.work, .completed, item.err, item.context⟩ =
        decide (item.work = .close j) := Bool.and_true _
    rw [hnew]
    have hfreed : (partsOf Item.freed c.items i).count p = 0 := by
      rw [partsOf_get hget, Item.freed, hphase, if_neg nofun, List.count_nil]
    by_cases hj : j = i
    · rw [if_pos hj, if_pos hj, hj, hfreed]
      by_cases hp : p = .context
      · simp only [hp, if_true, true_and, decide_eq_true_eq]
        show 0 + _ + _ = item.completeFrees.count _ + _
        omega
      · simp only [hp, if_false, false_and]
        show 0 + 0 + (_ + 0) = item.completeFrees.count p + 0
        omega
    · rw [if_neg hj, if_neg hj]
      by_cases hp : p = .context
      · simp only [hp, if_true, true_and, decide_eq_true_eq]
        omega
      · simp only [hp, if_false, false_and]

end Counting

/-! ## What is given back is there -/

/-- What has been asked of the managers. -/
def asked (c : State) : List (Driver × Work) := c.items.map fun item => (item.driver, item.work)

/-- No context is closed twice. -/
def ClosedOnce (c : State) : Prop := ∀ k, (asked c).countP (fun x => x.2 = .close k) ≤ 1

section Given

variable {c c' : State} {trace out : List Entry} {i k : Nat} {item : Item} {p : Part}

theorem countP_asked (c : State) (k : Nat) :
    (asked c).countP (fun x => x.2 = .close k) = c.items.countP fun item => item.work = .close k :=
  List.countP_map

/-- While a close is not completed, no other one is. -/
theorem ClosedOnce.none (h : ClosedOnce c) (hget : c.items[i]? = some item)
    (hphase : item.phase ≠ .completed) (hwork : item.work = .close k) :
    c.items.countP (Item.Closed k) = 0 := by
  have hone := h k
  rw [countP_asked, List.countP_eq_countP_filter_add c.items _ (·.phase = .completed),
    List.countP_filter] at hone
  have hleft : 0 < (c.items.filter fun x => !decide (x.phase = .completed)).countP
      fun x => x.work = .close k := by
    refine List.countP_pos_iff.mpr ⟨item, ?_, decide_eq_true hwork⟩
    exact List.mem_filter.mpr ⟨List.mem_of_getElem? hget, by simpa using hphase⟩
  have hclosed : c.items.countP (Item.Closed k) ≤ 0 := by
    unfold Item.Closed
    omega
  exact Nat.le_zero.mp hclosed

theorem context_notMem_completeFrees (item : Item) : .context ∉ item.completeFrees := by
  unfold Item.completeFrees Item.errBlock
  cases item.work <;> cases item.driver <;> cases item.context <;> cases item.err <;> simp

theorem count_context_freed (items : List Item) (j : Nat) :
    (partsOf Item.freed items j).count .context = 0 := by
  refine List.count_eq_zero.mpr fun h => ?_
  unfold partsOf Item.freed at h
  cases hget : items[j]? with
  | none =>
    rw [hget] at h
    cases h
  | some item =>
    rw [hget, Option.elim_some] at h
    split at h
    · exact context_notMem_completeFrees item h
    · cases h

theorem count_context_mallocs (item : Item) : item.mallocs.count .context =
    if item.work = .connect ∧ item.context = true then 1 else 0 := by
  obtain ⟨d, work, phase, err, context⟩ := item
  cases work <;> cases d <;> cases context <;> cases err <;> rfl

/-- What the end of some work leaves. -/
def Item.left (item : Item) : List Part :=
  match item.work, item.driver with
  | .connect, .mysql =>
    if item.context then [.r, .db_name, .context] else [.ip, .db_name, .uname, .upwd]
  | .connect, .redis => item.contextBlock
  | .query _ _, _ => []
  | .close _, _ => []

/-- **What was obtained** is given back or left. -/
theorem count_mallocs (hmade : item.context = true → item.err = none) (p : Part) :
    item.mallocs.count p = item.completeFrees.count p + item.left.count p := by
  obtain ⟨d, work, phase, err, context⟩ := item
  cases context with
  | true =>
    cases hmade rfl
    cases work <;> cases d <;> cases p <;> rfl
  | false => cases work <;> cases d <;> cases err <;> cases p <;> rfl

/-- **What the end of some work gives back** is there, if it does not close a
context a second time. -/
theorem Books.freeable (h : Books c trace) (hkept : Kept c)
    (hitem : c.itemAt i .worked = some item)
    (honce : ∀ k, item.work = .close k → c.items.countP (Item.Closed k) = 0) (b : Block) :
    (item.frees i).count b ≤ live trace b := by
  obtain ⟨hget, hphase⟩ := itemAt_eq_some.mp hitem
  have hmem := List.mem_of_getElem? hget
  obtain ⟨j, p⟩ := b
  rw [count_frees]
  unfold live
  rw [h.mallocs, h.frees]
  by_cases hp : p = .context
  · have hown : item.completeFrees.count .context = 0 :=
      List.count_eq_zero.mpr (context_notMem_completeFrees item)
    rw [hp, hown, count_context_freed]
    simp only [ite_self, true_and, if_true, Nat.zero_add]
    split
    · rename_i hwork
      obtain ⟨-, made, hmade, hcontext⟩ := hkept.closing item hmem j hwork
      obtain ⟨hconnect, -⟩ := hkept.made made (List.mem_of_getElem? hmade) hcontext
      rw [honce j hwork, partsOf_get hmade, count_context_mallocs, if_pos ⟨hconnect, hcontext⟩]
    · exact Nat.zero_le _
  · have hfreed : (partsOf Item.freed c.items i).count p = 0 := by
      rw [partsOf_get hget, Item.freed, hphase, if_neg nofun, List.count_nil]
    simp only [hp, if_false, false_and, Nat.add_zero]
    split
    · rename_i hj
      have hall := count_mallocs (fun hcontext => (hkept.made item hmem hcontext).2) p
      rw [hj, hfreed, partsOf_get hget]
      omega
    · exact Nat.zero_le _

/-! ## Steps -/

/-- Connects are redis's. -/
def AllRedis (c : State) : Prop := ∀ x ∈ asked c, x.2 = .connect → x.1 = .redis

theorem Books.call (h : Books c trace) {call : Call} {r : State × List Entry}
    (hcall : Called c call r) : Books r.1 (trace ++ r.2) := by
  cases hcall with
  | connect d => exact h.queue d .connect c.is_closed
  | query d k text stale => exact h.queue d (.query k text) c.is_closed
  | close d k stale _ _ => exact h.queue d (.close k) _
  | notQueried k text stale => rwa [List.append_nil]
  | notClosed k stale _ => rwa [List.append_nil]

theorem asked_queue (c : State) (d : Driver) (work : Work) :
    asked (c.queue d work).1 = asked c ++ [(d, work)] := List.map_append

/-- A call obtains blocks and asks for more. -/
theorem Called.grows {call : Call} {r : State × List Entry} (hcall : Called c call r) :
    (∃ bs : List Block, r.2 = bs.map .malloc) ∧ ∃ more, asked r.1 = asked c ++ more := by
  have hqueue : ∀ (c' : State) (d : Driver) (work : Work),
      ∃ bs : List Block, (c'.queue d work).2 = bs.map .malloc := fun c' d work =>
    ⟨(work.mallocs d).map (Block.mk c'.items.length), (List.map_map ..).symm⟩
  cases hcall with
  | connect d => exact ⟨hqueue c d _, _, asked_queue ..⟩
  | query d k text stale => exact ⟨hqueue c d _, _, asked_queue ..⟩
  | close d k stale _ _ => exact ⟨hqueue _ d _, _, asked_queue ..⟩
  | notQueried k text stale => exact ⟨⟨[], rfl⟩, [], (List.append_nil _).symm⟩
  | notClosed k stale _ => exact ⟨⟨[], rfl⟩, [], (List.append_nil _).symm⟩

theorem ClosedOnce.of_append {more : List (Driver × Work)} (h : asked c' = asked c ++ more)
    (honce : ClosedOnce c') : ClosedOnce c := by
  intro k
  have hall := honce k
  rw [h, List.countP_append] at hall
  omega

/-- The calls that meet `P` are those that keep `R`, which is about what was
asked for. -/
structure Decides (P : State × List Entry → Call → Prop) (R : State → Prop) : Prop where
  asked : ∀ c c', asked c' = asked c → (R c' ↔ R c)
  call : ∀ {c call r}, Kept c → Called c call r → ∀ trace, (R r.1 ↔ R c ∧ P (c, trace) call)

theorem onRedis_decides : Decides OnRedis AllRedis where
  asked c c' h := by
    unfold AllRedis
    rw [h]
  call {c _ _} _ hcall _ := by
    have hqueue : ∀ (c' : State) (d : Driver) (work : Work), asked c' = asked c →
        (AllRedis (c'.queue d work).1 ↔ AllRedis c ∧ (work = .connect → d = .redis)) := by
      intro c' d work hc
      unfold AllRedis
      rw [asked_queue, hc]
      simp only [List.mem_append, List.mem_singleton, or_imp, forall_and, forall_eq]
    cases hcall with
    | connect d =>
      rw [hqueue c d .connect rfl]
      exact and_congr_right' ⟨fun hnew => hnew rfl, fun hd _ => hd⟩
    | query d k text stale =>
      rw [hqueue c d (.query k text) rfl]
      exact and_congr_right' (iff_of_true nofun trivial)
    | close d k stale _ _ =>
      exact (hqueue _ d (.close k) rfl).trans (and_congr_right' (iff_of_true nofun trivial))
    | notQueried k text stale => exact (and_iff_left trivial).symm
    | notClosed k stale _ => exact (and_iff_left trivial).symm

theorem fresh_decides : Decides Fresh ClosedOnce where
  asked c c' h := by
    unfold ClosedOnce
    rw [h]
  call {c _ _} h hcall _ := by
    have hqueue : ∀ (c' : State) (d : Driver) (work : Work), asked c' = asked c →
        (∀ k, work = .close k → (asked c).countP (fun x => x.2 = .close k) = 0) →
          (ClosedOnce (c'.queue d work).1 ↔ ClosedOnce c) := by
      intro c' d work hc hnone
      unfold ClosedOnce
      rw [asked_queue, hc]
      refine forall_congr' fun k => ?_
      simp only [List.countP_append, List.countP_singleton, decide_eq_true_eq]
      split
      · rename_i hk
        rw [hnone k hk]
        exact iff_of_true (Nat.le_refl 1) (Nat.zero_le 1)
      · rw [Nat.add_zero]
    cases hcall with
    | connect d =>
      rw [hqueue c d .connect rfl nofun]
      exact (and_iff_left trivial).symm
    | query d k text stale =>
      rw [hqueue c d (.query k text) rfl nofun]
      exact (and_iff_left trivial).symm
    | close d k stale hmade hopen =>
      constructor
      · intro honce
        have hk := honce k
        rw [asked_queue, List.countP_append, List.countP_singleton,
          if_pos (decide_eq_true rfl)] at hk
        refine ⟨ClosedOnce.of_append (asked_queue _ d (.close k)) honce, fun hfreed => ?_⟩
        -- it was closed before
        obtain ⟨item, hitem, hwork, -⟩ := (h.freed k).mp hfreed
        have hpos : 0 < (asked c).countP (fun x => x.2 = .close k) := by
          rw [countP_asked]
          exact List.countP_pos_iff.mpr ⟨item, hitem, decide_eq_true hwork⟩
        exact absurd hpos (by
          have hzero : (asked c).countP (fun x => x.2 = .close k) + 1 ≤ 1 := hk
          omega)
      · rintro ⟨honce, hfresh⟩
        refine (hqueue _ d (.close k) rfl fun x hx => ?_).mpr honce
        cases hx
        rw [countP_asked, List.countP_eq_zero]
        intro item hitem hwork
        have hclosed := (h.closing item hitem k (of_decide_eq_true hwork)).1
        unfold State.closedAs at hopen
        split at hopen
        · rename_i hfreed
          cases hopen.symm.trans (hfresh hfreed)
        · cases hopen.symm.trans hclosed
    | notQueried k text stale => exact (and_iff_left trivial).symm
    | notClosed k stale hclosed =>
      refine (and_iff_left fun hfreed => ?_).symm
      unfold State.closedAs at hclosed
      rwa [if_pos hfreed] at hclosed

/-- What holds in every run. -/
structure Ok (c : State × List Entry) : Prop where
  kept : Kept c.1
  books : Books c.1 c.2
  sound : ClosedOnce c.1 → Sound c.2

/-- What the calls of a callback do, from `c`. -/
structure Grown (c : State) (r : State × List Entry) : Prop where
  out : ∃ bs : List Block, r.2 = bs.map .malloc
  asked : ∃ more, asked r.1 = asked c ++ more

theorem Grown.calls {calls : List Call} {r : State × List Entry}
    (hrun : Lib.run State.call (c, []) calls = some r) : Grown c r := by
  refine run_invariant (I := Grown c) (P := fun _ _ => True) ?_
    ⟨⟨[], rfl⟩, [], (List.append_nil _).symm⟩ (along_true _ _) hrun
  rintro ⟨c₁, out₁⟩ call r' ⟨⟨bs, hbs⟩, more, hmore⟩ - hrecord
  obtain ⟨s, out, hcall, rfl⟩ := record_eq_some.mp hrecord
  obtain ⟨⟨bs', hout⟩, more', hmore'⟩ := (call_cases hcall).grows
  refine ⟨⟨bs ++ bs', ?_⟩, more ++ more', ?_⟩
  · rw [List.map_append, ← hbs, ← hout]
  · rw [hmore', ← List.append_assoc, ← hmore]

/-- They keep the books. -/
theorem Kept.calls (h : Kept c) (hbooks : Books c trace) {calls : List Call}
    {r : State × List Entry} (hrun : Lib.run State.call (c, []) calls = some r) :
    Kept r.1 ∧ Books r.1 (trace ++ r.2) := by
  have hrun' : Lib.run State.call (c, trace ++ []) calls = _ := run_append c trace [] calls
  rw [List.append_nil, hrun] at hrun'
  refine run_invariant (I := fun c => Kept c.1 ∧ Books c.1 c.2) (P := fun _ _ => True) ?_
    ⟨h, hbooks⟩ (along_true _ _) hrun'
  rintro ⟨c₁, trace₁⟩ call r' ⟨hkept, hbooks⟩ - hrecord
  obtain ⟨s, out, hcall, rfl⟩ := record_eq_some.mp hrecord
  have hcalled := call_cases hcall
  have hafter : Kept (s, out).1 := hkept.call hcalled
  exact ⟨hafter, hbooks.call hcalled⟩

theorem Decides.calls {P : State × List Entry → Call → Prop} {R : State → Prop}
    (hP : Decides P R) (h : Kept c) {calls : List Call} {r : State × List Entry}
    (hrun : Lib.run State.call (c, []) calls = some r) :
    R r.1 ↔ R c ∧ Along State.call P (c, []) calls := by
  refine run_iff_along (I := fun c => Kept c.1) (R := fun c => R c.1) ?_ h hrun
  rintro ⟨c₁, out₁⟩ call r' hkept hrecord
  obtain ⟨s, out, hcall, rfl⟩ := record_eq_some.mp hrecord
  have hcalled := call_cases hcall
  have hafter : Kept (s, out).1 := hkept.call hcalled
  exact ⟨hafter, hP.call hkept hcalled out₁⟩

/-- Work goes on with the same that was asked for. -/
theorem asked_set {items : List Item} {next : Item} (hget : items[i]? = some item)
    (hdriver : next.driver = item.driver) (hwork : next.work = item.work) :
    (items.set i next).map (fun x => (x.driver, x.work)) =
      items.map fun x => (x.driver, x.work) := by
  rw [List.map_set, hdriver, hwork]
  refine List.ext_getElem? fun j => ?_
  by_cases hj : i = j
  · rw [← hj, List.getElem?_set_self, List.getElem?_map, hget]
    · rfl
    · rw [List.length_map]
      exact (List.getElem?_eq_some_iff.mp hget).1
  · rw [List.getElem?_set_ne hj]

theorem asked_worked (hget : c.items[i]? = some item) (err : Option Bytes) (context : Bool) :
    asked (c.worked i item err context).1 = asked c := asked_set hget rfl rfl

theorem asked_completed (hget : c.items[i]? = some item) :
    asked (c.completed i item) = asked c := asked_set hget rfl rfl

/-- A worker returns. -/
theorem Ok.worked (h : Ok (c, trace)) (hitem : c.itemAt i .queued = some item)
    (err : Option Bytes) (context : Bool)
    (hmade : context = true → item.work = .connect ∧ err = none) :
    Ok ((c.worked i item err context).1, trace ++ (c.worked i item err context).2) := by
  have hkept : Kept c := h.kept
  have hbooks : Books c trace := h.books
  refine ⟨hkept.worked hitem hmade, hbooks.worked hkept hitem err context, fun honce => ?_⟩
  unfold ClosedOnce at honce
  rw [asked_worked (itemAt_eq_some.mp hitem).1] at honce
  have hsound := Sound.malloc (h.sound honce)
    ((Item.workMallocs ⟨item.driver, item.work, .worked, err, context⟩).map (Block.mk i))
  rwa [List.map_map] at hsound

/-- **Work is completed**: after the calls of its callback its blocks are given back. -/
theorem Ok.completed (h : Ok (c, trace)) (hitem : c.itemAt i .worked = some item)
    {calls : List Call} {r : State × List Entry}
    (hrun : Lib.run State.call (c.completed i item, []) calls = some r) :
    Ok (r.1, trace ++ (r.2 ++ (item.frees i).map .free)) := by
  have hkept : Kept c := h.kept
  have hbooks : Books c trace := h.books
  obtain ⟨hget, hphase⟩ := itemAt_eq_some.mp hitem
  have hasked := asked_completed hget
  have hgrown := Grown.calls hrun
  obtain ⟨bs, hout⟩ := hgrown.out
  obtain ⟨more, hmore⟩ := hgrown.asked
  obtain ⟨hkept', hbooks'⟩ := (hkept.completed hitem).calls (hbooks.completed hitem) hrun
  refine ⟨hkept', ?_, fun honce => ?_⟩
  · -- the calls come before what is given back, but that is all the same to the books
    refine ⟨fun j p => ?_, fun j p => ?_⟩
    · rw [← hbooks'.mallocs j p]
      simp only [mallocs_append]
      omega
    · rw [← hbooks'.frees j p]
      simp only [frees_append]
      omega
  · rw [hasked] at hmore
    have honce' : ClosedOnce c := ClosedOnce.of_append hmore honce
    have hsound := (h.sound honce').malloc bs
    rw [← hout] at hsound
    have hfree := hsound.free (item.frees i) fun b _ => ?_
    · rwa [List.append_assoc] at hfree
    · have hb := hbooks.freeable hkept hitem (fun k hwork =>
        honce'.none hget (by rw [hphase]; nofun) hwork) b
      unfold live at hb ⊢
      rw [mallocs_append, frees_append, hout, frees_malloc]
      show _ ≤ mallocs trace b + _ - (frees trace b + 0)
      omega

/-- `connect_work` gives a context or an error. -/
theorem connect_work_made {d : Driver} {o : ConnectOutcome} {r : Option Bytes × Bool}
    (h : connect_work d o = some r) : r.2 = true → r.1 = none := by
  intro hcontext
  unfold connect_work at h
  split at h
  all_goals
    cases h
  · rfl
  all_goals
    cases hcontext

/-- What an event can do. -/
inductive Stepped (c : State) : Event → State × List Entry → Prop where
  | call (call : Call) (r : State × List Entry) : Called c call r → Stepped c (.call call) r
  | worked (e : Event) (i : Nat) (item : Item) (err : Option Bytes) (context : Bool) :
      e.worker = some i → c.itemAt i .queued = some item →
      (context = true → item.work = .connect ∧ err = none) →
      Stepped c e (c.worked i item err context)
  | completed (i : Nat) (item : Item) (calls : List Call) (r : State × List Entry) :
      c.itemAt i .worked = some item → Lib.run State.call (c.completed i item, []) calls = some r →
      Stepped c (.complete i calls) (r.1, r.2 ++ (item.frees i).map .free)

theorem step_cases {e : Event} {r : State × List Entry} (hstep : step c e = some r) :
    Stepped c e r := by
  cases e with
  | call call => exact .call call r (call_cases hstep)
  | connect_work i o =>
    obtain ⟨item, hitem, hnext⟩ := Option.bind_eq_some_iff.mp hstep
    split at hnext
    · rename_i hwork
      obtain ⟨made, hmade, rfl⟩ := Option.map_eq_some_iff.mp hnext
      exact .worked _ i item made.1 made.2 rfl hitem fun hcontext =>
        ⟨hwork, connect_work_made hmade hcontext⟩
    · cases hnext
  | query_work i d o =>
    obtain ⟨item, hitem, hnext⟩ := Option.bind_eq_some_iff.mp hstep
    split at hnext
    · split at hnext
      · obtain ⟨answer, -, rfl⟩ := Option.map_eq_some_iff.mp hnext
        exact .worked _ i item answer.1 false rfl hitem nofun
      · cases hnext
    · cases hnext
  | close_work i =>
    obtain ⟨item, hitem, hnext⟩ := Option.bind_eq_some_iff.mp hstep
    split at hnext
    · cases hnext
      exact .worked _ i item none false rfl hitem nofun
    · cases hnext
  | complete i calls =>
    obtain ⟨item, hitem, hnext⟩ := Option.bind_eq_some_iff.mp hstep
    split at hnext
    · cases hnext
    · obtain ⟨after, hrun, rfl⟩ := Option.map_eq_some_iff.mp hnext
      exact .completed i item _ after hitem hrun

/-- **Every step** keeps what holds in every run. -/
theorem Ok.step {e : Event} {r : State × List Entry} (h : Ok (c, trace))
    (hstep : step c e = some r) : Ok (r.1, trace ++ r.2) := by
  have hkept : Kept c := h.kept
  cases step_cases hstep with
  | call call r hcalled =>
    have hafter : Kept r.1 := hkept.call hcalled
    refine ⟨hafter, Books.call h.books hcalled, fun honce => ?_⟩
    obtain ⟨⟨bs, hout⟩, more, hmore⟩ := hcalled.grows
    show Sound (trace ++ r.2)
    rw [hout]
    exact (h.sound (ClosedOnce.of_append hmore honce)).malloc bs
  | worked e i item err context _ hitem hmade => exact h.worked hitem err context hmade
  | completed i item calls r hitem hrun => exact h.completed hitem hrun

/-- **Events keep it** when all their calls meet the condition, and only then. -/
theorem Decides.step {P : State × List Entry → Call → Prop} {R : State → Prop}
    (hP : Decides P R) {e : Event} {r : State × List Entry} (h : Kept c)
    (hstep : step c e = some r) : R r.1 ↔ R c ∧ Calls P c e := by
  cases step_cases hstep with
  | call call r hcalled => exact hP.call h hcalled []
  | worked e i item err context he hitem _ =>
    rw [hP.asked c _ (asked_worked (itemAt_eq_some.mp hitem).1 err context)]
    cases e with
    | call call => cases he
    | complete i calls => cases he
    | connect_work i o => exact (and_iff_left trivial).symm
    | query_work i d o => exact (and_iff_left trivial).symm
    | close_work i => exact (and_iff_left trivial).symm
  | completed i item calls r hitem hrun =>
    have hcalls := hP.calls (h.completed hitem) hrun
    rw [hP.asked c _ (asked_completed (itemAt_eq_some.mp hitem).1)] at hcalls
    refine hcalls.trans (and_congr_right' ?_)
    unfold Calls
    simp only [Option.mem_def, hitem, Option.some.injEq, forall_eq']

/-! ## When no work is left -/

/-- A context is closed when its close has come to its end. -/
theorem Kept.closed_iff (h : Kept c) (hquiet : Quiescent c) (k : Nat) :
    c.is_closed k = true ↔ 0 < c.items.countP (Item.Closed k) := by
  rw [List.countP_pos_iff]
  constructor
  · intro hk
    obtain ⟨item, hitem, hwork⟩ := h.closed k hk
    refine ⟨item, hitem, ?_⟩
    rw [Item.Closed, hwork, hquiet item hitem]
    simp
  · rintro ⟨item, hitem, hclosed⟩
    unfold Item.Closed at hclosed
    rw [Bool.and_eq_true, decide_eq_true_iff] at hclosed
    exact (h.closing item hitem k hclosed.1).1

/-- **What is live** is what the work has left, but for contexts that were closed. -/
theorem Books.live_eq (h : Books c trace) (hkept : Kept c) (hquiet : Quiescent c)
    (hget : c.items[i]? = some item) (p : Part) :
    live trace ⟨i, p⟩ =
      item.left.count p - if p = .context then c.items.countP (Item.Closed i) else 0 := by
  have hmem := List.mem_of_getElem? hget
  have hall := count_mallocs (fun hcontext => (hkept.made item hmem hcontext).2) p
  unfold live
  rw [h.mallocs, h.frees, partsOf_get hget, partsOf_get hget, Item.freed, if_pos (hquiet item hmem)]
  omega

/-- Connects to redis leave their contexts, and nothing else is left. -/
theorem left_eq (hredis : item.work = .connect → item.driver = .redis)
    (hmade : item.context = true → item.work = .connect) : item.left = item.contextBlock := by
  obtain ⟨d, work, phase, err, context⟩ := item
  cases work with
  | connect =>
    cases hredis rfl
    rfl
  | query k text =>
    cases context with
    | true => cases hmade rfl
    | false => rfl
  | close k =>
    cases context with
    | true => cases hmade rfl
    | false => rfl

theorem owned_iff (hget : c.items[i]? = some item) (p : Part) :
    Owned c ⟨i, p⟩ ↔ c.is_closed i = false ∧ item.context = true ∧
      (p = .context ∨ p = .db_name ∧ item.driver = .mysql) := by
  unfold Owned
  simp only [hget, Option.mem_def, Option.some.injEq, exists_eq_left']

/-- Connects to redis leave what is owned. -/
theorem Ok.live_owned (h : Ok (c, trace)) (hredis : AllRedis c) (hquiet : Quiescent c) (b : Block) :
    live trace b = if Owned c b then 1 else 0 := by
  have hkept : Kept c := h.kept
  have hbooks : Books c trace := h.books
  obtain ⟨i, p⟩ := b
  cases hget : c.items[i]? with
  | none =>
    have hnot : ¬ Owned c ⟨i, p⟩ := by
      rintro ⟨-, item, hitem, -⟩
      rw [Option.mem_def, hget] at hitem
      cases hitem
    have hnone : mallocs trace ⟨i, p⟩ = 0 := by
      rw [hbooks.mallocs, partsOf_none (List.getElem?_eq_none_iff.mp hget), List.count_nil]
    rw [if_neg hnot, live, hnone, Nat.zero_sub]
  | some item =>
    have hmem := List.mem_of_getElem? hget
    have hmade : item.context = true → item.work = .connect := fun hcontext =>
      (hkept.made item hmem hcontext).1
    have hdriver : item.work = .connect → item.driver = .redis :=
      hredis _ (List.mem_map_of_mem hmem)
    have hclosed := hkept.closed_iff hquiet i
    rw [hbooks.live_eq hkept hquiet hget, left_eq hdriver hmade, Item.contextBlock]
    cases hcontext : item.context with
    | false =>
      have hnot : ¬ Owned c ⟨i, p⟩ := fun howned => by
        cases hcontext.symm.trans ((owned_iff hget p).mp howned).2.1
      rw [if_neg Bool.false_ne_true, if_neg hnot, List.count_nil, Nat.zero_sub]
    | true =>
      have howned : Owned c ⟨i, p⟩ ↔ c.is_closed i = false ∧ p = .context := by
        rw [owned_iff hget p, hcontext, hdriver (hmade hcontext)]
        simp
      rw [if_pos rfl, List.count_singleton]
      by_cases hp : p = .context
      · rw [hp] at howned ⊢
        cases hopen : c.is_closed i with
        | true =>
          have hpos := hclosed.mp hopen
          have hnot : ¬ Owned c ⟨i, .context⟩ := fun h => by
            cases hopen.symm.trans (howned.mp h).1
          rw [if_neg hnot]
          simp only [BEq.rfl, if_true]
          omega
        | false =>
          have hnone : ¬ 0 < c.items.countP (Item.Closed i) := fun hpos => by
            cases hopen.symm.trans (hclosed.mpr hpos)
          rw [if_pos (howned.mpr ⟨hopen, rfl⟩)]
          simp only [BEq.rfl, if_true]
          omega
      · rw [if_neg fun h => hp (howned.mp h).2]
        simp [Ne.symm hp]

/-- What is owned is live. -/
theorem Ok.owned_live (h : Ok (c, trace)) (hquiet : Quiescent c) {b : Block} (hb : Owned c b) :
    0 < live trace b := by
  have hkept : Kept c := h.kept
  have hbooks : Books c trace := h.books
  obtain ⟨i, p⟩ := b
  obtain ⟨hopen, item, hget, hcontext, hpart⟩ := hb
  have hleft : 0 < item.left.count p := by
    have hconnect := (hkept.made item (List.mem_of_getElem? hget) hcontext).1
    obtain ⟨d, work, phase, err, context⟩ := item
    cases hconnect
    cases hcontext
    rcases hpart with rfl | ⟨rfl, hdriver⟩
    · cases d <;> exact Nat.zero_lt_one
    · cases hdriver
      exact Nat.zero_lt_one
  rw [hbooks.live_eq hkept hquiet hget]
  have hclosed : ¬ 0 < c.items.countP (Item.Closed i) :=
    (hkept.closed_iff hquiet i).not.mp (by rw [hopen]; exact Bool.false_ne_true)
  split
  · rw [Nat.eq_zero_of_not_pos hclosed]
    exact hleft
  · exact hleft

/-- **What is owned is not all that is live** once a connect to MySQL has come
to its end. -/
theorem Ok.allRedis (h : Ok (c, trace)) (hquiet : Quiescent c)
    (howned : ∀ b, 0 < live trace b → Owned c b) : AllRedis c := by
  have hkept : Kept c := h.kept
  have hbooks : Books c trace := h.books
  intro x hx hconnect
  obtain ⟨item, hitem, rfl⟩ := List.mem_map.mp hx
  obtain ⟨i, hget⟩ := List.mem_iff_getElem?.mp hitem
  by_contra hmysql
  -- a block that is left and nobody owns
  have hlost : ∃ p, item.left.count p = 1 ∧ p ≠ .context ∧ p ≠ .db_name := by
    obtain ⟨d, work, phase, err, context⟩ := item
    cases hconnect
    cases d with
    | mysql =>
      cases context with
      | true => exact ⟨.r, rfl, nofun, nofun⟩
      | false => exact ⟨.ip, rfl, nofun, nofun⟩
    | redis => exact absurd rfl hmysql
  obtain ⟨p, hone, hcontext, hdb⟩ := hlost
  have hlive : 0 < live trace ⟨i, p⟩ := by
    rw [hbooks.live_eq hkept hquiet hget, hone, if_neg hcontext]
    exact Nat.zero_lt_one
  rcases ((owned_iff hget p).mp (howned _ hlive)).2.2 with hp | hp
  · exact hcontext hp
  · exact hdb hp.1

end Given

end LibuvServer.Database.Requests
