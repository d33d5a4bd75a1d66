import LibuvServer.Gateway.BackendLinks

/-!
# Connects that report back

`NetBus::tcp_connect` and `after_connect` of `netbus/netbus.cc`, with what they
allocate, under the gateway that calls them. What libuv answers is up to it:
the address may be none, the request may be refused at once, and its callback
gets any status.
-/

namespace LibuvServer.Gateway.Connects

open LibuvServer.Lib LibuvServer.Netbus LibuvServer.Mylua Gateway.State

/-- What `tcp_connect` gets from `malloc`. -/
inductive Block where
  | connect_req
  | cb
  deriving DecidableEq

/-- The arguments of a call of `on_connected`; a session with whether it is
open then. -/
structure Report where
  err : Int
  session : Option SessId
  isOpen : Bool
  deriving DecidableEq

inductive Entry where
  | malloc (i : Nat) (block : Block)
  | free (i : Nat) (block : Block)
  | on_connected (i : Nat) (report : Report)
  | destroy (s : SessId)
  deriving DecidableEq

/-- A call of `NetBus.getawayConnect`. It is in flight while libuv will still
call `after_connect` for it. -/
structure Attempt where
  stype : Nat
  session : Option SessId
  inFlight : Bool
  deriving DecidableEq

structure State where
  g : Gateway.State
  attempts : List Attempt
  /-- A shutdown request of the session is out. -/
  shutting : SessId → Bool

def init : State := ⟨Gateway.State.init, [], fun _ => false⟩

/-- A turn of the loop of `checkConnected`, with what `uv_tcp_connect` returns
if it is called; `after_connect`, whose `close` is refused its shutdown or
not; `uv_close_oneClient`; and whatever else happens to the gateway. -/
inductive Event where
  | check (stype : Nat) (result : Int)
  | after_connect (i : Nat) (status : Int) (refused : Bool)
  | shutdownDone (s : SessId)
  | gateway (e : Gateway.Event)

section Step

variable (pm : ProtocolManager LuaBody)

-- `uv_ip4_addr`, and the addresses of `otherServer.servers`
variable (uv_ip4_addr : Bytes → Int → Int) (ip : Nat → Bytes) (port : Nat → Int)

/-- `NetBus::tcp_connect`. -/
def tcp_connect (c : State) (stype : Nat) (result : Int) : State × List Entry :=
  let i := c.attempts.length
  if uv_ip4_addr (ip stype) (port stype) ≠ 0 then
    ({ c with attempts := c.attempts ++ [⟨stype, none, false⟩] }, [])
  else
    -- the session stays as it is when `uv_tcp_connect` returns an error
    let stage := if result = 0 then Stage.connecting stype else .failed
    ({ c with
        g := c.g.create { as_client := 1, stage := stage }
        attempts := c.attempts ++ [⟨stype, some c.g.created, decide (result = 0)⟩] },
      [.malloc i .connect_req, .malloc i .cb])

/-- `NetBus.getawayConnect`, which wants a port. -/
def getawayConnect (c : State) (stype : Nat) (result : Int) : State × List Entry :=
  if port stype = 0 then ({ c with attempts := c.attempts ++ [⟨stype, none, false⟩] }, [])
  else tcp_connect uv_ip4_addr ip port c stype result

/-- A turn of the loop of `checkConnected`. -/
def checkServer (c : State) (stype : Nat) (result : Int) : State × List Entry :=
  if c.g.sType2Session stype = none ∧ c.g.do_connecting stype = false then
    getawayConnect uv_ip4_addr ip port
      { c with g := { c.g with do_connecting := Function.update c.g.do_connecting stype true } }
      stype result
  else (c, [])

/-- `after_connect`, with the callback of the script. -/
def after_connect (c : State) (i stype : Nat) (s : SessId) (status : Int) (refused : Bool) :
    State × List Entry :=
  let attempts := c.attempts.set i ⟨stype, some s, false⟩
  let g := (c.g.afterConnect stype s (decide (status ≠ 0))).1
  if status ≠ 0 then
    (⟨g, attempts, Function.update c.shutting s (!refused)⟩,
      [.on_connected i ⟨1, none, false⟩, .free i .cb, .free i .connect_req])
  else
    (⟨g, attempts, c.shutting⟩,
      [.on_connected i ⟨0, some s, !(c.g.session s).isShotdown⟩, .free i .cb,
        .free i .connect_req])

def step (c : State) : Event → Option (State × List Entry)
  | .check stype result =>
    if stype ∈ servers then some (checkServer uv_ip4_addr ip port c stype result) else none
  | .after_connect i status refused =>
    match c.attempts[i]? with
    | some ⟨stype, some s, true⟩ => some (after_connect c i stype s status refused)
    | _ => none
  | .shutdownDone s =>
    if c.shutting s then some ({ c with shutting := Function.update c.shutting s false }, [])
    else none
  | .gateway e =>
    match e with
    | .timer | .connected _ _ => none
    | .destroy s =>
      -- the handle is closed after its shutdown
      if c.shutting s then none
      else (Gateway.step pm c.g (.destroy s)).map fun r => ({ c with g := r.1 }, [.destroy s])
    | e => (Gateway.step pm c.g e).map fun r => ({ c with g := r.1 }, [])

def run (events : List Event) : Option (State × List Entry) :=
  Lib.run (step pm uv_ip4_addr ip port) (init, []) events

end Step

/-! ## What is wanted -/

def Entry.report (i : Nat) : Entry → Option Report
  | .on_connected j report => if j = i then some report else none
  | _ => none

/-- The calls of `on_connected` for an attempt. -/
def reports (trace : List Entry) (i : Nat) : List Report := trace.filterMap (Entry.report i)

/-- Both blocks have been freed, once. -/
def Freed (trace : List Entry) (i : Nat) : Prop :=
  ∀ block, trace.count (.malloc i block) = 1 ∧ trace.count (.free i block) = 1

/-- The session is destroyed, once, or will be when its handle is closed. -/
def Released (c : State) (trace : List Entry) (s : SessId) : Prop :=
  (c.g.session s).isShotdown = true ∧
    ((c.g.session s).stage = .failed ∧ trace.count (.destroy s) = 0 ∨
      (c.g.session s).stage = .destroyed ∧ trace.count (.destroy s) = 1)

/-- The attempt was reported once: with its session, which was open, or with an
error, and then the session is released. -/
def Settled (c : State) (trace : List Entry) (i : Nat) (a : Attempt) : Prop :=
  ∃ s, a.session = some s ∧ Freed trace i ∧
    (reports trace i = [⟨0, some s, true⟩] ∨
      (∃ err, err ≠ 0 ∧ reports trace i = [⟨err, none, false⟩]) ∧ Released c trace s)

/-- Attempts in flight have not been reported, and all others have; and the
flag of a type that is not connected means an attempt in flight. -/
structure ReportsBack (c : State) (trace : List Entry) : Prop where
  attempts : ∀ i a, c.attempts[i]? = some a →
    if a.inFlight then reports trace i = [] else Settled c trace i a
  flags : ∀ stype ∈ servers, c.g.do_connecting stype = true → c.g.sType2Session stype = none →
    ∃ a ∈ c.attempts, a.stype = stype ∧ a.inFlight = true

/-- Whenever the gateway connects, there is an address and a port, and
`uv_tcp_connect` takes the request. -/
def Accepted (uv_ip4_addr : Bytes → Int → Int) (ip : Nat → Bytes) (port : Nat → Int)
    (c : State × List Entry) : Event → Prop
  | .check stype result =>
    c.1.g.sType2Session stype = none → c.1.g.do_connecting stype = false →
      port stype ≠ 0 ∧ uv_ip4_addr (ip stype) (port stype) = 0 ∧ result = 0
  | .after_connect _ _ _ | .shutdownDone _ | .gateway _ => True

instance Accepted.decidable (uv_ip4_addr : Bytes → Int → Int) (ip : Nat → Bytes) (port : Nat → Int)
    (c : State × List Entry) : (e : Event) → Decidable (Accepted uv_ip4_addr ip port c e)
  | .check stype result => inferInstanceAs (Decidable
      (c.1.g.sType2Session stype = none → c.1.g.do_connecting stype = false →
        port stype ≠ 0 ∧ uv_ip4_addr (ip stype) (port stype) = 0 ∧ result = 0))
  | .after_connect _ _ _ | .shutdownDone _ | .gateway _ => .isTrue trivial

/-! ## Sessions under the gateway -/

/-- Sessions stay where they are, stay shut down, and new ones are read. -/
structure Aged (g g' : Gateway.State) : Prop where
  created : g.created ≤ g'.created
  stage : ∀ x, x < g.created → (g'.session x).stage = (g.session x).stage
  shut : ∀ x, (g.session x).isShotdown = true → x < g.created → (g'.session x).isShotdown = true
  fresh : ∀ x, g.created ≤ x → (g'.session x).stage = (g.session x).stage ∨
    x < g'.created ∧ (g'.session x).stage = .reading

section Aged

variable {pm : ProtocolManager LuaBody} {g g' g₁ : Gateway.State} {s : SessId}

theorem Aged.of_kept (hcreated : g'.created = g.created)
    (hstage : ∀ x, (g'.session x).stage = (g.session x).stage)
    (hshut : ∀ x, (g.session x).isShotdown = true → (g'.session x).isShotdown = true) :
    Aged g g' where
  created := Nat.le_of_eq hcreated.symm
  stage x _ := hstage x
  shut x h _ := hshut x h
  fresh x _ := .inl (hstage x)

theorem Aged.of_life (h : LifeKept g g') : Aged g g' :=
  .of_kept h.created h.stage fun x hx => (h.isShotdown x).trans hx

/-- What comes after a change that creates nothing. -/
theorem Aged.then (h : Aged g g₁) (hcreated : g₁.created = g.created) (h' : Aged g₁ g') :
    Aged g g' where
  created := hcreated ▸ h'.created
  stage x hx := (h'.stage x (hcreated ▸ hx)).trans (h.stage x hx)
  shut x hx hlt := h'.shut x (h.shut x hx hlt) (hcreated ▸ hlt)
  fresh x hx := by
    have hx₁ := h.fresh x hx
    have hx' := h'.fresh x (hcreated ▸ hx)
    rcases hx' with hstage | hread
    · rcases hx₁ with hstage₁ | hread₁
      · exact .inl (hstage.trans hstage₁)
      · omega
    · exact .inr hread

theorem Aged.close (g : Gateway.State) (s : SessId) : Aged g (g.close s).1 := by
  refine .of_kept (Kept.close g s).created (Kept.close g s).stage fun x hx => ?_
  rw [close_isShotdown, hx, Bool.or_true]

theorem Aged.accept (g : Gateway.State) : Aged g (g.create { stage := .reading }) where
  created := Nat.le_succ _
  stage x hx := by rw [session_create_of_ne g _ (Nat.ne_of_lt hx)]
  shut x hx hlt := by
    rw [session_create_of_ne g _ (Nat.ne_of_lt hlt)]
    exact hx
  fresh x hx := by
    by_cases heq : x = g.created
    · rw [heq, session_create_same]
      exact .inr ⟨Nat.lt_succ_self _, rfl⟩
    · rw [session_create_of_ne g _ heq]
      exact .inl rfl

theorem Aged.toClient {raw : Gateway2Server} {r : Gateway.State × List Act}
    (hr : ToClient pm g raw r) : Aged g r.1 := by
  have htaken := LifeKept.taken g raw.tags
  cases hr with
  | ignored => exact .of_life (.refl g)
  | unsent _ _ => exact .of_life htaken
  | passed _ _ _ _ => exact .of_life htaken
  | success login client_s body info id r _ _ _ _ hr =>
    have hreplaced : Aged (g.taken raw.tags) r.1 ∧ r.1.created = (g.taken raw.tags).created := by
      cases hr with
      | nobody _ => exact ⟨.of_life (.refl _), rfl⟩
      | other old _ _ =>
        have hlife := (SameButIds.setTable ((g.taken raw.tags).close old).1 login id none).lifeKept
        have hclosed := (Kept.close (g.taken raw.tags) old).created
        exact ⟨(Aged.close _ old).then hclosed (.of_life hlife), hlife.created.trans hclosed⟩
    have hlogged := LifeKept.loggedIn r.1 login id client_s
    exact ((Aged.of_life htaken).then htaken.created hreplaced.1).then
      (hreplaced.2.trans htaken.created) (.of_life hlogged)

/-- **What else happens** leaves the sessions of attempts alone. -/
theorem Aged.step {e : Gateway.Event} {r : Gateway.State × List Act}
    (hstep : Gateway.step pm g e = some r) (htimer : e ≠ .timer)
    (hconnected : ∀ s err, e ≠ .connected s err) (hdestroy : ∀ s, e ≠ .destroy s) :
    Aged g r.1 := by
  cases step_cases hstep with
  | accept => exact .accept g
  | timer => exact absurd rfl htimer
  | connected s => exact absurd rfl (hconnected s false)
  | failed s => exact absurd rfl (hconnected s true)
  | short => exact .of_life (.refl g)
  | client s cmd raw r _ _ _ _ hr => exact .of_life hr.life.1
  | server s cmd raw r _ _ _ hr => exact .toClient hr
  | unserved s => exact .close g s
  | lost s => exact .close g s
  | destroy s => exact absurd rfl (hdestroy s)

end Aged

/-! ## The entries of one attempt -/

/-- The attempt an entry is about. -/
def Entry.attempt : Entry → Option Nat
  | .malloc i _ | .free i _ | .on_connected i _ => some i
  | .destroy _ => none

def own (trace : List Entry) (i : Nat) : List Entry := trace.filter fun e => e.attempt = some i

def begun (i : Nat) : List Entry := [.malloc i .connect_req, .malloc i .cb]

def ended (i : Nat) (report : Report) : List Entry :=
  [.on_connected i report, .free i .cb, .free i .connect_req]

section Own

variable {trace out : List Entry} {i : Nat}

theorem own_append : own (trace ++ out) i = own trace i ++ own out i := List.filter_append ..

/-- Entries about others. -/
theorem own_append_other (h : ∀ e ∈ out, e.attempt ≠ some i) :
    own (trace ++ out) i = own trace i := by
  have hnone : own out i = [] :=
    List.filter_eq_nil_iff.mpr fun e he => by simpa using h e he
  rw [own_append, hnone, List.append_nil]

theorem own_append_self (h : ∀ e ∈ out, e.attempt = some i) :
    own (trace ++ out) i = own trace i ++ out := by
  have hall : own out i = out := List.filter_eq_self.mpr fun e he => decide_eq_true (h e he)
  rw [own_append, hall]

theorem attempt_begun : ∀ e ∈ begun i, e.attempt = some i := by
  intro e he
  simp only [begun, List.mem_cons, List.not_mem_nil, or_false] at he
  rcases he with rfl | rfl <;> rfl

theorem attempt_ended {report : Report} : ∀ e ∈ ended i report, e.attempt = some i := by
  intro e he
  simp only [ended, List.mem_cons, List.not_mem_nil, or_false] at he
  rcases he with rfl | rfl | rfl <;> rfl

/-- What is begun or ended is one attempt. -/
theorem own_begun_other {j : Nat} (hij : i ≠ j) : own (trace ++ begun j) i = own trace i :=
  own_append_other fun e he heq =>
    hij (Option.some.inj (heq.symm.trans (attempt_begun e he)))

theorem own_ended_other {j : Nat} {report : Report} (hij : i ≠ j) :
    own (trace ++ ended j report) i = own trace i :=
  own_append_other fun e he heq =>
    hij (Option.some.inj (heq.symm.trans (attempt_ended e he)))

theorem own_destroy (s : SessId) : own (trace ++ [.destroy s]) i = own trace i := by
  refine own_append_other fun e he => ?_
  rw [List.mem_singleton.mp he]
  exact nofun

theorem reports_own (trace : List Entry) (i : Nat) : reports trace i = reports (own trace i) i := by
  induction trace with
  | nil => rfl
  | cons e trace ih =>
    have hcons : reports (e :: trace) i = (e.report i).toList ++ reports trace i := by
      cases he : e.report i <;> simp [reports, he]
    rw [hcons, ih]
    by_cases he : e.attempt = some i
    · have hown : own (e :: trace) i = e :: own trace i :=
        List.filter_cons_of_pos (decide_eq_true he)
      rw [hown]
      cases hr : e.report i <;> simp [reports, hr]
    · have hown : own (e :: trace) i = own trace i :=
        List.filter_cons_of_neg (by simpa using he)
      have hnone : e.report i = none := by
        cases e with
        | on_connected j report =>
          refine if_neg ?_
          rintro rfl
          exact he rfl
        | _ => rfl
      rw [hown, hnone]
      rfl

theorem count_own {e : Entry} (he : e.attempt = some i) (trace : List Entry) :
    trace.count e = (own trace i).count e := by
  refine (List.count_filter ?_).symm
  exact decide_eq_true he

/-- What the entries of an attempt that has ended say. -/
theorem settled_own {report : Report} (h : own trace i = begun i ++ ended i report) :
    reports trace i = [report] ∧ Freed trace i := by
  constructor
  · rw [reports_own, h]
    simp [reports, begun, ended, List.filterMap_cons, Entry.report]
  · intro block
    have hmalloc : trace.count (.malloc i block) = _ := count_own rfl trace
    have hfree : trace.count (.free i block) = _ := count_own rfl trace
    rw [hmalloc, hfree, h]
    cases block <;> simp [begun, ended]

end Own

/-! ## What is always true -/

/-- Attempts have sessions of their own, and those in flight the ones that are
being connected. -/
structure Books (c : State) (trace : List Entry) : Prop where
  absent : ∀ s, c.g.created ≤ s → (c.g.session s).stage = .absent
  lt : ∀ (i : Nat) (a : Attempt) s, c.attempts[i]? = some a → a.session = some s → s < c.g.created
  unique : ∀ (i j : Nat) (a b : Attempt) s, c.attempts[i]? = some a → c.attempts[j]? = some b →
    a.session = some s → b.session = some s → i = j
  flying : ∀ (i : Nat) (a : Attempt), c.attempts[i]? = some a → a.inFlight = true →
    ∃ s, a.session = some s ∧ (c.g.session s).stage = .connecting a.stype ∧
      own trace i = begun i
  connecting : ∀ s k, (c.g.session s).stage = .connecting k →
    ∃ i : Nat, c.attempts[i]? = some ⟨k, some s, true⟩
  quiet : ∀ i, c.attempts.length ≤ i → own trace i = []
  destroyed : ∀ s, trace.count (.destroy s) =
    if (c.g.session s).stage = .destroyed then 1 else 0

/-- No attempt has ended without a report. -/
def NoSilent (c : State) (trace : List Entry) : Prop :=
  ∀ (i : Nat) (a : Attempt), c.attempts[i]? = some a → a.inFlight = false → reports trace i ≠ []

/-- The links are in their phases, and attempts that have ended were reported. -/
structure Good (c : State) (trace : List Entry) : Prop where
  links : LinksOk c.g
  settled : ∀ (i : Nat) (a : Attempt), c.attempts[i]? = some a → a.inFlight = false →
    ∃ s, a.session = some s ∧
      (own trace i = begun i ++ ended i ⟨0, some s, true⟩ ∨
        own trace i = begun i ++ ended i ⟨1, none, false⟩ ∧ (c.g.session s).isShotdown = true ∧
          ((c.g.session s).stage = .failed ∨ (c.g.session s).stage = .destroyed))

section Invariant

variable {c : State} {g' : Gateway.State} {trace : List Entry} {s : SessId}

/-! ### Other events -/

theorem Books.aged (h : Books c trace) (hg : Aged c.g g') (shutting : SessId → Bool) :
    Books ⟨g', c.attempts, shutting⟩ trace where
  absent x hx := by
    have hold := h.absent x (Nat.le_trans hg.created hx)
    rcases hg.fresh x (Nat.le_trans hg.created hx) with hstage | ⟨hlt, -⟩
    · exact hstage.trans hold
    · exact absurd hlt (Nat.not_lt.mpr hx)
  lt i a x ha hx := Nat.lt_of_lt_of_le (h.lt i a x ha hx) hg.created
  unique := h.unique
  flying i a ha hfly := by
    obtain ⟨x, hx, hstage, hown⟩ := h.flying i a ha hfly
    exact ⟨x, hx, (hg.stage x (h.lt i a x ha hx)).trans hstage, hown⟩
  connecting x k hx := by
    by_cases hlt : x < c.g.created
    · exact h.connecting x k ((hg.stage x hlt).symm.trans hx)
    · rcases hg.fresh x (Nat.not_lt.mp hlt) with hstage | ⟨-, hread⟩
      · exact h.connecting x k (hstage.symm.trans hx)
      · cases hread.symm.trans hx
  quiet := h.quiet
  destroyed x := by
    rw [h.destroyed x]
    by_cases hlt : x < c.g.created
    · rw [hg.stage x hlt]
    · have hold := h.absent x (Nat.not_lt.mp hlt)
      rcases hg.fresh x (Nat.not_lt.mp hlt) with hstage | ⟨-, hread⟩
      · rw [hstage]
      · rw [hold, hread]
        rfl

theorem Good.aged (h : Good c trace) (hbooks : Books c trace) (hg : Aged c.g g')
    (hlinks : LinksOk g') (shutting : SessId → Bool) : Good ⟨g', c.attempts, shutting⟩ trace where
  links := hlinks
  settled i a ha hend := by
    obtain ⟨x, hx, hreported⟩ := h.settled i a ha hend
    have hlt := hbooks.lt i a x ha hx
    refine ⟨x, hx, hreported.imp id ?_⟩
    rintro ⟨hown, hshut, hstage⟩
    rw [hg.stage x hlt]
    exact ⟨hown, hg.shut x hshut hlt, hstage⟩

/-- The handle of a session has been closed. -/
theorem Books.destroy (h : Books c trace)
    (hstage : (c.g.session s).stage = .reading ∨ (c.g.session s).stage = .failed) :
    Books { c with g := c.g.modify s fun x => { x with stage := .destroyed } }
      (trace ++ [.destroy s]) where
  absent x hx := by
    have hold := h.absent x hx
    have hne : x ≠ s := by
      rintro rfl
      rcases hstage with hstage | hstage <;> cases hold.symm.trans hstage
    rw [session_modify_of_ne c.g _ hne, hold]
  lt := h.lt
  unique := h.unique
  flying i a ha hfly := by
    obtain ⟨x, hx, hconnecting, hown⟩ := h.flying i a ha hfly
    have hne : x ≠ s := by
      rintro rfl
      rcases hstage with hstage | hstage <;> cases hconnecting.symm.trans hstage
    refine ⟨x, hx, by rw [session_modify_of_ne c.g _ hne, hconnecting], ?_⟩
    rw [own_destroy s, hown]
  connecting x k hx := by
    have hne : x ≠ s := by
      rintro rfl
      rw [session_modify_same] at hx
      cases hx
    rw [session_modify_of_ne c.g _ hne] at hx
    exact h.connecting x k hx
  quiet i hi := by rw [own_destroy s, h.quiet i hi]
  destroyed x := by
    rw [List.count_append, h.destroyed x]
    by_cases hx : x = s
    · rw [hx, session_modify_same]
      rcases hstage with hstage | hstage <;> simp [hstage]
    · rw [session_modify_of_ne c.g _ hx]
      simp [Ne.symm hx]

theorem Good.destroy (h : Good c trace) (hlinks :
    LinksOk (c.g.modify s fun x => { x with stage := .destroyed })) :
    Good { c with g := c.g.modify s fun x => { x with stage := .destroyed } }
      (trace ++ [.destroy s]) where
  links := hlinks
  settled i a ha hend := by
    obtain ⟨x, hx, hreported⟩ := h.settled i a ha hend
    refine ⟨x, hx, ?_⟩
    rw [own_destroy s]
    refine hreported.imp id ?_
    rintro ⟨hown, hshut, hstage⟩
    refine ⟨hown, ?_, ?_⟩
    · have hkept := session_modify_field Session.isShotdown c.g s x
        (fun y => { y with stage := .destroyed }) fun _ => rfl
      exact hkept.trans hshut
    · by_cases hne : x = s
      · rw [hne, session_modify_same]
        exact .inr rfl
      · rw [session_modify_of_ne c.g _ hne]
        exact hstage

/-! ### Attempts -/

/-- A call that came to nothing. -/
theorem Books.ignored (h : Books c trace) (hcreated : g'.created = c.g.created)
    (hsession : g'.session = c.g.session) (stype : Nat) :
    Books { c with g := g', attempts := c.attempts ++ [⟨stype, none, false⟩] } trace where
  absent x hx := by
    rw [hcreated] at hx
    rw [hsession, h.absent x hx]
  lt i a x ha hx := by
    rw [hcreated]
    rcases getElem?_snoc ha with ha | ⟨-, rfl⟩
    · exact h.lt i a x ha hx
    · cases hx
  unique i j a b x ha hb hax hbx := by
    rcases getElem?_snoc ha with ha | ⟨-, rfl⟩
    · rcases getElem?_snoc hb with hb | ⟨-, rfl⟩
      · exact h.unique i j a b x ha hb hax hbx
      · cases hbx
    · cases hax
  flying i a ha hfly := by
    rw [hsession]
    rcases getElem?_snoc ha with ha | ⟨-, rfl⟩
    · exact h.flying i a ha hfly
    · cases hfly
  connecting x k hx := by
    rw [hsession] at hx
    obtain ⟨i, hi⟩ := h.connecting x k hx
    exact ⟨i, getElem?_of_snoc hi⟩
  quiet i hi := by
    rw [List.length_append, List.length_singleton] at hi
    exact h.quiet i (by omega)
  destroyed x := by
    rw [hsession]
    exact h.destroyed x

/-- A new attempt with a new session. -/
theorem Books.made (h : Books c trace) (stype : Nat) (fly : Bool) {new : Session}
    {out : List Entry} (hout : out = begun c.attempts.length)
    (hnew : new.stage = if fly then .connecting stype else .failed)
    (hcreated : g'.created = c.g.created) (hsession : g'.session = c.g.session) :
    Books { c with
      g := g'.create new
      attempts := c.attempts ++ [⟨stype, some c.g.created, fly⟩] } (trace ++ out) where
  absent x hx := by
    have hlt : g'.created < x := hx
    rw [session_create_of_ne g' new (Nat.ne_of_gt hlt), hsession, h.absent x (by omega)]
  lt i a x ha hx := by
    show x < g'.created + 1
    rcases getElem?_snoc ha with ha | ⟨-, rfl⟩
    · rw [hcreated]
      exact Nat.lt_succ_of_lt (h.lt i a x ha hx)
    · cases hx
      rw [hcreated]
      exact Nat.lt_succ_self _
  unique i j a b x ha hb hax hbx := by
    rcases getElem?_snoc ha with ha | ⟨hi, rfl⟩
    · rcases getElem?_snoc hb with hb | ⟨-, rfl⟩
      · exact h.unique i j a b x ha hb hax hbx
      · cases hbx
        exact absurd (h.lt i a _ ha hax) (Nat.lt_irrefl _)
    · rcases getElem?_snoc hb with hb | ⟨hj, rfl⟩
      · cases hax
        exact absurd (h.lt j b _ hb hbx) (Nat.lt_irrefl _)
      · rw [hi, hj]
  flying i a ha hfly := by
    rw [hout]
    rcases getElem?_snoc ha with ha | ⟨rfl, rfl⟩
    · obtain ⟨x, hx, hstage, hown⟩ := h.flying i a ha hfly
      have hlt := h.lt i a x ha hx
      have hi := (List.getElem?_eq_some_iff.mp ha).1
      refine ⟨x, hx, ?_, ?_⟩
      · rw [← hcreated] at hlt
        rw [session_create_of_ne g' new (Nat.ne_of_lt hlt), hsession, hstage]
      · rw [own_begun_other (Nat.ne_of_lt hi), hown]
    · refine ⟨c.g.created, rfl, ?_, ?_⟩
      · show ((g'.create new).session c.g.created).stage = _
        rw [← hcreated, session_create_same, hnew, if_pos hfly]
      · rw [own_append_self attempt_begun, h.quiet _ (Nat.le_refl _), List.nil_append]
  connecting x k hx := by
    by_cases hne : x = g'.created
    · rw [hne, session_create_same, hnew] at hx
      cases hfly : fly with
      | false =>
        rw [hfly, if_neg Bool.false_ne_true] at hx
        cases hx
      | true =>
        rw [hfly, if_pos rfl] at hx
        cases hx
        refine ⟨c.attempts.length, ?_⟩
        rw [hne, hcreated]
        exact List.getElem?_concat_length
    · rw [session_create_of_ne g' new hne, hsession] at hx
      obtain ⟨i, hi⟩ := h.connecting x k hx
      exact ⟨i, getElem?_of_snoc hi⟩
  quiet i hi := by
    rw [List.length_append, List.length_singleton] at hi
    rw [hout, own_begun_other (by omega), h.quiet i (by omega)]
  destroyed x := by
    have hnone : out.count (.destroy x) = 0 := by
      rw [hout]
      simp [begun]
    rw [List.count_append, hnone, h.destroyed x]
    by_cases hne : x = g'.created
    · rw [hne, session_create_same, hnew, h.absent _ (by omega)]
      cases fly <;> simp
    · rw [session_create_of_ne g' new hne, hsession]
      rfl

theorem Good.made (h : Good c trace) (hbooks : Books c trace) (stype : Nat) {new : Session}
    {out : List Entry} (hout : out = begun c.attempts.length) (hsession : g'.session = c.g.session)
    (hcreated : g'.created = c.g.created) (hlinks : LinksOk (g'.create new)) :
    Good { c with
      g := g'.create new
      attempts := c.attempts ++ [⟨stype, some c.g.created, true⟩] } (trace ++ out) where
  links := hlinks
  settled i a ha hend := by
    rw [hout]
    rcases getElem?_snoc ha with ha | ⟨-, rfl⟩
    · obtain ⟨x, hx, hreported⟩ := h.settled i a ha hend
      have hlt := hbooks.lt i a x ha hx
      have hi := (List.getElem?_eq_some_iff.mp ha).1
      rw [← hcreated] at hlt
      refine ⟨x, hx, ?_⟩
      rw [session_create_of_ne g' new (Nat.ne_of_lt hlt), hsession,
        own_begun_other (Nat.ne_of_lt hi)]
      exact hreported
    · cases hend

/-- What `after_connect` does to the sessions. -/
structure Answered (g g' : Gateway.State) (s : SessId) : Prop where
  created : g'.created = g.created
  others : ∀ x, x ≠ s → (g'.session x).stage = (g.session x).stage
  stage : (g'.session s).stage = .reading ∨ (g'.session s).stage = .failed
  shut : ∀ x, (g.session x).isShotdown = true → (g'.session x).isShotdown = true

theorem answered_opened (g : Gateway.State) (stype : Nat) (s : SessId) :
    Answered g (g.opened stype s) s where
  created := rfl
  others x hx := by rw [session_opened_of_ne g stype hx]
  stage := .inl (by rw [session_opened_same])
  shut x hx := by
    by_cases hne : x = s
    · rw [hne] at hx ⊢
      rw [session_opened_same]
      exact hx
    · rw [session_opened_of_ne g stype hne]
      exact hx

theorem answered_refused (g : Gateway.State) (stype : Nat) (s : SessId) :
    Answered g ((g.refused stype s).close s).1 s ∧
      (((g.refused stype s).close s).1.session s).stage = .failed ∧
      (((g.refused stype s).close s).1.session s).isShotdown = true := by
  have hkept := Kept.close (g.refused stype s) s
  have hother : ∀ x, x ≠ s → (g.refused stype s).session x = g.session x := fun x hx =>
    session_modify_of_ne { g with do_connecting := _ } _ hx
  have hstage : (((g.refused stype s).close s).1.session s).stage = .failed := by
    rw [hkept.stage, session_refused_same]
  have hshut : (((g.refused stype s).close s).1.session s).isShotdown = true := by
    rw [close_isShotdown, decide_eq_true rfl, Bool.true_or]
  refine ⟨⟨hkept.created, fun x hx => ?_, .inr hstage, fun x hx => ?_⟩, hstage, hshut⟩
  · rw [hkept.stage, hother x hx]
  · by_cases hne : x = s
    · rw [hne]
      exact hshut
    · rw [close_isShotdown, hother x hne, hx, Bool.or_true]

/-- An attempt that is over. -/
theorem Books.ended (h : Books c trace) {i stype : Nat} (report : Report)
    (ha : c.attempts[i]? = some ⟨stype, some s, true⟩) (hg : Answered c.g g' s)
    (shutting : SessId → Bool) :
    Books ⟨g', c.attempts.set i ⟨stype, some s, false⟩, shutting⟩
      (trace ++ Connects.ended i report) where
  absent x hx := by
    rw [hg.created] at hx
    have hne : x ≠ s := fun heq => absurd (h.lt i _ s ha rfl) (Nat.not_lt.mpr (heq ▸ hx))
    rw [hg.others x hne, h.absent x hx]
  lt j a x hj hx := by
    rw [hg.created]
    rcases getElem?_set_cases hj with ⟨-, rfl⟩ | ⟨-, hold⟩
    · cases hx
      exact h.lt i _ s ha rfl
    · exact h.lt j a x hold hx
  unique j k a b x hj hk hax hbx := by
    rcases getElem?_set_cases hj with ⟨rfl, rfl⟩ | ⟨-, hold⟩
    · rcases getElem?_set_cases hk with ⟨rfl, rfl⟩ | ⟨-, hold⟩
      · rfl
      · exact h.unique j k _ b x ha hold hax hbx
    · rcases getElem?_set_cases hk with ⟨rfl, rfl⟩ | ⟨-, hold'⟩
      · exact h.unique j k a _ x hold ha hax hbx
      · exact h.unique j k a b x hold hold' hax hbx
  flying j a hj hfly := by
    rcases getElem?_set_cases hj with ⟨rfl, rfl⟩ | ⟨hji, hold⟩
    · cases hfly
    · obtain ⟨x, hx, hstage, hown⟩ := h.flying j a hold hfly
      have hne : x ≠ s := by
        rintro rfl
        exact hji (h.unique j i a _ x hold ha hx rfl)
      refine ⟨x, hx, by rw [hg.others x hne, hstage], ?_⟩
      rw [own_ended_other hji, hown]
  connecting x k hx := by
    have hne : x ≠ s := by
      rintro rfl
      rcases hg.stage with hstage | hstage <;> cases hstage.symm.trans hx
    rw [hg.others x hne] at hx
    obtain ⟨j, hj⟩ := h.connecting x k hx
    have hji : i ≠ j := by
      rintro rfl
      rw [ha] at hj
      cases hj
      exact hne rfl
    exact ⟨j, (List.getElem?_set_ne hji).trans hj⟩
  quiet j hj := by
    rw [List.length_set] at hj
    have hi := (List.getElem?_eq_some_iff.mp ha).1
    rw [own_ended_other (by omega), h.quiet j hj]
  destroyed x := by
    have hnone : (Connects.ended i report).count (.destroy x) = 0 := by simp [Connects.ended]
    rw [List.count_append, hnone, h.destroyed x]
    by_cases hne : x = s
    · obtain ⟨y, hy, hstage, -⟩ := h.flying i _ ha rfl
      cases hy
      rw [hne, hstage]
      rcases hg.stage with hstage' | hstage' <;> rw [hstage'] <;> rfl
    · rw [hg.others x hne]
      rfl

theorem Good.ended (h : Good c trace) (hbooks : Books c trace) {i stype : Nat} {report : Report}
    (ha : c.attempts[i]? = some ⟨stype, some s, true⟩) (hg : Answered c.g g' s)
    (hlinks : LinksOk g') (hreport : report = ⟨0, some s, true⟩ ∨ report = ⟨1, none, false⟩ ∧
      (g'.session s).isShotdown = true ∧ (g'.session s).stage = .failed)
    (shutting : SessId → Bool) :
    Good ⟨g', c.attempts.set i ⟨stype, some s, false⟩, shutting⟩
      (trace ++ Connects.ended i report) where
  links := hlinks
  settled j a hj hend := by
    rcases getElem?_set_cases hj with ⟨rfl, rfl⟩ | ⟨hji, hold⟩
    · obtain ⟨x, hx, -, hown⟩ := hbooks.flying j _ ha rfl
      refine ⟨s, rfl, ?_⟩
      rw [own_append_self attempt_ended, hown]
      rcases hreport with rfl | ⟨rfl, hshut, hstage⟩
      · exact .inl rfl
      · exact .inr ⟨rfl, hshut, .inl hstage⟩
    · obtain ⟨x, hx, hreported⟩ := h.settled j a hold hend
      have hne : x ≠ s := by
        rintro rfl
        exact hji (hbooks.unique j i a _ x hold ha hx rfl)
      refine ⟨x, hx, ?_⟩
      rw [own_ended_other hji]
      refine hreported.imp id ?_
      rintro ⟨hown, hshut, hstage⟩
      rw [hg.others x hne]
      exact ⟨hown, hg.shut x hshut, hstage⟩

/-! ### Silent attempts -/

theorem noSilent_congr {c' : State} {trace' : List Entry} (hattempts : c'.attempts = c.attempts)
    (hown : ∀ i, own trace' i = own trace i) : NoSilent c' trace' ↔ NoSilent c trace := by
  have hreports : ∀ i, reports trace' i = reports trace i := fun i => by
    rw [reports_own, hown, ← reports_own]
  unfold NoSilent
  simp only [hattempts, hreports]

/-- A new attempt is silent unless libuv has it. -/
theorem Books.noSilent_snoc (h : Books c trace) {a : Attempt} {out : List Entry}
    {shutting : SessId → Bool} (hout : out = [] ∨ out = begun c.attempts.length) :
    NoSilent ⟨g', c.attempts ++ [a], shutting⟩ (trace ++ out) ↔
      NoSilent c trace ∧ a.inFlight = true := by
  have hattempt : ∀ e ∈ out, e.attempt = some c.attempts.length := by
    rcases hout with rfl | rfl
    · intro e he
      cases he
    · exact attempt_begun
  have hnone : reports (trace ++ out) c.attempts.length = [] := by
    rw [reports_own, own_append_self hattempt, h.quiet _ (Nat.le_refl _), List.nil_append]
    rcases hout with rfl | rfl <;> rfl
  have hold : ∀ i, i < c.attempts.length → reports (trace ++ out) i = reports trace i := by
    intro i hi
    rw [reports_own, own_append_other fun e he heq => ?_, ← reports_own]
    rw [hattempt e he, Option.some.injEq] at heq
    omega
  constructor
  · intro hall
    refine ⟨fun i b hb hend => ?_, ?_⟩
    · rw [← hold i (List.getElem?_eq_some_iff.mp hb).1]
      exact hall i b (getElem?_of_snoc hb) hend
    · by_contra hend
      exact hall _ a List.getElem?_concat_length (Bool.eq_false_iff.mpr hend) hnone
  · intro ⟨hall, hfly⟩ i b hb hend
    rcases getElem?_snoc hb with hb | ⟨-, rfl⟩
    · rw [hold i (List.getElem?_eq_some_iff.mp hb).1]
      exact hall i b hb hend
    · rw [hfly] at hend
      cases hend

/-- An attempt that is over is not silent. -/
theorem noSilent_ended {i stype : Nat} {report : Report} {shutting : SessId → Bool}
    (ha : c.attempts[i]? = some ⟨stype, some s, true⟩) :
    NoSilent ⟨g', c.attempts.set i ⟨stype, some s, false⟩, shutting⟩
        (trace ++ Connects.ended i report) ↔ NoSilent c trace := by
  have hold : ∀ j, j ≠ i → reports (trace ++ Connects.ended i report) j = reports trace j := by
    intro j hj
    rw [reports_own, own_ended_other hj, ← reports_own]
  constructor
  · intro hall j b hb hend
    have hj : j ≠ i := by
      rintro rfl
      rw [ha] at hb
      cases hb
      cases hend
    rw [← hold j hj]
    exact hall j b ((List.getElem?_set_ne (Ne.symm hj)).trans hb) hend
  · intro hall j b hb hend
    rcases getElem?_set_cases hb with ⟨rfl, -⟩ | ⟨hj, hb⟩
    · rw [reports, List.filterMap_append]
      simp [Connects.ended, List.filterMap_cons, Entry.report]
    · rw [hold j hj]
      exact hall j b hb hend

/-! ### Steps -/

/-- What holds in every run, and in a run without a silent attempt. -/
def Ok (c : State × List Entry) : Prop :=
  Books c.1 c.2 ∧ (NoSilent c.1 c.2 → Good c.1 c.2)

/-- The step keeps what holds, and makes an attempt silent unless `P`. -/
def Keeps (c : State × List Entry) (P : Prop) (r : State × List Entry) : Prop :=
  Ok (r.1, c.2 ++ r.2) ∧ (NoSilent r.1 (c.2 ++ r.2) ↔ NoSilent c.1 c.2 ∧ P)

variable {pm : ProtocolManager LuaBody} {uv_ip4_addr : Bytes → Int → Int} {ip : Nat → Bytes}
  {port : Nat → Int}

/-- A turn of the timer. -/
theorem check_keeps (h : Ok (c, trace)) {stype : Nat} (hserved : stype ∈ servers) (result : Int) :
    Keeps (c, trace) (Accepted uv_ip4_addr ip port (c, trace) (.check stype result))
      (checkServer uv_ip4_addr ip port c stype result) := by
  have hbooks : Books c trace := h.1
  have hgood : NoSilent c trace → Good c trace := h.2
  unfold checkServer
  split
  · rename_i hidle
    -- without a session the new attempt is silent
    have hsilent : ∀ g' : Gateway.State, g'.created = c.g.created → g'.session = c.g.session →
        ¬ Accepted uv_ip4_addr ip port (c, trace) (.check stype result) →
        Keeps (c, trace) (Accepted uv_ip4_addr ip port (c, trace) (.check stype result))
          ({ c with g := g', attempts := c.attempts ++ [⟨stype, none, false⟩] }, []) := by
      intro g' hcreated hsession hnot
      have hnew := hbooks.ignored hcreated hsession stype
      have hiff : NoSilent { c with g := g', attempts := c.attempts ++ [⟨stype, none, false⟩] }
          (trace ++ []) ↔ NoSilent c trace ∧ false = true := hbooks.noSilent_snoc (.inl rfl)
      rw [List.append_nil] at hiff
      unfold Keeps
      rw [List.append_nil]
      refine ⟨⟨hnew, fun hall => ?_⟩, ?_⟩
      · cases (hiff.mp hall).2
      · exact hiff.trans (and_congr_right' (iff_of_false Bool.false_ne_true hnot))
    unfold getawayConnect
    split
    · rename_i hport
      exact hsilent _ rfl rfl fun haccepted => (haccepted hidle.1 hidle.2).1 hport
    · rename_i hport
      unfold tcp_connect
      split
      · rename_i haddr
        exact hsilent _ rfl rfl fun haccepted => haddr (haccepted hidle.1 hidle.2).2.1
      · rename_i haddr
        rw [ne_eq, not_not] at haddr
        refine ⟨⟨?_, fun hall => ?_⟩,
          (hbooks.noSilent_snoc (.inr rfl)).trans (and_congr_right' ?_)⟩
        · refine hbooks.made stype (decide (result = 0)) rfl ?_ rfl rfl
          simp only [decide_eq_true_eq]
        · have hfly := (hbooks.noSilent_snoc (.inr rfl)).mp hall
          have hresult : result = 0 := of_decide_eq_true hfly.2
          have hlinks := (hgood hfly.1).links.checkServer hserved
          unfold Gateway.State.checkServer at hlinks
          rw [if_pos hidle] at hlinks
          subst hresult
          exact (hgood hfly.1).made hbooks stype rfl rfl rfl hlinks
        · rw [decide_eq_true_eq]
          exact ⟨fun hresult _ _ => ⟨hport, haddr, hresult⟩,
            fun haccepted => (haccepted hidle.1 hidle.2).2.2⟩
  · rename_i hidle
    unfold Keeps
    rw [List.append_nil]
    refine ⟨⟨hbooks, hgood⟩, (and_iff_left ?_).symm⟩
    intro hslot hdo
    exact absurd ⟨hslot, hdo⟩ hidle

/-- The end of an attempt, as the gateway takes it. -/
theorem after_connect_keeps (h : Ok (c, trace)) {i stype : Nat}
    (ha : c.attempts[i]? = some ⟨stype, some s, true⟩) (status : Int) (refused : Bool) :
    Keeps (c, trace) True (after_connect c i stype s status refused) := by
  have hbooks : Books c trace := h.1
  have hgood : NoSilent c trace → Good c trace := h.2
  obtain ⟨x, hx, hstage, -⟩ := hbooks.flying i _ ha rfl
  cases hx
  by_cases hstatus : status = 0
  · have hafter : after_connect c i stype s status refused =
        (⟨c.g.opened stype s, c.attempts.set i ⟨stype, some s, false⟩, c.shutting⟩,
          Connects.ended i ⟨0, some s, !(c.g.session s).isShotdown⟩) := by
      rw [hstatus]
      rfl
    have hanswered := answered_opened c.g stype s
    rw [hafter]
    refine ⟨⟨hbooks.ended _ ha hanswered _, fun hall => ?_⟩,
      (noSilent_ended ha).trans (and_iff_left trivial).symm⟩
    have hlinks := (hgood ((noSilent_ended ha).mp hall)).links
    have hopen := (hlinks.sessions.connecting s stype hstage).2.1
    refine (hgood ((noSilent_ended ha).mp hall)).ended hbooks ha hanswered
      (hlinks.opened hstage) (.inl ?_) _
    rw [hopen]
    rfl
  · have hafter : after_connect c i stype s status refused =
        (⟨((c.g.refused stype s).close s).1, c.attempts.set i ⟨stype, some s, false⟩,
            Function.update c.shutting s (!refused)⟩,
          Connects.ended i ⟨1, none, false⟩) := by
      unfold after_connect
      rw [if_pos hstatus, decide_eq_true hstatus]
      rfl
    obtain ⟨hanswered, hfailed, hshut⟩ := answered_refused c.g stype s
    rw [hafter]
    refine ⟨⟨hbooks.ended _ ha hanswered _, fun hall => ?_⟩,
      (noSilent_ended ha).trans (and_iff_left trivial).symm⟩
    have hold := hgood ((noSilent_ended ha).mp hall)
    refine hold.ended hbooks ha hanswered ?_ (.inr ⟨rfl, hshut, hfailed⟩) _
    refine (hold.links.refused hstage).close fun k hk => ?_
    rw [session_refused_same] at hk
    cases hk

/-- A shutdown that is done concerns no attempt. -/
theorem Keeps.other {shutting : SessId → Bool} (h : Ok (c, trace)) (hg : Aged c.g g')
    (hlinks : LinksOk c.g → LinksOk g') :
    Keeps (c, trace) True (⟨g', c.attempts, shutting⟩, []) := by
  have hiff : NoSilent ⟨g', c.attempts, shutting⟩ (trace ++ []) ↔ NoSilent c trace :=
    noSilent_congr rfl fun _ => by rw [List.append_nil]
  refine ⟨⟨?_, fun hall => ?_⟩, hiff.trans (and_iff_left trivial).symm⟩
  · show Books ⟨g', c.attempts, shutting⟩ (trace ++ [])
    rw [List.append_nil]
    exact Books.aged h.1 hg shutting
  · have hold : Good c trace := h.2 (hiff.mp hall)
    show Good ⟨g', c.attempts, shutting⟩ (trace ++ [])
    rw [List.append_nil]
    exact hold.aged h.1 hg (hlinks hold.links) shutting

/-- A session that is destroyed. -/
theorem destroy_keeps (h : Ok (c, trace)) {r : Gateway.State × List Act}
    (hstep : Gateway.step pm c.g (.destroy s) = some r) :
    Keeps (c, trace) True ({ c with g := r.1 }, [.destroy s]) := by
  have hbooks : Books c trace := h.1
  have hnext := hstep
  unfold Gateway.step at hnext
  simp only [Option.ite_none_right_eq_some, Option.some.injEq] at hnext
  obtain ⟨⟨-, hstage⟩, rfl⟩ := hnext
  have hiff : NoSilent { c with g := c.g.modify s fun x => { x with stage := .destroyed } }
      (trace ++ [.destroy s]) ↔ NoSilent c trace :=
    noSilent_congr rfl fun _ => own_destroy s
  refine ⟨⟨hbooks.destroy hstage, fun hall => ?_⟩, hiff.trans (and_iff_left trivial).symm⟩
  have hold : Good c trace := h.2 (hiff.mp hall)
  exact hold.destroy (hold.links.step hstep)

/-- **Every step** keeps what holds, and makes an attempt silent unless libuv
accepts it. -/
theorem step_keeps (h : Ok (c, trace)) {e : Event} {r : State × List Entry}
    (hstep : step pm uv_ip4_addr ip port c e = some r) :
    Keeps (c, trace) (Accepted uv_ip4_addr ip port (c, trace) e) r := by
  cases e with
  | check stype result =>
    simp only [step, Option.ite_none_right_eq_some, Option.some.injEq] at hstep
    obtain ⟨hserved, rfl⟩ := hstep
    exact check_keeps h hserved result
  | after_connect i status refused =>
    simp only [step] at hstep
    split at hstep
    · rename_i stype s ha
      cases hstep
      exact after_connect_keeps h ha status refused
    · cases hstep
  | shutdownDone s =>
    simp only [step, Option.ite_none_right_eq_some, Option.some.injEq] at hstep
    obtain ⟨-, rfl⟩ := hstep
    exact Keeps.other h (.of_life (.refl c.g)) id
  | gateway e =>
    have hother : e ≠ .timer → (∀ s err, e ≠ .connected s err) → (∀ s, e ≠ .destroy s) →
        (Gateway.step pm c.g e).map (fun r => ({ c with g := r.1 }, [])) = some r →
        Keeps (c, trace) True r := by
      intro htimer hconnected hdestroy hmap
      obtain ⟨next, hnext, rfl⟩ := Option.map_eq_some_iff.mp hmap
      exact Keeps.other h (Aged.step hnext htimer hconnected hdestroy) fun hlinks =>
        hlinks.step hnext
    cases e with
    | timer => cases hstep
    | connected s err => cases hstep
    | destroy s =>
      simp only [step, Option.ite_none_left_eq_some] at hstep
      obtain ⟨next, hnext, rfl⟩ := Option.map_eq_some_iff.mp hstep.2
      exact destroy_keeps h hnext
    | accept => exact hother nofun nofun nofun hstep
    | command s cmd => exact hother nofun nofun nofun hstep
    | lost s => exact hother nofun nofun nofun hstep

theorem Books.init : Books Connects.init [] where
  absent _ _ := rfl
  lt _ _ _ ha := by cases ha
  unique _ _ _ _ _ ha := by cases ha
  flying _ _ ha := by cases ha
  connecting _ _ hs := by cases hs
  quiet _ _ := rfl
  destroyed _ := rfl

theorem Good.init : Good Connects.init [] where
  links := LinksOk.init
  settled _ _ ha := by cases ha

/-! ### Reports -/

/-- What is true of an attempt that has ended. -/
theorem Good.isSettled (h : Good c trace) (hbooks : Books c trace) {i : Nat} {a : Attempt}
    (ha : c.attempts[i]? = some a) (hend : a.inFlight = false) : Settled c trace i a := by
  obtain ⟨s, hs, hown | ⟨hown, hshut, hstage⟩⟩ := h.settled i a ha hend
  · have hsaid := settled_own hown
    exact ⟨s, hs, hsaid.2, .inl hsaid.1⟩
  · have hsaid := settled_own hown
    refine ⟨s, hs, hsaid.2, .inr ⟨⟨1, by decide, hsaid.1⟩, hshut, ?_⟩⟩
    have hcount := hbooks.destroyed s
    rcases hstage with hstage | hstage
    · rw [hstage, if_neg (by decide)] at hcount
      exact .inl ⟨hstage, hcount⟩
    · rw [hstage, if_pos rfl] at hcount
      exact .inr ⟨hstage, hcount⟩

theorem reportsBack_iff (h : Ok (c, trace)) : ReportsBack c trace ↔ NoSilent c trace := by
  have hbooks : Books c trace := h.1
  constructor
  · intro hback i a ha hend hnone
    have hsettled := hback.attempts i a ha
    rw [hend, if_neg Bool.false_ne_true] at hsettled
    obtain ⟨s, -, -, hone | ⟨⟨err, -, hone⟩, -⟩⟩ := hsettled
    all_goals
      rw [hnone] at hone
      cases hone
  · intro hall
    have hgood : Good c trace := h.2 hall
    refine { attempts := fun i a ha => ?_, flags := fun stype hserved hdo hslot => ?_ }
    · cases hfly : a.inFlight with
      | true =>
        obtain ⟨s, -, -, hown⟩ := hbooks.flying i a ha hfly
        rw [if_pos rfl, reports_own, hown]
        rfl
      | false => exact hgood.isSettled hbooks ha hfly
    · obtain ⟨p, hp⟩ := hgood.links.phase stype hserved
      cases p with
      | idle =>
        rw [hp.1] at hdo
        cases hdo
      | connecting =>
        obtain ⟨s, hs, -⟩ := hp.2.2
        obtain ⟨i, hi⟩ := hbooks.connecting s stype hs
        exact ⟨_, List.mem_of_getElem? hi, rfl, rfl⟩
      | connected =>
        obtain ⟨s, hs, -⟩ := hp.2.1
        rw [hslot] at hs
        cases hs

end Invariant

/-- **Connects report back** in exactly the runs in which every address is one
and libuv takes every request. -/
theorem connects_reported (pm : ProtocolManager LuaBody) (uv_ip4_addr : Bytes → Int → Int)
    (ip : Nat → Bytes) (port : Nat → Int) (events : List Event) :
    ∀ c trace, run pm uv_ip4_addr ip port events = some (c, trace) →
      (ReportsBack c trace ↔
        Along (step pm uv_ip4_addr ip port) (Accepted uv_ip4_addr ip port) (init, []) events) := by
  intro c trace hrun
  have hkeeps : ∀ c e c', Ok c → record (step pm uv_ip4_addr ip port) c e = some c' →
      Ok c' ∧ (NoSilent c'.1 c'.2 ↔ NoSilent c.1 c.2 ∧ Accepted uv_ip4_addr ip port c e) := by
    rintro ⟨c, trace⟩ e c' hok hrecord
    obtain ⟨next, out, hstep, rfl⟩ := record_eq_some.mp hrecord
    exact step_keeps hok hstep
  have hinit : Ok (init, []) := ⟨Books.init, fun _ => Good.init⟩
  have hok : Ok (c, trace) := run_invariant (P := fun _ _ => True)
    (fun c e c' hc _ hrecord => (hkeeps c e c' hc hrecord).1) hinit (along_true _ _) hrun
  have hnone : NoSilent init [] := by
    intro i a ha
    cases ha
  rw [reportsBack_iff hok, run_iff_along (R := fun c => NoSilent c.1 c.2) hkeeps hinit hrun]
  exact and_iff_right hnone

/-- Two servers, of which the second one is not there. -/
def twoServers : List Event :=
  [.check Stype.Auth 0, .check Stype.System 0, .after_connect 0 0 false,
    .after_connect 1 (-111) true]

/-- Everything parses as an address. -/
def sampleRun (events : List Event) : Option (State × List Entry) :=
  run sampleProto (fun _ _ => 0) (fun _ => "127.0.0.1".toUTF8.toList) (fun _ => 975) events

theorem connects_reported_two : ∃ c trace,
    sampleRun twoServers = some (c, trace) ∧ ReportsBack c trace := by
  have hsome : (sampleRun twoServers).isSome := by decide
  obtain ⟨⟨c, trace⟩, hrun⟩ := Option.isSome_iff_exists.mp hsome
  exact ⟨c, trace, hrun, (connects_reported _ _ _ _ _ c trace hrun).mpr (by decide)⟩

/-- libuv cannot make a socket. -/
theorem connects_reported_not : ¬ ∀ c trace,
    sampleRun [.check Stype.Auth (-24)] = some (c, trace) → ReportsBack c trace := by
  intro hall
  have hmap : (sampleRun [.check Stype.Auth (-24)]).map (fun r =>
      (r.1.g.do_connecting Stype.Auth, r.1.g.sType2Session Stype.Auth,
        r.1.attempts.map Attempt.inFlight)) = some (true, none, [false]) := by decide
  obtain ⟨⟨c, trace⟩, hrun, hobs⟩ := Option.map_eq_some_iff.mp hmap
  simp only [Prod.mk.injEq] at hobs
  obtain ⟨hdo, hslot, hattempts⟩ := hobs
  obtain ⟨a, ha, -, hfly⟩ := (hall c trace hrun).flags _ (by decide) hdo hslot
  have hmem : true ∈ c.attempts.map Attempt.inFlight := hfly ▸ List.mem_map_of_mem ha
  rw [hattempts] at hmem
  cases hmem with
  | tail _ h => cases h

end LibuvServer.Gateway.Connects
