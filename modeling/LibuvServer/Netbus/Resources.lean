import LibuvServer.Lib.Ledger
import LibuvServer.Netbus.NetBus
import LibuvServer.Netbus.SendData
import LibuvServer.Utils.PoolIntegrity
import Mathlib.Data.List.Nodup

/-!
# What sessions take and give back

`netbus/session_uv.cc` and the callbacks of `netbus/netbus.cc` over the three
kinds of block a session uses: the write requests of `wr_allocer`, the
packages of `wbuf_allocer` and the block malloc'ed for a large package. A
request is freed by the callback of the write, a package before `sendData`
returns, and the large block by the parser that empties it.
-/

namespace LibuvServer.Netbus.Resources

open LibuvServer.Lib LibuvServer.Utils

/-- The number of blocks of `wr_allocer`. -/
def CACHE_RECV_SIZE : Nat := 4096

/-- The sizes of the two requests, which are libuv's. -/
structure UvSizes where
  uv_write_t : Nat
  uv_udp_send_t : Nat

/-- How far a connection has come. -/
inductive Stage where
  | connecting
  | reading
  | closing
  | destroyed
  deriving DecidableEq

/-- A `Session_uv` of `create`. -/
structure Conn where
  uv : SessionUv
  isShotdown : Bool
  stage : Stage

/-- What libuv has started and not called back for: the block of the request,
where it is one of `wr_allocer`, and the session. -/
inductive Request where
  | write (session : Option Nat) (w_req : Nat)
  | udpSend (w_req : Nat)
  | shutdown (session : Nat)
  | connect (session : Nat)

/-- What libuv and `malloc` answer during one event: whether a request is
taken, whether a session that is shut down is connected, and where the blocks
go that no pool has. -/
structure Answers where
  accepted : Bool
  connected : Bool
  reqAt : Nat
  udpReqAt : Nat
  pkgAt : Nat

/-- The process. Sessions are numbered as they are created, and a block for a
large package goes by the number of the session it was malloc'ed for. -/
structure Bus where
  wr_allocer : Pool
  wbuf_allocer : Pool
  sessions : List Conn
  pending : List Request
  /-- The large blocks that have not been freed. -/
  longPkgs : List Nat

/-- What happens next: a peer connects or is connected to, bytes of it are
read or it is gone, a session or the sender of a datagram is sent a body, a
session is closed, libuv calls back for a request or a closed handle, or
writes into a request it has. -/
inductive Event where
  | accept (socketType : SocketType)
  | connect (answers : Answers)
  | read (i : Nat) (data : Option Bytes) (answers : Answers)
  | send (i : Nat) (body : Bytes) (answers : Answers)
  | sendUdp (body : Bytes) (answers : Answers)
  | close (i : Nat) (answers : Answers)
  | complete (k : Nat) (ok : Bool) (answers : Answers)
  | closeClient (i : Nat)
  | fill (x : Live) (off : Nat) (data : Bytes)

def Request.req : Request → Option Nat
  | .write _ w_req => some w_req
  | .udpSend w_req => some w_req
  | .shutdown _ => none
  | .connect _ => none

def Request.session : Request → Option Nat
  | .write session _ => session
  | .udpSend _ => none
  | .shutdown i => some i
  | .connect i => some i

/-- `Session_uv::create`. -/
def Conn.create (socketType : SocketType) (stage : Stage) : Conn :=
  ⟨SessionUv.create socketType, false, stage⟩

def Conn.peer (s : Conn) : Peer := ⟨false, s.uv.socketType, s.uv.wsShake⟩

/-- The session a datagram is answered through, a local of `uv_startUdpEvent`.
Nothing but `udpStatus` is looked at. -/
def udpServer : Peer := ⟨true, .TCP_SOCKET, false⟩

/-- The session has a large block it can still free. -/
def Conn.holds (s : Conn) : Bool := s.stage ≠ .destroyed && s.uv.longPkg.isSome

namespace Bus

def holds (h : Bus) (i : Nat) : Bool := (h.sessions[i]?).any Conn.holds

/-- The blocks of the requests libuv has. -/
def reqs (h : Bus) : List Nat := h.pending.filterMap Request.req

/-- A request goes to libuv, which may refuse it. There is no callback then,
and its answer is not looked at. -/
def start (h : Bus) (accepted : Bool) (r : Request) : Bus :=
  if accepted then { h with pending := h.pending ++ [r] } else h

/-- A package is built, written and freed: the pool of packages after it. -/
def sendPackage (wbuf_allocer : Pool) (pkgAt : Nat) : Package → Option Pool
  | .body => some wbuf_allocer
  -- `NULL` is freed
  | .refused => some wbuf_allocer
  | .built pkg =>
    (wbuf_allocer.take pkg.length pkgAt).bind fun r =>
      (r.2.fill r.1 0 pkg).bind fun c => c.give r.1.addr

/-- `Session_uv::sendData`. -/
def sendData (sizes : UvSizes) (h : Bus) (session : Option Nat) (s : Peer) (body : Bytes)
    (answers : Answers) : Option Bus :=
  (h.wr_allocer.take sizes.uv_write_t answers.reqAt).bind fun (w_req, wr_allocer) =>
    if s.udpStatus then
      -- a second `w_req` hides the first
      (wr_allocer.take sizes.uv_udp_send_t answers.udpReqAt).map fun (w_req, wr_allocer) =>
        { h with wr_allocer }.start answers.accepted (.udpSend w_req.addr)
    else
      (sendPackage h.wbuf_allocer answers.pkgAt (s.package body)).map fun wbuf_allocer =>
        { h with wr_allocer, wbuf_allocer }.start answers.accepted (.write session w_req.addr)

/-- A session changes. -/
def modify (h : Bus) (i : Nat) (f : Conn → Conn) : Bus :=
  { h with sessions := h.sessions.modify i f }

/-- `Session_uv::close`, after the services. -/
def close (h : Bus) (i : Nat) (answers : Answers) : Bus :=
  match h.sessions[i]? with
  | none => h
  | some s =>
    if s.isShotdown then h
    else
      let h := h.modify i fun s => { s with isShotdown := true }
      if answers.connected then { h with pending := h.pending ++ [.shutdown i] }
      else h.modify i fun s => { s with stage := .closing }

/-- Reception changes a session: `longPkg` is set after a `malloc` and reset
after a `free`. -/
def setUv (h : Bus) (i : Nat) (before after : SessionUv) : Bus :=
  { h.modify i fun s => { s with uv := after } with
    longPkgs :=
      match before.longPkg, after.longPkg with
      | none, some _ => i :: h.longPkgs
      | some _, none => h.longPkgs.erase i
      | none, none => h.longPkgs
      | some _, some _ => h.longPkgs }

/-- The calls of one read. What a command makes its service do is events of
its own. -/
def serve (sizes : UvSizes) (i : Nat) (s : Peer) (answers : Answers) (h : Bus) :
    List Call → Option Bus
  | [] => some h
  | .close :: calls => (h.close i answers).serve sizes i s answers calls
  | .recCommand _ _ :: calls => h.serve sizes i s answers calls
  | .sendData reply :: calls =>
    (h.sendData sizes (some i) s reply answers).bind fun h => h.serve sizes i s answers calls

end Bus

/-- `uv_tcpBuffmem` and `uv_readData`: the session once it has offered a
buffer, the session in the end and the calls. No data means that the peer is
gone. -/
def readOnce (lib : HttpLib) (s : SessionUv) (data : Option Bytes) :
    Option (SessionUv × SessionUv × List Call) :=
  match uvTcpBuffmem s with
  | none => none
  | some (offering, buf) =>
    let outcome :=
      match data with
      | none => uvReadData lib offering (-1)
      | some data =>
        if (data.length : Int) ≤ buf.len then
          uvReadData lib (offering.store buf data) data.length
        else .faulted
    match outcome with
    | .ended uv calls => some (offering, uv, calls)
    | .faulted => none
    | .unfinished => none

namespace Bus

/-- One read of a session. -/
def read (lib : HttpLib) (sizes : UvSizes) (h : Bus) (i : Nat) (data : Option Bytes)
    (answers : Answers) : Option (Bus × List Call) :=
  match h.sessions[i]? with
  | none => none
  | some s =>
    if s.stage = .reading then
      (readOnce lib s.uv data).bind fun (offering, uv, calls) =>
        -- a reply to a handshake is sent before the handshake is recorded
        (((h.setUv i s.uv offering).setUv i offering uv).serve sizes i s.peer answers calls).map
          fun h => (h, calls)
    else none

/-- The callback of a request. -/
def callback (h : Bus) (ok : Bool) (answers : Answers) : Request → Option Bus
  | .write _ w_req => (h.wr_allocer.give w_req).map fun wr_allocer => { h with wr_allocer }
  | .udpSend w_req => (h.wr_allocer.give w_req).map fun wr_allocer => { h with wr_allocer }
  | .shutdown i => some (h.modify i fun s => { s with stage := .closing })
  | .connect i =>
    if ok then
      some (h.modify i fun s => if s.stage = .connecting then { s with stage := .reading } else s)
    else some (h.close i answers)

/-- One event, if it can happen now. -/
def step (lib : HttpLib) (sizes : UvSizes) (h : Bus) : Event → Option (Bus × List Call)
  | .accept socketType =>
    some ({ h with sessions := h.sessions ++ [Conn.create socketType .reading] }, [])
  | .connect answers =>
    let created := { h with sessions := h.sessions ++ [Conn.create .TCP_SOCKET .connecting] }
    some (created.start answers.accepted (.connect h.sessions.length), [])
  | .read i data answers => h.read lib sizes i data answers
  | .send i body answers =>
    match h.sessions[i]? with
    | none => none
    | some s =>
      if s.stage ≠ .destroyed then
        (h.sendData sizes (some i) s.peer body answers).map fun h => (h, [])
      else none
  | .sendUdp body answers =>
    (h.sendData sizes none udpServer body answers).map fun h => (h, [])
  | .close i answers =>
    match h.sessions[i]? with
    | none => none
    | some s => if s.stage ≠ .destroyed then some (h.close i answers, []) else none
  | .complete k ok answers =>
    match h.pending[k]? with
    | none => none
    | some r =>
      ({ h with pending := h.pending.eraseIdx k }.callback ok answers r).map fun h => (h, [])
  | .closeClient i =>
    match h.sessions[i]? with
    | none => none
    | some s =>
      -- libuv calls back for what it has of a handle before it closes it
      if s.stage = .closing ∧ h.pending.all (·.session ≠ some i) then
        -- `destroy`: `exit` frees nothing
        some (h.modify i fun s => { s with stage := .destroyed }, [])
      else none
  | .fill x off data =>
    if x.addr ∈ h.reqs then
      (h.wr_allocer.fill x off data).map fun wr_allocer => ({ h with wr_allocer }, [])
    else none

/-- `initSessionAllocer`, with the arenas of the two pools where `malloc` put them. -/
def boot (sizes : UvSizes) (wrMem wbufMem : Nat) (mem : Mem) : Bus where
  wr_allocer := Pool.start wrMem mem CACHE_RECV_SIZE sizes.uv_write_t
  wbuf_allocer := Pool.start wbufMem mem CACHE_SEND_SIZE CACHE_CMD_SIZE
  sessions := []
  pending := []
  longPkgs := []

end Bus

/-! ## What is said of a run -/

def Call.isReply : Call → Bool
  | .sendData _ => true
  | .recCommand _ _ => false
  | .close => false

/-- The read completes a handshake, which is answered. -/
def replies (lib : HttpLib) (s : SessionUv) (data : Option Bytes) : Bool :=
  (readOnce lib s data).any fun r => r.2.2.any Call.isReply

/-- Nothing is left over: no block is in use that `wr_allocer` or
`wbuf_allocer` has handed out, and the large blocks are those of the sessions
that are not destroyed, one each. -/
structure Balanced (h : Bus) : Prop where
  wr_allocer : h.wr_allocer.live = []
  wbuf_allocer : h.wbuf_allocer.live = []
  longPkgs : ∀ i, h.longPkgs.count i = if h.holds i then 1 else 0

/-- Nothing is sent to the sender of a datagram, no write is refused by libuv,
and no session is destroyed that has a large block. -/
def Kept (lib : HttpLib) (c : Bus × List Call) : Event → Prop
  | .send _ _ answers => answers.accepted = true
  | .sendUdp _ _ => False
  | .read i data answers =>
    (c.1.sessions[i]?).any (fun s => replies lib s.uv data) = true → answers.accepted = true
  | .closeClient i => c.1.holds i = false
  | _ => True

instance (lib : HttpLib) (c : Bus × List Call) (e : Event) : Decidable (Kept lib c e) :=
  match e with
  | .send _ _ _ => inferInstanceAs (Decidable (_ = _))
  | .read _ _ _ => inferInstanceAs (Decidable (_ = _ → _ = _))
  | .closeClient _ => inferInstanceAs (Decidable (_ = _))
  | .sendUdp _ _ => .isFalse id
  | .accept _ | .connect _ | .close _ _ | .complete _ _ _ | .fill _ _ _ => .isTrue trivial

/-! ## The ledger of a state -/

/-- What is taken and given back: the block of a request, or the large block
of a session. -/
inductive Piece where
  | request (addr : Nat)
  | longPkg (session : Nat)

namespace Bus

def live (h : Bus) : Piece → Prop
  | .request addr => addr ∈ h.wr_allocer.addrs
  | .longPkg i => i ∈ h.longPkgs

/-- Libuv will call back for the request, or the session still has the block. -/
def held (h : Bus) : Piece → Prop
  | .request addr => addr ∈ h.reqs
  | .longPkg i => h.holds i = true

def destroyed (h : Bus) (i : Nat) : Prop := ∃ s ∈ h.sessions[i]?, s.stage = .destroyed

end Bus

/-- What every step keeps: both pools are intact, all packages are back, only a
destroyed session has left a large block behind, and none is destroyed that
libuv still has a request of. -/
structure Sound (h : Bus) : Prop where
  wr : ∃ free, Intact h.wr_allocer free
  wbuf : ∃ free, Intact h.wbuf_allocer free
  packages : h.wbuf_allocer.live = []
  reqs : h.reqs.Nodup
  longPkgs : h.longPkgs.Nodup
  owned : ∀ i ∈ h.longPkgs, h.holds i = true ∨ h.destroyed i
  pending : ∀ r ∈ h.pending, ∀ i ∈ r.session, ¬ h.destroyed i

/-- The ledger tells of the state what is taken and who holds it. -/
structure Tracked (h : Bus) (a : Ledger Piece) : Prop extends Sound h where
  live : ∀ p, p ∈ a.live ↔ h.live p
  held : ∀ p, p ∈ a.held ↔ h.held p

/-- The state comes from the ledger by moves that lose nothing exactly if
`keeps`. -/
def Refines (a : Ledger Piece) (h : Bus) (keeps : Prop) : Prop :=
  ∃ moves, a.AllowsAll moves ∧ Tracked h (a.afterAll moves) ∧
    ((∀ m ∈ moves, m.Keeps) ↔ keeps)

section Ledgers

variable {h h' : Bus} {a b : Ledger Piece} {keeps keeps' : Prop}

theorem Refines.refl (h : Tracked h' a) : Refines a h' True := ⟨[], trivial, h, by simp⟩

theorem Refines.congr (h : Refines a h' keeps) (hiff : keeps ↔ keeps') : Refines a h' keeps' := by
  obtain ⟨moves, hallows, htracked, hkeeps⟩ := h
  exact ⟨moves, hallows, htracked, hkeeps.trans hiff⟩

theorem Refines.trans (hfirst : Refines a h keeps)
    (hnext : ∀ b, Tracked h b → Refines b h' keeps') : Refines a h' (keeps ∧ keeps') := by
  obtain ⟨moves, hallows, htracked, hkeeps⟩ := hfirst
  obtain ⟨more, hallows', htracked', hkeeps'⟩ := hnext _ htracked
  refine ⟨moves ++ more, Ledger.allowsAll_append.mpr ⟨hallows, hallows'⟩, ?_, ?_⟩
  · rw [Ledger.afterAll_append]
    exact htracked'
  · rw [List.forall_mem_append, hkeeps, hkeeps']

/-- Nothing is lost in the ledger exactly if everything taken is held. -/
theorem Tracked.noLeak (h : Tracked h' a) : a.NoLeak ↔ ∀ p, h'.live p → h'.held p := by
  constructor
  · intro hsub p hp
    exact (h.held p).mp (hsub ((h.live p).mpr hp))
  · intro hall p hp
    exact (h.held p).mpr (hall p ((h.live p).mp hp))

/-- **What an operation loses.** -/
theorem Refines.noLeak (h : Tracked h' a) {h₁ : Bus} (hrefines : Refines a h₁ keeps) :
    (∀ p, h₁.live p → h₁.held p) ↔ (∀ p, h'.live p → h'.held p) ∧ keeps := by
  obtain ⟨moves, hallows, htracked, hkeeps⟩ := hrefines
  rw [← htracked.noLeak, ← h.noLeak, Ledger.noLeak_afterAll hallows, hkeeps]

end Ledgers

/-! ## Sessions that change -/

section Sessions

variable {h h' : Bus} {a : Ledger Piece} {i j : Nat} {f : Conn → Conn} {s : Conn}

/-- Nothing is taken, given back or left behind from one state to the other. -/
structure Same (h h' : Bus) : Prop where
  wr_allocer : h'.wr_allocer = h.wr_allocer
  wbuf_allocer : h'.wbuf_allocer = h.wbuf_allocer
  reqs : h'.reqs = h.reqs
  longPkgs : h'.longPkgs = h.longPkgs
  holds : ∀ i, h'.holds i = h.holds i
  destroyed : ∀ i, h'.destroyed i ↔ h.destroyed i
  pending : ∀ r ∈ h'.pending, r ∈ h.pending ∨ ∀ i ∈ r.session, ¬ h.destroyed i

theorem Tracked.same (h₀ : Tracked h a) (hsame : Same h h') : Tracked h' a where
  wr := by
    rw [hsame.wr_allocer]
    exact h₀.wr
  wbuf := by
    rw [hsame.wbuf_allocer]
    exact h₀.wbuf
  packages := by
    rw [hsame.wbuf_allocer]
    exact h₀.packages
  reqs := by
    rw [hsame.reqs]
    exact h₀.reqs
  longPkgs := by
    rw [hsame.longPkgs]
    exact h₀.longPkgs
  owned i hi := by
    rw [hsame.longPkgs] at hi
    rw [hsame.holds, hsame.destroyed]
    exact h₀.owned i hi
  pending r hr i hi := by
    rw [hsame.destroyed]
    rcases hsame.pending r hr with hold | hnew
    · exact h₀.pending r hold i hi
    · exact hnew i hi
  live p := by
    rw [h₀.live]
    cases p <;> simp only [Bus.live, hsame.wr_allocer, hsame.longPkgs]
  held p := by
    rw [h₀.held]
    cases p <;> simp only [Bus.held, hsame.reqs, hsame.holds]

theorem Same.refl (h : Bus) : Same h h where
  wr_allocer := rfl
  wbuf_allocer := rfl
  reqs := rfl
  longPkgs := rfl
  holds _ := rfl
  destroyed _ := Iff.rfl
  pending _ hr := .inl hr

theorem Same.trans {h₁ h₂ : Bus} (hfirst : Same h h₁) (hnext : Same h₁ h₂) : Same h h₂ where
  wr_allocer := hnext.wr_allocer.trans hfirst.wr_allocer
  wbuf_allocer := hnext.wbuf_allocer.trans hfirst.wbuf_allocer
  reqs := hnext.reqs.trans hfirst.reqs
  longPkgs := hnext.longPkgs.trans hfirst.longPkgs
  holds i := (hnext.holds i).trans (hfirst.holds i)
  destroyed i := (hnext.destroyed i).trans (hfirst.destroyed i)
  pending r hr := by
    rcases hnext.pending r hr with hold | hnew
    · exact hfirst.pending r hold
    · exact .inr fun i hi hgone => hnew i hi ((hfirst.destroyed i).mpr hgone)

theorem not_destroyed (hs : h.sessions[i]? = some s) (hstage : s.stage ≠ .destroyed) :
    ¬ h.destroyed i := by
  rintro ⟨s', hs', hgone⟩
  rw [hs] at hs'
  cases hs'
  exact hstage hgone

theorem holds_modify : (h.modify i f).holds j =
    (h.sessions[j]?).any fun s => (if i = j then f s else s).holds := by
  rw [Bus.holds, Bus.modify, List.getElem?_modify]
  cases h.sessions[j]? <;> rfl

theorem destroyed_modify : (h.modify i f).destroyed j ↔
    ∃ s ∈ h.sessions[j]?, (if i = j then f s else s).stage = .destroyed := by
  rw [Bus.destroyed, Bus.modify, List.getElem?_modify]
  cases h.sessions[j]? <;> simp

/-- A session changes, but neither its large block nor whether it is destroyed. -/
theorem same_modify (hholds : ∀ s ∈ h.sessions[i]?, (f s).holds = s.holds)
    (hstage : ∀ s ∈ h.sessions[i]?, (f s).stage = .destroyed ↔ s.stage = .destroyed) :
    Same h (h.modify i f) where
  wr_allocer := rfl
  wbuf_allocer := rfl
  reqs := rfl
  longPkgs := rfl
  holds j := by
    rw [holds_modify, Bus.holds]
    by_cases hij : i = j
    · subst hij
      cases hs : h.sessions[i]? with
      | none => rfl
      | some s => simpa using hholds s hs
    · simp only [if_neg hij]
  destroyed j := by
    rw [destroyed_modify, Bus.destroyed]
    by_cases hij : i = j
    · subst hij
      simp only [if_true]
      exact exists_congr fun s => and_congr_right fun hs => hstage s hs
    · simp only [if_neg hij]
  pending _ hr := .inl hr

/-- A session that is not destroyed goes on to another stage. -/
theorem same_stage {stage : Stage} (hi : ¬ h.destroyed i) (hstage : stage ≠ .destroyed) :
    Same h (h.modify i fun s => { s with stage }) := by
  have hs : ∀ s ∈ h.sessions[i]?, s.stage ≠ .destroyed := fun s hs hgone => hi ⟨s, hs, hgone⟩
  refine same_modify (fun s hsome => ?_) (fun s hsome => ?_)
  · simp [Conn.holds, hs s hsome, hstage]
  · simp [hs s hsome, hstage]

/-- A request that has no block is started. -/
theorem Same.request (hsame : Same h h') {r : Request} (hr : r.req = none)
    (hsession : ∀ i ∈ r.session, ¬ h.destroyed i) :
    Same h { h' with pending := h'.pending ++ [r] } where
  wr_allocer := hsame.wr_allocer
  wbuf_allocer := hsame.wbuf_allocer
  reqs := by
    rw [← hsame.reqs]
    simp [Bus.reqs, hr]
  longPkgs := hsame.longPkgs
  holds := hsame.holds
  destroyed := hsame.destroyed
  pending r' hmem := by
    rcases List.mem_append.mp hmem with hold | hnew
    · exact hsame.pending r' hold
    · rw [List.mem_singleton.mp hnew]
      exact .inr hsession

/-- A session is added. -/
theorem same_accept {s : Conn} (hholds : s.holds = false) (hstage : s.stage ≠ .destroyed) :
    Same h { h with sessions := h.sessions ++ [s] } where
  wr_allocer := rfl
  wbuf_allocer := rfl
  reqs := rfl
  longPkgs := rfl
  holds j := by
    simp only [Bus.holds]
    rcases Nat.lt_trichotomy j h.sessions.length with hlt | rfl | hgt
    · rw [List.getElem?_append_left hlt]
    · simp [hholds]
    · have hend : (h.sessions ++ [s]).length ≤ j := by simpa using Nat.succ_le_of_lt hgt
      rw [List.getElem?_eq_none hend, List.getElem?_eq_none (by omega)]
  destroyed j := by
    simp only [Bus.destroyed]
    rcases Nat.lt_trichotomy j h.sessions.length with hlt | rfl | hgt
    · rw [List.getElem?_append_left hlt]
    · simp [hstage]
    · have hend : (h.sessions ++ [s]).length ≤ j := by simpa using Nat.succ_le_of_lt hgt
      rw [List.getElem?_eq_none hend, List.getElem?_eq_none (by omega)]
  pending _ hr := .inl hr

/-- **Closing** takes nothing and gives nothing back. -/
theorem same_close (hi : ¬ h.destroyed i) (answers : Answers) : Same h (h.close i answers) := by
  rw [Bus.close]
  cases hs : h.sessions[i]? with
  | none => exact Same.refl h
  | some s =>
    simp only
    have hshut : Same h (h.modify i fun s => { s with isShotdown := true }) :=
      same_modify (fun _ _ => rfl) (fun _ _ => Iff.rfl)
    split
    · exact Same.refl h
    · split
      · refine hshut.request rfl fun j hj => ?_
        cases hj
        exact hi
      · refine hshut.trans (same_stage (fun hgone => hi ?_) (by simp))
        exact (hshut.destroyed i).mp hgone

end Sessions

/-! ## Blocks that are taken and given back -/

section Blocks

variable {h h' : Bus} {a : Ledger Piece} {x : Live} {wr wbuf : Pool} {elem_t heap w_req i : Nat}
  {r : Request} {s : SessionUv}

theorem Tracked.reqs_live (h₀ : Tracked h a) {addr : Nat} (haddr : addr ∈ h.reqs) :
    addr ∈ h.wr_allocer.addrs :=
  (h₀.live (.request addr)).mp (a.held_live ((h₀.held (.request addr)).mpr haddr))

theorem addrs_take {c c' : Pool} {free : List Nat} (hok : Intact c free)
    (htake : c.take elem_t heap = some (x, c')) : c'.addrs = x.addr :: c.addrs := by
  obtain ⟨-, hlive⟩ := Pool.take_ok hok htake
  rw [Pool.addrs, hlive]
  rfl

/-- A request that libuv takes is held by it. -/
theorem Tracked.started (h₀ : Tracked h a) (htake : h.wr_allocer.take elem_t heap = some (x, wr))
    (hr : r.req = some x.addr) (hsession : ∀ i ∈ r.session, ¬ h.destroyed i) :
    Refines a { h with wr_allocer := wr, pending := h.pending ++ [r] } True := by
  obtain ⟨free, hok⟩ := h₀.wr
  have hfresh := Pool.take_fresh hok htake
  have haddrs := addrs_take hok htake
  have hnew : Piece.request x.addr ∉ a.live := fun hin => hfresh ((h₀.live _).mp hin)
  have hreqs : (h.pending ++ [r]).filterMap Request.req = h.reqs ++ [x.addr] := by
    simp [Bus.reqs, hr]
  refine ⟨[.take (.request x.addr)], ⟨hnew, trivial⟩, ?_, by simp [Move.Keeps]⟩
  exact
    { wr := (Pool.take_ok hok htake).1
      wbuf := h₀.wbuf
      packages := h₀.packages
      reqs := by
        rw [Bus.reqs, hreqs]
        refine List.nodup_append'.mpr ⟨h₀.reqs, List.nodup_singleton _, fun addr haddr hx => ?_⟩
        rw [List.mem_singleton.mp hx] at haddr
        exact hfresh (h₀.reqs_live haddr)
      longPkgs := h₀.longPkgs
      owned := h₀.owned
      pending := by
        intro r' hmem
        rcases List.mem_append.mp hmem with hold | hlast
        · exact h₀.pending r' hold
        · rw [List.mem_singleton.mp hlast]
          exact hsession
      live := by
        intro p
        show p ∈ insert _ a.live ↔ _
        rw [Set.mem_insert_iff, h₀.live]
        cases p <;> simp [Bus.live, haddrs]
      held := by
        intro p
        show p ∈ insert _ a.held ↔ _
        rw [Set.mem_insert_iff, h₀.held]
        cases p with
        | request addr => simp [Bus.held, Bus.reqs, hreqs, or_comm]
        | longPkg i => simp [Bus.held, Bus.holds] }

/-- A request that libuv does not take is lost. -/
theorem Tracked.refused (h₀ : Tracked h a) (htake : h.wr_allocer.take elem_t heap = some (x, wr)) :
    Refines a { h with wr_allocer := wr } False := by
  obtain ⟨free, hok⟩ := h₀.wr
  have hfresh := Pool.take_fresh hok htake
  have haddrs := addrs_take hok htake
  have hnew : Piece.request x.addr ∉ a.live := fun hin => hfresh ((h₀.live _).mp hin)
  obtain ⟨hlive, hheld⟩ := Ledger.afterAll_take_forget hnew
  refine ⟨_, Ledger.allowsAll_take_forget hnew, ?_, by simp [Move.Keeps]⟩
  exact
    { wr := (Pool.take_ok hok htake).1
      wbuf := h₀.wbuf
      packages := h₀.packages
      reqs := h₀.reqs
      longPkgs := h₀.longPkgs
      owned := h₀.owned
      pending := h₀.pending
      live := by
        intro p
        rw [hlive, Set.mem_insert_iff, h₀.live]
        cases p <;> simp [Bus.live, haddrs]
      held := by
        intro p
        rw [hheld, h₀.held]
        rfl }

/-- What becomes of a request that is given to libuv. -/
theorem Tracked.start (h₀ : Tracked h a) (htake : h.wr_allocer.take elem_t heap = some (x, wr))
    (hr : r.req = some x.addr) (hsession : ∀ i ∈ r.session, ¬ h.destroyed i) (accepted : Bool) :
    Refines a ({ h with wr_allocer := wr }.start accepted r) (accepted = true) := by
  cases accepted with
  | true => exact (h₀.started htake hr hsession).congr (by simp)
  | false => exact (h₀.refused htake).congr (by simp)

/-- A request is taken out of those libuv has. -/
theorem pending_split {k : Nat} (hk : h.pending[k]? = some r) : ∃ before after,
    h.pending = before ++ r :: after ∧ h.pending.eraseIdx k = before ++ after := by
  obtain ⟨_, hr⟩ := List.getElem?_eq_some_iff.mp hk
  refine ⟨h.pending.take k, h.pending.drop (k + 1), ?_, List.eraseIdx_eq_take_drop_succ ..⟩
  rw [← hr, List.getElem_cons_drop, List.take_append_drop]

/-- The callback of a request without a block. -/
theorem same_done {k : Nat} (hk : h.pending[k]? = some r) (hr : r.req = none) :
    Same h { h with pending := h.pending.eraseIdx k } where
  wr_allocer := rfl
  wbuf_allocer := rfl
  reqs := by
    obtain ⟨before, after, hsplit, hrest⟩ := pending_split hk
    simp only [Bus.reqs]
    rw [hrest, hsplit]
    simp [hr]
  longPkgs := rfl
  holds _ := rfl
  destroyed _ := Iff.rfl
  pending _ hmem := .inl (List.mem_of_mem_eraseIdx hmem)

/-- The callback of a write gives its request back. -/
theorem Tracked.completed (h₀ : Tracked h a) {k : Nat} (hk : h.pending[k]? = some r)
    (hr : r.req = some w_req) (hgive : h.wr_allocer.give w_req = some wr) :
    Refines a { h with wr_allocer := wr, pending := h.pending.eraseIdx k } True := by
  obtain ⟨free, hok⟩ := h₀.wr
  obtain ⟨before, after, hsplit, hrest⟩ := pending_split hk
  have hreqs : h.reqs = before.filterMap Request.req ++ w_req :: after.filterMap Request.req := by
    simp [Bus.reqs, hsplit, hr]
  have hdone : (h.pending.eraseIdx k).filterMap Request.req =
      before.filterMap Request.req ++ after.filterMap Request.req := by
    rw [hrest, List.filterMap_append]
  have hnodup := h₀.reqs
  rw [hreqs, List.nodup_middle, List.nodup_cons, ← hdone] at hnodup
  have hmem : ∀ addr, addr ∈ h.reqs ↔
      addr = w_req ∨ addr ∈ (h.pending.eraseIdx k).filterMap Request.req := by
    intro addr
    rw [hreqs, hdone]
    simp only [List.mem_append, List.mem_cons]
    tauto
  have hheld : Piece.request w_req ∈ a.held := (h₀.held _).mpr ((hmem w_req).mpr (.inl rfl))
  refine ⟨[.give (.request w_req)], ⟨hheld, trivial⟩, ?_, by simp [Move.Keeps]⟩
  exact
    { wr := (Pool.give_ok hok hgive).1
      wbuf := h₀.wbuf
      packages := h₀.packages
      reqs := hnodup.2
      longPkgs := h₀.longPkgs
      owned := h₀.owned
      pending := fun r' hr' => h₀.pending r' (List.mem_of_mem_eraseIdx hr')
      live := by
        intro p
        show p ∈ a.live \ {_} ↔ _
        rw [Set.mem_sdiff, Set.mem_singleton_iff, h₀.live]
        cases p with
        | request addr => simp [Bus.live, Pool.mem_addrs_give hok hgive]
        | longPkg i => simp [Bus.live]
      held := by
        intro p
        show p ∈ a.held \ {_} ↔ _
        rw [Set.mem_sdiff, Set.mem_singleton_iff, h₀.held]
        cases p with
        | request addr =>
          simp only [Bus.held, hmem, Piece.request.injEq]
          constructor
          · rintro ⟨rfl | hin, hne⟩
            · exact absurd rfl hne
            · exact hin
          · intro hin
            refine ⟨.inr hin, ?_⟩
            rintro rfl
            exact hnodup.1 hin
        | longPkg i => simp [Bus.held, Bus.holds] }

/-- The package is back in its pool before `sendData` returns. -/
theorem sendPackage_ok {c : Pool} {pkg : Package} {pkgAt : Nat} (hok : ∃ free, Intact c free)
    (hempty : c.live = []) (hsend : Bus.sendPackage c pkgAt pkg = some wbuf) :
    (∃ free, Intact wbuf free) ∧ wbuf.live = [] := by
  cases pkg with
  | body =>
    cases hsend
    exact ⟨hok, hempty⟩
  | refused =>
    cases hsend
    exact ⟨hok, hempty⟩
  | built bytes =>
    obtain ⟨free, hok⟩ := hok
    obtain ⟨⟨dataBuf, c₁⟩, htake, hrest⟩ := Option.bind_eq_some_iff.mp hsend
    obtain ⟨c₂, hfill, hgive⟩ := Option.bind_eq_some_iff.mp hrest
    obtain ⟨⟨free₁, hok₁⟩, hlive₁⟩ := Pool.take_ok hok htake
    obtain ⟨⟨free₂, hok₂⟩, hlive₂⟩ := Pool.fill_ok hok₁ hfill
    obtain ⟨hok₃, y, hy, -, hlive₃⟩ := Pool.give_ok hok₂ hgive
    rw [hlive₂, hlive₁, hempty, List.mem_singleton] at hy
    refine ⟨hok₃, ?_⟩
    rw [hlive₃, hlive₂, hlive₁, hempty, hy]
    simp

theorem Tracked.packaged (h₀ : Tracked h a) (hok : ∃ free, Intact wbuf free)
    (hempty : wbuf.live = []) : Tracked { h with wbuf_allocer := wbuf } a :=
  { h₀ with
    wbuf := hok
    packages := hempty
    live := fun p => by
      rw [h₀.live]
      cases p <;> rfl
    held := fun p => by
      rw [h₀.held]
      cases p <;> rfl }

/-- **Sending** loses nothing if it is a write that libuv takes. -/
theorem Tracked.sendData {sizes : UvSizes} {session : Option Nat} {peer : Peer} {body : Bytes}
    {answers : Answers} (h₀ : Tracked h a) (hsession : ∀ i ∈ session, ¬ h.destroyed i)
    (hsend : h.sendData sizes session peer body answers = some h') :
    Refines a h' (peer.udpStatus = false ∧ answers.accepted = true) := by
  obtain ⟨⟨w_req, wr⟩, htake, hrest⟩ := Option.bind_eq_some_iff.mp hsend
  simp only at hrest
  cases hudp : peer.udpStatus with
  | true =>
    rw [hudp, if_pos rfl] at hrest
    obtain ⟨⟨second, wr'⟩, htake', rfl⟩ := Option.map_eq_some_iff.mp hrest
    have hfirst := h₀.refused htake
    have hboth := hfirst.trans fun b hb => hb.start htake' (r := .udpSend second.addr) rfl
      (by simp [Request.session]) answers.accepted
    exact hboth.congr (by simp)
  | false =>
    rw [hudp, if_neg Bool.false_ne_true] at hrest
    obtain ⟨wbuf, hpackage, rfl⟩ := Option.map_eq_some_iff.mp hrest
    obtain ⟨hok, hempty⟩ := sendPackage_ok h₀.wbuf h₀.packages hpackage
    have hpackaged := h₀.packaged hok hempty
    exact (hpackaged.start htake (r := .write session w_req.addr) rfl hsession
      answers.accepted).congr (by simp)

theorem sendData_sessions {sizes : UvSizes} {session : Option Nat} {peer : Peer} {body : Bytes}
    {answers : Answers} (hsend : h.sendData sizes session peer body answers = some h') :
    h'.sessions = h.sessions := by
  obtain ⟨⟨w_req, wr⟩, -, hrest⟩ := Option.bind_eq_some_iff.mp hsend
  simp only at hrest
  split at hrest
  · obtain ⟨r, -, rfl⟩ := Option.map_eq_some_iff.mp hrest
    simp only [Bus.start]
    split <;> rfl
  · obtain ⟨r, -, rfl⟩ := Option.map_eq_some_iff.mp hrest
    simp only [Bus.start]
    split <;> rfl

end Blocks

/-! ## Large blocks -/

section LongPkg

variable {h h' : Bus} {a : Ledger Piece} {i : Nat} {s : Conn}

theorem Tracked.longPkg_held (h₀ : Tracked h a) (hs : h.sessions[i]? = some s)
    (hstage : s.stage ≠ .destroyed) : i ∈ h.longPkgs ↔ s.uv.longPkg.isSome = true := by
  have hholds : h.holds i = s.uv.longPkg.isSome := by simp [Bus.holds, hs, Conn.holds, hstage]
  rw [← hholds]
  constructor
  · intro hi
    exact (h₀.owned i hi).resolve_right (not_destroyed hs hstage)
  · intro hi
    exact (h₀.live (.longPkg i)).mp (a.held_live ((h₀.held (.longPkg i)).mpr hi))

theorem sessions_setUv (hs : h.sessions[i]? = some s) (before after : SessionUv) :
    (h.setUv i before after).sessions[i]? = some { s with uv := after } := by
  simp [Bus.setUv, Bus.modify, hs]

theorem destroyed_setUv (before after : SessionUv) (j : Nat) :
    (h.setUv i before after).destroyed j ↔ h.destroyed j := by
  have hsame := destroyed_modify (h := h) (i := i) (j := j) (f := fun s => { s with uv := after })
  simp only [apply_ite Conn.stage, ite_self] at hsame
  exact hsame

theorem holds_setUv (hs : h.sessions[i]? = some s) (hstage : s.stage ≠ .destroyed)
    (before after : SessionUv) (j : Nat) :
    (h.setUv i before after).holds j = if i = j then after.longPkg.isSome else h.holds j := by
  have hmodify := holds_modify (h := h) (i := i) (j := j) (f := fun s => { s with uv := after })
  refine Eq.trans hmodify ?_
  by_cases hij : i = j
  · subst hij
    simp [hs, Conn.holds, hstage]
  · simp only [if_neg hij, Bus.holds]

/-- Reception leaves the session with a large block, or without one. -/
theorem same_setUv (hs : h.sessions[i]? = some s) (hstage : s.stage ≠ .destroyed)
    {after : SessionUv} (hlong : after.longPkg.isSome = s.uv.longPkg.isSome) :
    Same h (h.setUv i s.uv after) where
  wr_allocer := rfl
  wbuf_allocer := rfl
  reqs := rfl
  longPkgs := by
    simp only [Bus.setUv]
    cases hb : s.uv.longPkg <;> cases ha : after.longPkg <;> simp_all
  holds j := by
    rw [holds_setUv hs hstage]
    split
    · rename_i hij
      rw [← hij, Bus.holds, hs, hlong]
      simp [Conn.holds, hstage]
    · rfl
  destroyed := destroyed_setUv s.uv after
  pending _ hr := .inl hr

/-- The large block of one session changes, and nothing else does. -/
theorem Tracked.relong (h₀ : Tracked h a) (hs : h.sessions[i]? = some s)
    (hstage : s.stage ≠ .destroyed) {after : SessionUv} {b : Ledger Piece} {longs : List Nat}
    (hlongs : (h.setUv i s.uv after).longPkgs = longs) (hnodup : longs.Nodup)
    (hmem : ∀ j, j ∈ longs ↔ if i = j then after.longPkg.isSome = true else j ∈ h.longPkgs)
    (hrequests : ∀ addr, (.request addr ∈ b.live ↔ .request addr ∈ a.live) ∧
      (.request addr ∈ b.held ↔ .request addr ∈ a.held))
    (hlive : ∀ j, .longPkg j ∈ b.live ↔ j ∈ longs)
    (hheld : ∀ j, .longPkg j ∈ b.held ↔
      if i = j then after.longPkg.isSome = true else .longPkg j ∈ a.held) :
    Tracked (h.setUv i s.uv after) b where
  wr := h₀.wr
  wbuf := h₀.wbuf
  packages := h₀.packages
  reqs := h₀.reqs
  longPkgs := by
    rw [hlongs]
    exact hnodup
  owned j hj := by
    rw [hlongs, hmem] at hj
    rw [holds_setUv hs hstage, destroyed_setUv]
    by_cases hij : i = j
    · rw [if_pos hij] at hj ⊢
      exact .inl hj
    · rw [if_neg hij] at hj ⊢
      exact h₀.owned j hj
  pending r hr j hj := by
    rw [destroyed_setUv]
    exact h₀.pending r hr j hj
  live p := by
    cases p with
    | request addr => exact (hrequests addr).1.trans (h₀.live _)
    | longPkg j =>
      rw [Bus.live, hlongs]
      exact hlive j
  held p := by
    cases p with
    | request addr => exact (hrequests addr).2.trans (h₀.held _)
    | longPkg j =>
      rw [hheld, Bus.held, holds_setUv hs hstage]
      by_cases hij : i = j
      · rw [if_pos hij, if_pos hij]
      · rw [if_neg hij, if_neg hij]
        exact h₀.held (.longPkg j)

/-- A large block is malloc'ed for a session. -/
theorem Tracked.malloc (h₀ : Tracked h a) (hs : h.sessions[i]? = some s)
    (hstage : s.stage ≠ .destroyed) {after : SessionUv} (hbefore : s.uv.longPkg = none)
    (hafter : after.longPkg.isSome = true) : Refines a (h.setUv i s.uv after) True := by
  have hlongs : (h.setUv i s.uv after).longPkgs = i :: h.longPkgs := by
    obtain ⟨block, hblock⟩ := Option.isSome_iff_exists.mp hafter
    simp only [Bus.setUv, hbefore, hblock]
  have hnew : i ∉ h.longPkgs := by
    rw [h₀.longPkg_held hs hstage, hbefore]
    simp
  refine ⟨[.take (.longPkg i)], ⟨fun hin => hnew ((h₀.live _).mp hin), trivial⟩, ?_,
    by simp [Move.Keeps]⟩
  refine h₀.relong hs hstage hlongs (List.nodup_cons.mpr ⟨hnew, h₀.longPkgs⟩) (fun j => ?_)
    (fun addr => ?_) (fun j => ?_) (fun j => ?_)
  · by_cases hij : i = j
    · simp [hij, hafter]
    · simp [hij, Ne.symm hij]
  · show (_ ∈ insert _ a.live ↔ _) ∧ (_ ∈ insert _ a.held ↔ _)
    simp
  · show _ ∈ insert _ a.live ↔ _
    rw [Set.mem_insert_iff, h₀.live, Bus.live, Piece.longPkg.injEq, List.mem_cons]
  · show _ ∈ insert _ a.held ↔ _
    rw [Set.mem_insert_iff, Piece.longPkg.injEq]
    by_cases hij : i = j
    · simp [hij, hafter]
    · simp [hij, Ne.symm hij]

/-- The large block of a session is freed. -/
theorem Tracked.free (h₀ : Tracked h a) (hs : h.sessions[i]? = some s)
    (hstage : s.stage ≠ .destroyed) {after : SessionUv} (hbefore : s.uv.longPkg.isSome = true)
    (hafter : after.longPkg = none) : Refines a (h.setUv i s.uv after) True := by
  have hlongs : (h.setUv i s.uv after).longPkgs = h.longPkgs.erase i := by
    obtain ⟨block, hblock⟩ := Option.isSome_iff_exists.mp hbefore
    simp only [Bus.setUv, hblock, hafter]
  have hheld : Piece.longPkg i ∈ a.held := by
    rw [h₀.held, Bus.held, Bus.holds, hs]
    simp [Conn.holds, hstage, hbefore]
  refine ⟨[.give (.longPkg i)], ⟨hheld, trivial⟩, ?_, by simp [Move.Keeps]⟩
  refine h₀.relong hs hstage hlongs (h₀.longPkgs.erase i) (fun j => ?_) (fun addr => ?_)
    (fun j => ?_) (fun j => ?_)
  · rw [h₀.longPkgs.mem_erase_iff]
    by_cases hij : i = j
    · simp [hij, hafter]
    · simp [hij, Ne.symm hij]
  · show (_ ∈ a.live \ {_} ↔ _) ∧ (_ ∈ a.held \ {_} ↔ _)
    simp
  · show _ ∈ a.live \ {_} ↔ _
    rw [Set.mem_sdiff, Set.mem_singleton_iff, h₀.live, Bus.live, Piece.longPkg.injEq,
      h₀.longPkgs.mem_erase_iff, and_comm]
  · show _ ∈ a.held \ {_} ↔ _
    rw [Set.mem_sdiff, Set.mem_singleton_iff, Piece.longPkg.injEq]
    by_cases hij : i = j
    · simp [hij, hafter]
    · simp [hij, Ne.symm hij]

/-- **Reception** loses no large block. -/
theorem Tracked.setUv (h₀ : Tracked h a) (hs : h.sessions[i]? = some s)
    (hstage : s.stage ≠ .destroyed) (after : SessionUv) :
    Refines a (h.setUv i s.uv after) True := by
  cases hbefore : s.uv.longPkg with
  | none =>
    cases hafter : after.longPkg with
    | none => exact .refl (h₀.same (same_setUv hs hstage (by rw [hbefore, hafter])))
    | some block => exact h₀.malloc hs hstage hbefore (by rw [hafter]; rfl)
  | some block =>
    cases hafter : after.longPkg with
    | none => exact h₀.free hs hstage (by rw [hbefore]; rfl) hafter
    | some block' =>
      exact .refl (h₀.same (same_setUv hs hstage (by rw [hbefore, hafter]; rfl)))

theorem holds_destroy (hs : h.sessions[i]? = some s) (j : Nat) :
    (h.modify i fun s => { s with stage := .destroyed }).holds j =
      if i = j then false else h.holds j := by
  rw [holds_modify]
  by_cases hij : i = j
  · subst hij
    simp [hs, Conn.holds]
  · simp only [if_neg hij, Bus.holds]

theorem destroyed_destroy (hs : h.sessions[i]? = some s) (j : Nat) :
    (h.modify i fun s => { s with stage := .destroyed }).destroyed j ↔
      i = j ∨ h.destroyed j := by
  rw [destroyed_modify, Bus.destroyed]
  by_cases hij : i = j
  · subst hij
    simp [hs]
  · simp [hij]

/-- A session that is destroyed holds nothing, and its large block stays where it is. -/
theorem Tracked.abandon (h₀ : Tracked h a) (hs : h.sessions[i]? = some s)
    (hdone : ∀ r ∈ h.pending, r.session ≠ some i) {b : Ledger Piece} (hlive : b.live = a.live)
    (hheld : ∀ p, p ∈ b.held ↔ p ∈ a.held ∧ p ≠ .longPkg i) :
    Tracked (h.modify i fun s => { s with stage := .destroyed }) b where
  wr := h₀.wr
  wbuf := h₀.wbuf
  packages := h₀.packages
  reqs := h₀.reqs
  longPkgs := h₀.longPkgs
  owned j hj := by
    rw [holds_destroy hs, destroyed_destroy hs]
    by_cases hij : i = j
    · exact .inr (.inl hij)
    · rw [if_neg hij]
      exact (h₀.owned j hj).imp_right .inr
  pending r hr j hj hdestroyed := by
    rcases (destroyed_destroy hs j).mp hdestroyed with rfl | hbefore
    · exact hdone r hr hj
    · exact h₀.pending r hr j hj hbefore
  live p := by
    rw [hlive, h₀.live]
    cases p <;> rfl
  held p := by
    rw [hheld, h₀.held]
    cases p with
    | request addr => simp [Bus.held, Bus.modify, Bus.reqs]
    | longPkg j =>
      rw [Bus.held, Bus.held, holds_destroy hs, ne_eq, Piece.longPkg.injEq]
      by_cases hij : i = j
      · simp [hij]
      · simp [hij, Ne.symm hij]

/-- **Destroying** a session loses the large block it has. -/
theorem Tracked.destroy (h₀ : Tracked h a) (hs : h.sessions[i]? = some s)
    (hdone : ∀ r ∈ h.pending, r.session ≠ some i) :
    Refines a (h.modify i fun s => { s with stage := .destroyed }) (h.holds i = false) := by
  cases hholding : h.holds i with
  | true =>
    have hheld : Piece.longPkg i ∈ a.held := (h₀.held _).mpr hholding
    refine ⟨[.forget (.longPkg i)], ⟨hheld, trivial⟩, ?_, by simp [Move.Keeps]⟩
    exact h₀.abandon hs hdone rfl fun p => Iff.rfl
  | false =>
    refine (Refines.refl (h₀.abandon hs hdone rfl fun p => ?_)).congr (by simp)
    rw [iff_self_and]
    rintro hp rfl
    have hheld : h.holds i = true := (h₀.held _).mp hp
    rw [hholding] at hheld
    cases hheld

end LongPkg

/-! ## Steps and whole runs -/

section Runs

variable {lib : HttpLib} {sizes : UvSizes} {h h' : Bus} {a : Ledger Piece} {i : Nat}
  {answers : Answers} {c c' : Bus × List Call} {e : Event} {events : List Event}

/-- The calls of one read lose a reply that libuv does not take. -/
theorem Tracked.serve {peer : Peer} {calls : List Call} (hpeer : peer.udpStatus = false)
    (h₀ : Tracked h a) (hi : ¬ h.destroyed i)
    (hserve : h.serve sizes i peer answers calls = some h') :
    Refines a h' (calls.any Call.isReply = true → answers.accepted = true) := by
  induction calls generalizing h a with
  | nil =>
    cases hserve
    exact (Refines.refl h₀).congr (by simp)
  | cons call calls ih =>
    cases call with
    | close =>
      rw [Bus.serve] at hserve
      have hsame := same_close hi answers
      have hrest := ih (h₀.same hsame) (fun hgone => hi ((hsame.destroyed i).mp hgone)) hserve
      exact hrest.congr (by simp [Call.isReply])
    | recCommand cmd len =>
      rw [Bus.serve] at hserve
      exact (ih h₀ hi hserve).congr (by simp [Call.isReply])
    | sendData reply =>
      rw [Bus.serve] at hserve
      obtain ⟨h₁, hsend, hrest⟩ := Option.bind_eq_some_iff.mp hserve
      have hsessions := sendData_sessions hsend
      have hfirst := h₀.sendData (fun j hj => by cases hj; exact hi) hsend
      have hi₁ : ¬ h₁.destroyed i := by
        rw [Bus.destroyed, hsessions]
        exact hi
      have hboth := hfirst.trans fun b hb => ih hb hi₁ hrest
      refine hboth.congr ?_
      simp only [hpeer, Call.isReply, List.any_cons, Bool.true_or]
      tauto

theorem Tracked.read {data : Option Bytes} {out : List Call} (h₀ : Tracked h a)
    (hread : h.read lib sizes i data answers = some (h', out)) :
    Refines a h' ((h.sessions[i]?).any (fun s => replies lib s.uv data) = true →
      answers.accepted = true) := by
  rw [Bus.read] at hread
  cases hs : h.sessions[i]? with
  | none =>
    rw [hs] at hread
    cases hread
  | some s =>
    rw [hs] at hread
    simp only at hread
    split at hread
    · rename_i hstage
      have hstage' : s.stage ≠ .destroyed := by
        rw [hstage]
        decide
      obtain ⟨⟨offering, uv, calls⟩, honce, hrest⟩ := Option.bind_eq_some_iff.mp hread
      obtain ⟨h₁, hserve, heq⟩ := Option.map_eq_some_iff.mp hrest
      cases heq
      have hreplies : replies lib s.uv data = calls.any Call.isReply := by
        simp [replies, honce]
      have hi : ¬ ((h.setUv i s.uv offering).setUv i offering uv).destroyed i := by
        rw [destroyed_setUv, destroyed_setUv]
        exact not_destroyed hs hstage'
      -- a buffer is offered, the parser runs, and its calls are served
      have hoffer := h₀.setUv hs hstage' offering
      have hparse := hoffer.trans fun b hb =>
        hb.setUv (sessions_setUv hs s.uv offering) hstage' uv
      have hall := hparse.trans fun b hb => hb.serve rfl hi hserve
      exact hall.congr (by simp [hreplies])
    · cases hread

/-- **A callback** loses nothing. -/
theorem Tracked.callback {r : Request} {k : Nat} {ok : Bool} (h₀ : Tracked h a)
    (hk : h.pending[k]? = some r)
    (hcall : { h with pending := h.pending.eraseIdx k }.callback ok answers r = some h') :
    Refines a h' True := by
  have hsessions : ∀ i ∈ r.session, ¬ h.destroyed i := h₀.pending r (List.mem_of_getElem? hk)
  cases r with
  | write session w_req =>
    obtain ⟨wr, hgive, rfl⟩ := Option.map_eq_some_iff.mp hcall
    exact h₀.completed hk rfl hgive
  | udpSend w_req =>
    obtain ⟨wr, hgive, rfl⟩ := Option.map_eq_some_iff.mp hcall
    exact h₀.completed hk rfl hgive
  | shutdown i =>
    cases hcall
    exact .refl (h₀.same ((same_done hk rfl).trans (same_stage (hsessions i rfl) (by decide))))
  | connect i =>
    rw [Bus.callback] at hcall
    split at hcall
    · cases hcall
      refine .refl (h₀.same ((same_done hk rfl).trans (same_modify ?_ ?_)))
      · intro s hs
        split <;> simp_all [Conn.holds]
      · intro s hs
        split <;> simp_all
    · cases hcall
      have hi : ¬ { h with pending := h.pending.eraseIdx k }.destroyed i := hsessions i rfl
      exact .refl (h₀.same ((same_done hk rfl).trans (same_close hi answers)))

/-- Libuv writes into a request. -/
theorem Tracked.fill {x : Live} {off : Nat} {data : Bytes} {wr : Pool} (h₀ : Tracked h a)
    (hfill : h.wr_allocer.fill x off data = some wr) :
    Tracked { h with wr_allocer := wr } a := by
  obtain ⟨free, hok⟩ := h₀.wr
  obtain ⟨hok', hlive⟩ := Pool.fill_ok hok hfill
  exact
    { h₀ with
      wr := hok'
      live := fun p => by
        rw [h₀.live]
        cases p <;> simp [Bus.live, Pool.addrs, hlive]
      held := fun p => by
        rw [h₀.held]
        cases p <;> rfl }

/-- **Every event** loses nothing exactly if it meets the condition. -/
theorem Tracked.step {out : List Call} (h₀ : Tracked h a)
    (hstep : h.step lib sizes e = some (h', out)) (before : List Call) :
    Refines a h' (Kept lib (h, before) e) := by
  cases e with
  | accept socketType =>
    cases hstep
    exact .refl (h₀.same (same_accept rfl (by simp [Conn.create])))
  | connect answers =>
    cases hstep
    have hsame : Same h
        { h with sessions := h.sessions ++ [Conn.create .TCP_SOCKET .connecting] } :=
      same_accept rfl (by simp [Conn.create])
    simp only [Bus.start]
    split
    · refine .refl (h₀.same (hsame.request rfl fun j hj => ?_))
      cases hj
      rintro ⟨s, hs, -⟩
      simp at hs
    · exact .refl (h₀.same hsame)
  | read i data answers => exact h₀.read hstep
  | send i body answers =>
    simp only [Bus.step] at hstep
    split at hstep
    · cases hstep
    · rename_i s hs
      split at hstep
      · rename_i hstage
        obtain ⟨h₁, hsend, heq⟩ := Option.map_eq_some_iff.mp hstep
        cases heq
        refine (h₀.sendData ?_ hsend).congr (by simp [Kept, Conn.peer])
        intro j hj
        cases hj
        exact not_destroyed hs hstage
      · cases hstep
  | sendUdp body answers =>
    obtain ⟨h₁, hsend, heq⟩ := Option.map_eq_some_iff.mp hstep
    cases heq
    exact (h₀.sendData (by simp) hsend).congr (by simp [Kept, udpServer])
  | close i answers =>
    simp only [Bus.step] at hstep
    split at hstep
    · cases hstep
    · rename_i s hs
      split at hstep
      · rename_i hstage
        cases hstep
        exact .refl (h₀.same (same_close (not_destroyed hs hstage) answers))
      · cases hstep
  | complete k ok answers =>
    simp only [Bus.step] at hstep
    split at hstep
    · cases hstep
    · rename_i r hk
      obtain ⟨h₁, hcall, heq⟩ := Option.map_eq_some_iff.mp hstep
      cases heq
      exact h₀.callback hk hcall
  | closeClient i =>
    simp only [Bus.step] at hstep
    split at hstep
    · cases hstep
    · rename_i s hs
      split at hstep
      · rename_i hcond
        cases hstep
        exact h₀.destroy hs (by simpa using hcond.2)
      · cases hstep
  | fill x off data =>
    simp only [Bus.step] at hstep
    split at hstep
    · obtain ⟨wr, hfill, heq⟩ := Option.map_eq_some_iff.mp hstep
      cases heq
      exact .refl (h₀.fill hfill)
    · cases hstep

/-- The process starts with two new pools. -/
theorem tracked_boot {wrMem wbufMem : Nat} (hwr : Arena wrMem CACHE_RECV_SIZE sizes.uv_write_t)
    (hwbuf : Arena wbufMem CACHE_SEND_SIZE CACHE_CMD_SIZE) (mem : Mem) :
    Tracked (Bus.boot sizes wrMem wbufMem mem) ⟨∅, ∅, Set.Subset.rfl⟩ where
  wr := ⟨_, Intact.start hwr mem⟩
  wbuf := ⟨_, Intact.start hwbuf mem⟩
  packages := rfl
  reqs := List.nodup_nil
  longPkgs := List.nodup_nil
  owned := by simp [Bus.boot]
  pending := by simp [Bus.boot]
  live p := by cases p <;> simp [Bus.live, Bus.boot, Pool.addrs, Pool.start]
  held p := by cases p <;> simp [Bus.held, Bus.boot, Bus.reqs, Bus.holds]

/-- In a state without requests everything is back, but for the large blocks
of the sessions there are, exactly if everything taken is held. -/
theorem Tracked.balanced (h₀ : Tracked h a) (hquiet : h.pending = []) :
    Balanced h ↔ ∀ p, h.live p → h.held p := by
  have hreqs : h.reqs = [] := by simp [Bus.reqs, hquiet]
  constructor
  · rintro ⟨hwr, -, hlongs⟩ p hp
    cases p with
    | request addr =>
      rw [Bus.live, Pool.addrs, hwr] at hp
      simp at hp
    | longPkg i =>
      have hcount := hlongs i
      show h.holds i = true
      by_contra hholds
      rw [if_neg hholds, List.count_eq_zero] at hcount
      exact hcount hp
  · intro hall
    refine ⟨?_, h₀.packages, fun i => ?_⟩
    · rw [List.eq_nil_iff_forall_not_mem]
      intro x hx
      have hheld : x.addr ∈ h.reqs := hall (.request x.addr) (List.mem_map_of_mem hx)
      rw [hreqs] at hheld
      simp at hheld
    · split
      · rename_i hholds
        have hin : i ∈ h.longPkgs := (h₀.live (.longPkg i)).mp
          (a.held_live ((h₀.held (.longPkg i)).mpr hholds))
        exact List.count_eq_one_of_mem h₀.longPkgs hin
      · rename_i hholds
        exact List.count_eq_zero.mpr fun hin => hholds (hall (.longPkg i) hin)

/-- What is lost in a run is lost by the events that do not meet the condition. -/
theorem run_noLeak (h₀ : Tracked c.1 a) (hfull : ∀ p, c.1.live p → c.1.held p)
    (hrun : run (Bus.step lib sizes) c events = some c') :
    (∃ b, Tracked c'.1 b) ∧
      ((∀ p, c'.1.live p → c'.1.held p) ↔ Along (Bus.step lib sizes) (Kept lib) c events) := by
  have hstep : ∀ (c : Bus × List Call) e c', (∃ b, Tracked c.1 b) →
      record (Bus.step lib sizes) c e = some c' → (∃ b, Tracked c'.1 b) ∧
        ((∀ p, c'.1.live p → c'.1.held p) ↔ (∀ p, c.1.live p → c.1.held p) ∧ Kept lib c e) := by
    rintro c e c' ⟨b, hb⟩ hrecord
    obtain ⟨h₁, out, hone, rfl⟩ := record_eq_some.mp hrecord
    have hrefines := hb.step hone c.2
    refine ⟨?_, Refines.noLeak hb hrefines⟩
    obtain ⟨moves, -, htracked, -⟩ := hrefines
    exact ⟨_, htracked⟩
  refine ⟨?_, ?_⟩
  · exact run_invariant (P := fun _ _ => True) (I := fun c => ∃ b, Tracked c.1 b)
      (fun c e c' hc _ hrecord => (hstep c e c' hc hrecord).1) ⟨a, h₀⟩ (along_true _ _) hrun
  · rw [run_iff_along (I := fun c => ∃ b, Tracked c.1 b)
      (R := fun c => ∀ p, c.1.live p → c.1.held p) hstep ⟨a, h₀⟩ hrun]
    exact and_iff_right hfull

end Runs

/-- **Balance.** In every state of a run in which libuv has called back for
all requests, what is in use is what the sessions still have, exactly if no
datagram has been answered, no write refused and no session destroyed with a
large block before. -/
theorem resources_balanced (lib : HttpLib) (sizes : UvSizes) (mem : Mem) {wrMem wbufMem : Nat}
    (hwr : Arena wrMem CACHE_RECV_SIZE sizes.uv_write_t)
    (hwbuf : Arena wbufMem CACHE_SEND_SIZE CACHE_CMD_SIZE) {events : List Event} {h : Bus}
    {out : List Call}
    (hrun : run (Bus.step lib sizes) (Bus.boot sizes wrMem wbufMem mem, []) events = some (h, out))
    (hquiet : h.pending = []) :
    Balanced h ↔
      Along (Bus.step lib sizes) (Kept lib) (Bus.boot sizes wrMem wbufMem mem, []) events := by
  have hboot : Tracked (Bus.boot sizes wrMem wbufMem mem) _ := tracked_boot hwr hwbuf mem
  have hempty : ∀ p, (Bus.boot sizes wrMem wbufMem mem).live p →
      (Bus.boot sizes wrMem wbufMem mem).held p :=
    hboot.noLeak.mp Set.Subset.rfl
  obtain ⟨⟨b, htracked⟩, hiff⟩ := run_noLeak hboot hempty hrun
  rw [htracked.balanced hquiet, hiff]

/-- A program that never sees a handshake, and everything libuv is asked succeeds. -/
def plainLib : HttpLib := ⟨fun _ => [], id, id⟩

def plainSizes : UvSizes := ⟨192, 320⟩

def plainBoot : Bus := Bus.boot plainSizes 65536 2097152 fun _ => 0

def granted : Answers := ⟨true, true, 0, 16, 0⟩

/-- The first 4096 bytes of a frame of 5000. -/
def halfFrame : Bytes := [0x88, 0x13] ++ List.replicate 4094 0

/-- A client is sent one byte and gets through more than half of a large frame. -/
def halfway : List Event :=
  [.accept .TCP_SOCKET, .send 0 [7] granted, .read 0 (some halfFrame) granted,
    .read 0 (some [1]) granted, .complete 0 true granted]

theorem resources_balanced_half : ∃ h out,
    run (Bus.step plainLib plainSizes) (plainBoot, []) halfway = some (h, out) ∧
      h.pending = [] ∧ h.longPkgs = [0] ∧ Balanced h := by
  obtain ⟨hobs, halong⟩ : (run (Bus.step plainLib plainSizes) (plainBoot, []) halfway).map
      (fun r => (r.1.pending.length, r.1.longPkgs)) = some (0, [0]) ∧
      Along (Bus.step plainLib plainSizes) (Kept plainLib) (plainBoot, []) halfway := by
    decide +kernel
  obtain ⟨⟨h, out⟩, hrun, heq⟩ := Option.map_eq_some_iff.mp hobs
  rw [Prod.mk.injEq, List.length_eq_zero_iff] at heq
  have hwr : Arena 65536 CACHE_RECV_SIZE plainSizes.uv_write_t :=
    ⟨by decide, by decide, by decide⟩
  have hwbuf : Arena 2097152 CACHE_SEND_SIZE CACHE_CMD_SIZE := ⟨by decide, by decide, by decide⟩
  exact ⟨h, out, hrun, heq.1, heq.2,
    (resources_balanced plainLib plainSizes _ hwr hwbuf hrun heq.1).mpr halong⟩

/-- A datagram is answered: the first of the two requests is never freed. -/
theorem resources_balanced_datagram :
    ¬ ∀ (lib : HttpLib) (sizes : UvSizes) (mem : Mem) (wrMem wbufMem : Nat) (events : List Event)
      (h : Bus) (out : List Call), Arena wrMem CACHE_RECV_SIZE sizes.uv_write_t →
      Arena wbufMem CACHE_SEND_SIZE CACHE_CMD_SIZE →
      run (Bus.step lib sizes) (Bus.boot sizes wrMem wbufMem mem, []) events = some (h, out) →
      h.pending = [] → Balanced h := by
  intro hall
  have hobs : (run (Bus.step plainLib plainSizes) (plainBoot, [])
      [.sendUdp [7] granted, .complete 0 true granted]).map
      (fun r => (r.1.pending.length, r.1.wr_allocer.live.length)) = some (0, 1) := by
    decide +kernel
  obtain ⟨⟨h, out⟩, hrun, heq⟩ := Option.map_eq_some_iff.mp hobs
  rw [Prod.mk.injEq, List.length_eq_zero_iff] at heq
  have hbalanced := hall plainLib plainSizes _ 65536 2097152 _ h out
    ⟨by decide, by decide, by decide⟩ ⟨by decide, by decide, by decide⟩ hrun heq.1
  have hone := heq.2
  rw [hbalanced.wr_allocer] at hone
  cases hone

end LibuvServer.Netbus.Resources
