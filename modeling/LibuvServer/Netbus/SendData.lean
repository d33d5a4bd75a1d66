import LibuvServer.Lib.Runs
import LibuvServer.Netbus.SessionUv
import LibuvServer.Netbus.WebProtocol
import LibuvServer.Utils.Cache
import Mathlib.Tactic.Common

/-!
# Sending

`Session_uv::sendData` and `sendMessage` over the memory they share: the pool
of package blocks, the blocks of `malloc`, and the writes libuv has been
given and not completed. Libuv may read any part of such a write at any
time. `sendData` is two steps, up to and including `uv_write` and the
`freePackageData` after it; only libuv acts between them. `sendMessage` of a
command is `malloc`, `store`, the two steps and `free`; `sendMessage` of a
raw command is the two steps on the received bytes.
-/

namespace LibuvServer.Netbus

open LibuvServer.Lib LibuvServer.Utils

/-- The size of the pool of package blocks and of each block. -/
def CACHE_SEND_SIZE : Nat := 1024

def CACHE_CMD_SIZE : Nat := 1024

/-! ## What a call builds -/

/-- What `sendData` reads of its session. -/
structure Peer where
  udpStatus : Bool
  socketType : SocketType
  wsShake : Bool

/-- What is given to libuv: the caller's body as it is, a package built from
it, or nothing when the body cannot be framed. -/
inductive Package where
  | body
  | built (bytes : Bytes)
  | refused

def Peer.package (s : Peer) (body : Bytes) : Package :=
  if s.udpStatus then .body
  else
    match s.socketType with
    | .WEB_SOCKET =>
      if s.wsShake then
        match WebProtocol.sendPackageData body with
        | some webPkg => .built webPkg
        | none => .refused
      else .body
    | .TCP_SOCKET => .built (TcpProtocol.parserRecvData body)

/-! ## The process -/

/-- A write libuv has not completed: where its bytes are, which bytes the
call built, and whether the program still keeps them there. -/
structure PendingWrite where
  buf : Block
  frame : Bytes
  kept : Bool

/-- The memory of the process as far as sending goes. -/
structure Host where
  mem : Mem
  wbuf_allocer : CacheMan
  /-- The live objects outside the pool's arena: what `malloc` gave, the
  receive buffers, the stack. -/
  heap : List Block
  pending : List PendingWrite
  /-- The package a `sendData` that has called `uv_write` is about to free. -/
  unfreed : Option Block

/-- What happens next. Where `malloc` puts a block is the allocator's choice,
and what libuv reads of a write, and when, is libuv's. -/
inductive Event where
  | malloc (block : Block)
  | store (block : Block) (off : Nat) (data : Bytes)
  | free (block : Block)
  /-- A write of the rest of the process outside the arena and the live blocks. -/
  | other (addr : Nat) (data : Bytes)
  | sendData (s : Peer) (body : Block) (fresh : Nat)
  | freePackageData
  | transmit (i off n : Nat)
  | complete (i : Nat)

/-- Bytes libuv transmits for a write, and the same part of the frame the
call built. -/
structure Sent where
  frame : Bytes
  bytes : Bytes
  deriving DecidableEq

namespace Host

/-- `malloc` returns blocks apart from everything in use. -/
def Fresh (h : Host) (b : Block) : Prop :=
  0 < b.addr ∧ b.Apart h.wbuf_allocer.arena ∧ ∀ c ∈ h.heap, b.Apart c

instance (h : Host) (b : Block) : Decidable (h.Fresh b) :=
  inferInstanceAs (Decidable (_ ∧ _ ∧ _))

/-- The owner of a range has changed it or given it up. -/
def spoil (h : Host) (b : Block) : List PendingWrite :=
  h.pending.map fun w => if w.buf.Apart b then w else { w with kept := false }

/-- `uv_write` or `uv_udp_send` of `frame`, which lies at `buf`. -/
def uvWrite (h : Host) (buf : Block) (frame : Bytes) : Host :=
  { h with pending := h.pending ++ [⟨buf, frame, true⟩] }

/-- `Session_uv::sendData` up to and including `uv_write`. -/
def sendData (h : Host) (s : Peer) (body : Block) (fresh : Nat) : Option Host :=
  let bytes := h.mem.read body.addr body.size
  match s.package bytes with
  | .body => some (h.uvWrite body bytes)
  -- `NULL` is written, with no bytes, and freed like a package
  | .refused => some { h.uvWrite ⟨0, 0⟩ [] with unfreed := some ⟨0, 0⟩ }
  | .built pkg =>
    match cacheAllocer h.mem h.wbuf_allocer pkg.length with
    | some (dataBuf, wbuf_allocer) =>
      some { h.uvWrite ⟨dataBuf, pkg.length⟩ pkg with
        mem := h.mem.write dataBuf pkg
        wbuf_allocer
        unfreed := some ⟨dataBuf, pkg.length⟩ }
    -- the pool is empty, or the package too long for its blocks
    | none =>
      if h.Fresh ⟨fresh, pkg.length⟩ then
        some { h.uvWrite ⟨fresh, pkg.length⟩ pkg with
          mem := h.mem.write fresh pkg
          heap := ⟨fresh, pkg.length⟩ :: h.heap
          unfreed := some ⟨fresh, pkg.length⟩ }
      else none

/-- `freePackageData`: into the pool, or back to `malloc`. -/
def freePackageData (h : Host) (pkg : Block) : Host :=
  match cacheFree h.mem h.wbuf_allocer pkg.addr with
  | some (mem, wbuf_allocer) =>
    { h with
      mem
      wbuf_allocer
      pending := h.spoil ⟨pkg.addr, h.wbuf_allocer.elem_size⟩
      unfreed := none }
  | none => { h with heap := h.heap.erase pkg, pending := h.spoil pkg, unfreed := none }

/-- One event, if it can happen now, and what is transmitted. -/
def step (h : Host) : Event → Option (Host × List Sent)
  | .malloc block =>
    if h.unfreed = none ∧ h.Fresh block then
      some ({ h with heap := block :: h.heap }, [])
    else none
  | .store block off data =>
    if h.unfreed = none ∧ block ∈ h.heap ∧ off + data.length ≤ block.size then
      some ({ h with
        mem := h.mem.write (block.addr + off) data
        pending := h.spoil ⟨block.addr + off, data.length⟩ }, [])
    else none
  | .free block =>
    if h.unfreed = none ∧ block ∈ h.heap then
      some ({ h with heap := h.heap.erase block, pending := h.spoil block }, [])
    else none
  | .other addr data =>
    if h.Fresh ⟨addr, data.length⟩ then
      some ({ h with mem := h.mem.write addr data }, [])
    else none
  | .sendData s body fresh =>
    if h.unfreed = none ∧ ∃ b ∈ h.heap, b.Contains body then
      (h.sendData s body fresh).map fun h' => (h', [])
    else none
  | .freePackageData => h.unfreed.map fun pkg => (h.freePackageData pkg, [])
  | .transmit i off n =>
    match h.pending[i]? with
    | none => none
    | some w =>
      if off + n ≤ w.buf.size then
        some (h, [⟨(w.frame.drop off).take n, h.mem.read (w.buf.addr + off) n⟩])
      else none
  | .complete i => some ({ h with pending := h.pending.eraseIdx i }, [])

/-- A sequence of events and everything transmitted during it. -/
def run (h : Host) (events : List Event) : Option (Host × List Sent) :=
  Lib.run step (h, []) events

/-- `initSessionAllocer`, with the arena of the packages at `base`. -/
def boot (base : Nat) : Host :=
  let created := cacheCreator base (fun _ => 0) CACHE_SEND_SIZE CACHE_CMD_SIZE
  { mem := created.1, wbuf_allocer := created.2, heap := [], pending := [], unfreed := none }

/-- Libuv reads the bytes of a write while they are still kept for it. -/
def InTime (h : Host) : Event → Prop
  | .transmit i _ _ => ∀ w ∈ h.pending[i]?, w.kept = true
  | _ => True

instance (h : Host) (e : Event) : Decidable (h.InTime e) :=
  match e with
  | .transmit _ _ _ => inferInstanceAs (Decidable (∀ _ ∈ _, _))
  | .malloc _ | .store _ _ _ | .free _ | .other _ _ | .sendData _ _ _ | .freePackageData
  | .complete _ => .isTrue trivial

/-- All steps of a run are in time. -/
def Timely (h : Host) (events : List Event) : Prop :=
  Along step (fun c e => c.1.InTime e) (h, []) events

instance (h : Host) (events : List Event) : Decidable (h.Timely events) :=
  inferInstanceAs (Decidable (Along _ _ _ _))

end Host

end LibuvServer.Netbus
