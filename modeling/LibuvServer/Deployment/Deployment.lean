import LibuvServer.Auth.LateReplies
import LibuvServer.Gateway.Gateway
import LibuvServer.Netbus.CommandCodec
import LibuvServer.Netbus.TcpReassembly
import Mathlib.Tactic.Common

/-!
# The gateway and the auth service together

The processes of `startGateway.bat` and `startAuth.bat` with what is under way
between them. The process of `startSystem.bat` is there to be connected to:
the table of its handlers is empty, and it never says anything. A link keeps
its commands in order until it breaks, and what is on it then is gone. A
command that is too long for the size `sendData` gives it puts the link out of
step, and anything may come out of it. The auth service takes the block of a
session again, and answers go to whoever has the block. The gateway's sessions
are numbered, and a call of it for a session that is gone is not a step: its
block may be another session's.
-/

namespace LibuvServer.Deployment

open LibuvServer.Lib LibuvServer.Netbus LibuvServer.Mylua
open LibuvServer.Gateway (SessId)
open LibuvServer.Auth (GuestLoginRes LinkStage LuaMsg QueryRes Reply)

/-! ## What the processes share -/

/-- `CommandName.lua`. -/
def commandName (commandType : Nat) : String :=
  ["", "GuestLoginReq", "GuestLoginRes", "LoginReq", "LoginRes", "GuestInfo", "GuestUpgradeReq",
    "GuestUpgradeRes"].getD commandType ""

/-- What the processes take from Lua and from protobuf: how the auth service
reads a request, with a message as the table it is pushed as, and how an
answer is written there and read at the gateway. -/
structure Libraries (Number : Type) where
  lua : LuaLib Number
  request : ProtoLib LuaTable
  written : ProtoWriter GuestLoginRes
  answer : ProtoLib LuaBody

namespace Libraries

variable {Number : Type} (lib : Libraries Number)

/-- `protocolManager` in the auth service. -/
def auth : ProtocolManager LuaTable := ⟨.PROTOCOL_BUF, commandName, lib.request⟩

/-- `protocolManager` in the gateway. -/
def gateway : ProtocolManager LuaBody := ⟨.PROTOCOL_BUF, commandName, lib.answer⟩

end Libraries

/-! ## The auth service and its commands -/

/-- The service of `auth.lua`. `recvServiceCmd` returns `true` whatever the
handler does. -/
def atService : Service SessId LuaTable where
  using_raw := false
  recvServiceCmd _ _ := true
  recvServiceRawHead _ _ := true

def atServices : ServiceSet SessId LuaTable :=
  ServiceManager.registered [((Gateway.Stype.Auth : Int), atService)]

/-- The table `recvServiceCmd` gives to Lua. A body is a message here. -/
def toLuaMsg (msg : CommandMessage LuaTable) : LuaMsg where
  serverType := msg.serverType
  commandType := msg.commandType
  tags := msg.tags
  body := msg.body.bind fun
    | .message t => some t
    | .json _ => none

/-- The answer as `Session::sendMessage` gets it. -/
def Reply.command (reply : Reply) : CommandMessage GuestLoginRes where
  serverType := reply.serverType
  commandType := reply.commandType
  tags := reply.tags
  body := some (.message reply.body)

/-- `outLen` bytes of the block, if they were all written, and inside it. -/
def blockBytes (rawData : RawBlock UInt8) (outLen : Int) : Option Bytes :=
  if rawData.inside then (rawData.cells.take outLen.toNat).mapM id else none

/-- What `Session::sendMessage` hands to `sendData`, if it can be encoded. -/
def Reply.bytes {Number : Type} (lib : Libraries Number) (reply : Reply) : Option Bytes :=
  let pm : ProtocolManager GuestLoginRes := ⟨.PROTOCOL_BUF, commandName, ⟨fun _ => none,
    fun _ _ => none⟩⟩
  (encodeCmdMsg pm lib.written (Reply.command reply)).bind fun (rawData, outLen) =>
    blockBytes rawData outLen

/-! ## State -/

/-- Both processes, who is at the other end of an auth session, and what is
under way, each command with the gateway's session it goes through. `torn` is
set when a link has been put out of step. -/
structure State where
  gateway : Gateway.State
  auth : Auth.State
  stage : SessId → LinkStage
  peer : SessId → Option SessId
  up : List (SessId × Bytes)
  down : List (SessId × Bytes)
  torn : Bool

/-- What is seen: what the gateway does with a command of a session or by
itself, what it does with a command of the auth service, and the service. -/
inductive Entry where
  | gateway (a : Gateway.Act)
  | answer (cmd : Bytes) (a : Gateway.Act)
  | auth (e : Auth.Entry)
  deriving DecidableEq

/-- What happens next. A link is made or breaks, a command arrives at its
other end or what comes out of a link that is out of step, a select ends, a
session of the auth service is closed and its block goes back to the pool. -/
inductive Event where
  | gateway (e : Gateway.Event)
  | connect (s a : SessId)
  | request (a : SessId) (random : Int × Int)
  | answer (s : SessId)
  | stray (a : SessId) (cmd : Bytes) (random : Int × Int)
  | strayAnswer (s : SessId) (cmd : Bytes)
  | mysqlConnected
  | redisConnected
  | complete (i : Nat) (res : QueryRes) (random : Int × Int)
  | cut (a : SessId)
  | close (a : SessId)
  | destroy (a : SessId)

def init : State where
  gateway := Gateway.State.init
  auth := Auth.init
  stage _ := .pooled
  peer _ := none
  up := []
  down := []
  torn := false

/-- The first command on a link, and what is left. -/
def takeFirst (s : SessId) : List (SessId × Bytes) → Option (Bytes × List (SessId × Bytes))
  | [] => none
  | (s', cmd) :: rest =>
    if s' = s then some (cmd, rest)
    else (takeFirst s rest).map fun r => (r.1, (s', cmd) :: r.2)

/-- What the gateway writes to its sessions. -/
def written (acts : List Gateway.Act) : List (SessId × Bytes) :=
  acts.filterMap fun
    | .sendRawData s rawCmd => some (s, rawCmd)
    | _ => none

/-- What `sendData` can give a size of 16 bits, which counts its own two bytes. -/
def maxCommand : Nat := 65533

/-- A command among them is too long. -/
def tears (sent : List (SessId × Bytes)) : Bool := sent.any fun p => maxCommand < p.2.length

theorem tears_eq_false {sent : List (SessId × Bytes)} :
    tears sent = false ↔ ∀ p ∈ sent, p.2.length ≤ maxCommand := by
  simp [tears]

/-- **A link in step** hands on the commands that were put on it, one by one,
however its bytes are cut into reads. -/
theorem link_carries (lib : HttpLib) {sent : List (SessId × Bytes)} (hshort : tears sent = false)
    (hhead : ∀ p ∈ sent, COMMAND_HEAD ≤ p.2.length) {reads : List Bytes}
    (hreads : reads.flatten = (sent.map fun p => TcpProtocol.parserRecvData p.2).flatten)
    (hfit : Fits lib (.create .TCP_SOCKET) reads) :
    ∃ s, receive lib (.create .TCP_SOCKET) reads = .ended s (sent.map fun p => handOn p.2) := by
  have hsendable : ∀ cmd ∈ sent.map (·.2), Sendable cmd := by
    intro cmd hcmd
    obtain ⟨p, hp, rfl⟩ := List.mem_map.mp hcmd
    have hone : 1 ≤ COMMAND_HEAD := by decide
    exact ⟨Nat.le_trans hone (hhead p hp), tears_eq_false.mp hshort p hp⟩
  have hstream : reads.flatten = ((sent.map (·.2)).map TcpProtocol.parserRecvData).flatten := by
    rw [hreads, List.map_map]
    rfl
  obtain ⟨s, hrun, -, -⟩ :=
    receive_packages lib hsendable (hstream ▸ List.prefix_refl _) hfit
  refine ⟨s, hrun.trans ?_⟩
  rw [arrived_all (Nat.le_of_eq (congrArg List.length hstream).symm), List.map_map]
  rfl

/-- The session that the gateway calls something for. -/
def calledFor : Gateway.Act → SessId
  | .alloction s _ | .loggedIn _ s _ | .sendRawData s _ | .sendMessage s _ | .close s => s

/-- A step of the gateway that calls nothing for a session that is gone. -/
def gatewayStep {Number : Type} (lib : Libraries Number) (g : Gateway.State) (e : Gateway.Event) :
    Option (Gateway.State × List Gateway.Act) :=
  (Gateway.step lib.gateway g e).filter fun done =>
    done.2.all fun a => (g.session (calledFor a)).stage ≠ .destroyed

/-- What the gateway learns otherwise than from the auth service. The process
of `startSystem.bat` sends nothing. -/
def Outside (g : Gateway.State) : Gateway.Event → Prop
  | .command s _ => (g.session s).as_client = 0
  | .connected s err => err = true ∨ (g.session s).stage ≠ .connecting Gateway.Stype.Auth
  | .accept | .timer | .lost _ | .destroy _ => True

instance (g : Gateway.State) : (e : Gateway.Event) → Decidable (Outside g e)
  | .command _ _ => inferInstanceAs (Decidable (_ = _))
  | .connected _ _ => inferInstanceAs (Decidable (_ ∨ _))
  | .accept | .timer | .lost _ | .destroy _ => inferInstanceAs (Decidable True)

namespace State

/-- The gateway has taken a step. -/
def gatewayTurn (c : State) (done : Gateway.State × List Gateway.Act) : State :=
  { c with
    gateway := done.1
    up := c.up ++ written done.2
    torn := c.torn || tears (written done.2) }

/-- An entry of the auth service as what it sends: a session in the pool or
closed has no connection, and a block that was taken again has a new one. -/
def reply {Number : Type} (lib : Libraries Number) (c : State) :
    Auth.Entry → Option (SessId × Bytes)
  | .sent _ a reply =>
    if c.stage a = .live then
      (c.peer a).bind fun s => (Reply.bytes lib reply).map fun cmd => (s, cmd)
    else none
  | .received _ _ _ _ | .queried _ _ | .raised _ _ | .result _ _ | .redis _ _ => none

/-- The auth service has taken a step. -/
def authTurn {Number : Type} (lib : Libraries Number) (c : State)
    (done : Auth.State × List Auth.Entry) : State :=
  let sent := done.2.filterMap (c.reply lib)
  { c with auth := done.1, down := c.down ++ sent, torn := c.torn || tears sent }

/-- Its session is closed, if it is not yet. -/
def closeAuth (c : State) (a : SessId) : State :=
  { c with stage := Function.update c.stage a .closed }

/-- The commands handed to `recvServiceCmd`. -/
def handle {Number : Type} (lib : Libraries Number) (c : State) (random : Int × Int) :
    List (Handed SessId LuaTable) → Option (State × List Entry)
  | [] => some (c, [])
  | .cmd _ a msg :: handed =>
    (Auth.step lib.lua c.auth (.recv a (toLuaMsg msg) random)).bind fun done =>
      ((c.authTurn lib done).handle lib random handed).map fun rest =>
        (rest.1, done.2.map .auth ++ rest.2)
  | .raw _ _ _ :: handed => c.handle lib random handed

/-- `RecCommand` in the auth service. -/
def request {Number : Type} (lib : Libraries Number) (c : State) (a : SessId) (cmd : Bytes)
    (random : Int × Int) : Option (State × List Entry) :=
  (RecCommand lib.auth atServices a cmd cmd.length).bind fun (handed, closed) =>
    (c.handle lib random handed).map fun done =>
      (if closed then done.1.closeAuth a else done.1, done.2)

/-- The link of an auth session is gone, with what was on it. -/
def cut (c : State) (a : SessId) : State :=
  match c.peer a with
  | none => c
  | some s =>
    { c with
      peer := Function.update c.peer a none
      up := c.up.filter (·.1 ≠ s)
      down := c.down.filter (·.1 ≠ s) }

end State

/-- One event, if it can happen now. -/
def step {Number : Type} (lib : Libraries Number) (c : State) : Event → Option (State × List Entry)
  | .gateway e =>
    if Outside c.gateway e then
      (gatewayStep lib c.gateway e).map fun done =>
        (c.gatewayTurn done, done.2.map .gateway)
    else none
  | .connect s a =>
    if (c.gateway.session s).stage = .connecting Gateway.Stype.Auth ∧ c.stage a = .pooled then
      (gatewayStep lib c.gateway (.connected s false)).map fun done =>
        ({ c.gatewayTurn done with
            stage := Function.update c.stage a .live
            peer := Function.update c.peer a (some s) }, done.2.map .gateway)
    else none
  | .request a random =>
    if c.stage a = .pooled then none
    else
      (c.peer a).bind fun s => (takeFirst s c.up).bind fun (cmd, up) =>
        ({ c with up := up } : State).request lib a cmd random
  | .answer s =>
    (takeFirst s c.down).bind fun (cmd, down) =>
      (gatewayStep lib c.gateway (.command s cmd)).map fun done =>
        (({ c with down := down } : State).gatewayTurn done, done.2.map (.answer cmd))
  | .stray a cmd random =>
    if c.torn = true ∧ c.stage a ≠ .pooled then
      (c.peer a).bind fun _ => c.request lib a cmd random
    else none
  | .strayAnswer s cmd =>
    if c.torn = true ∧ (c.gateway.session s).as_client = 1 then
      (gatewayStep lib c.gateway (.command s cmd)).map fun done =>
        (c.gatewayTurn done, done.2.map (.answer cmd))
    else none
  | .mysqlConnected =>
    (Auth.step lib.lua c.auth .mysqlConnected).map fun done =>
      (c.authTurn lib done, done.2.map .auth)
  | .redisConnected =>
    (Auth.step lib.lua c.auth .redisConnected).map fun done =>
      (c.authTurn lib done, done.2.map .auth)
  | .complete i res random =>
    (Auth.step lib.lua c.auth (.complete i res random)).map fun done =>
      (c.authTurn lib done, done.2.map .auth)
  | .cut a => some (c.cut a, [])
  | .close a => if c.stage a = .live then some (c.closeAuth a, []) else none
  | .destroy a =>
    if c.stage a = .closed then
      some ({ c.cut a with stage := Function.update c.stage a .pooled }, [])
    else none

def run {Number : Type} (lib : Libraries Number) (events : List Event) :
    Option (State × List Entry) :=
  Lib.run (step lib) (init, []) events

end LibuvServer.Deployment
