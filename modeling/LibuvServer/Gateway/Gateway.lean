import LibuvServer.Lib.Runs
import LibuvServer.Mylua.LuaSession
import LibuvServer.Netbus.ServiceManager
import Mathlib.Logic.Function.Basic
import Mathlib.Tactic.Common

/-!
# The gateway

`serviceServer/gateway/gateway.lua` and what calls it: commands of clients
and servers, the timer that connects to servers, and closed connections.
Sessions are numbered in the order they are created and never share a
number; `Blocks` has the same events with the blocks that sessions get from
the pool. A handler that runs into a Lua error stops there; `lua_pcall`
catches the error.
-/

namespace LibuvServer.Gateway

open LibuvServer.Lib LibuvServer.Netbus LibuvServer.Mylua

abbrev SessId := Nat

/-! ## Configuration -/

namespace Stype

def Auth : Nat := 1

def System : Nat := 2

end Stype

namespace Ctype

def eGuestLoginReq : Nat := 1

def eGuestLoginRes : Nat := 2

def eLoginReq : Nat := 3

def eLoginRes : Nat := 4

end Ctype

namespace GameError

def eReLogin : Int := -5

def eUserLoseConn : Int := -6

end GameError

/-- The types in `otherServer.servers`. -/
def servers : List Nat := [Stype.Auth, Stype.System]

/-- The gateway as a service: raw, and `recvServiceRawHead` returns `true`
whatever the handler does. -/
def gwService : Service SessId LuaBody where
  using_raw := true
  recvServiceCmd _ _ := true
  recvServiceRawHead _ _ := true

/-- What `main.lua` registers: the gateway for every configured type. -/
def gwServices : ServiceSet SessId LuaBody :=
  ServiceManager.registered (servers.map fun (stype : Nat) => ((stype : Int), gwService))

/-! ## State -/

/-- The globals of the script and the sessions. -/
structure State where
  sType2Session : Nat → Option SessId
  do_connecting : Nat → Bool
  gKey : Nat
  client_temp : Nat → Option SessId
  client_uid : Int → Option SessId
  client_gid : Int → Option SessId
  session : SessId → Session
  created : Nat

/-- A table for `Session.sendMessage`: three numbers and a body. -/
structure LuaMessage where
  stype : Int
  ctype : Int
  tag : Int
  body : Option LuaBody
  deriving DecidableEq

/-- The two kinds of login. -/
inductive Login where
  | guest
  | user
  deriving DecidableEq

/-- What a handler does besides changing the state. `alloction` is the log
line at which a tag is handed out; `loggedIn` is no call: it marks that a
server's answer to a login of the session was a success and carried `id`. -/
inductive Act where
  | alloction (client_s : SessId) (utag : Nat)
  | loggedIn (login : Login) (client_s : SessId) (id : Int)
  | sendRawData (s : SessId) (rawCmd : Bytes)
  | sendMessage (s : SessId) (msg : LuaMessage)
  | close (s : SessId)
  deriving DecidableEq

/-- `Session.sendMessage`, which sends tables of length four only; a table
whose last item is `nil` has length three. -/
def sendMessage (s : SessId) (msg : LuaMessage) : List Act :=
  if msg.body.isSome then [.sendMessage s msg] else []

/-- `t[key]` of a table, also for `nil`. -/
def index (t : Int → Option SessId) (key : Option Int) : Option SessId := key.bind t

namespace State

def modify (g : State) (s : SessId) (f : Session → Session) : State :=
  { g with session := Function.update g.session s (f (g.session s)) }

/-- `gw_init`, and no session yet. -/
def init : State where
  sType2Session _ := none
  do_connecting _ := false
  gKey := 1
  client_temp _ := none
  client_uid _ := none
  client_gid _ := none
  session _ := { stage := .absent }
  created := 0

/-- `Session_uv::create`. -/
def create (g : State) (s : Session) : State :=
  { g with session := Function.update g.session g.created s, created := g.created + 1 }

end State

namespace Login

def request : Login → Nat
  | .guest => Ctype.eGuestLoginReq
  | .user => Ctype.eLoginReq

def answer : Login → Nat
  | .guest => Ctype.eGuestLoginRes
  | .user => Ctype.eLoginRes

/-- The table of the sessions logged in this way. -/
def table (g : State) : Login → Int → Option SessId
  | .guest => g.client_gid
  | .user => g.client_uid

def setTable (g : State) (id : Int) (s : Option SessId) : Login → State
  | .guest => { g with client_gid := Function.update g.client_gid id s }
  | .user => { g with client_uid := Function.update g.client_uid id s }

/-- `Session.setGid` or `Session.setUid`. -/
def setId (id : Int) : Login → Session → Session
  | .guest, s => s.setGid id
  | .user, s => s.setUid id

/-- The id in `rawBody.info`. -/
def id (info : LuaInfo) : Login → Option Int
  | .guest => info.guestId
  | .user => info.userid

def hideId (info : LuaInfo) : Login → LuaInfo
  | .guest => { info with guestId := some 0 }
  | .user => { info with userid := some 0 }

end Login

namespace State

/-! ## Commands of clients -/

/-- A login request in `sendToServer`: a session without a tag gets one, and
its id is the tag until the answer. -/
def loginRequest (g : State) (login : Login) (client_s : SessId) : State × Nat × List Act :=
  let utag := (g.session client_s).utag
  if utag = 0 then
    let utag := g.gKey
    let g := { g with gKey := g.gKey + 1 }
    let g := g.modify client_s fun s => login.setId utag (s.setTag utag)
    ({ g with client_temp := Function.update g.client_temp utag (some client_s) }, utag,
      [.alloction client_s utag])
  else
    ({ g with client_temp := Function.update g.client_temp utag (some client_s) }, utag, [])

/-- Any other command in `sendToServer`: the session is entered under its
ids, and the tag is the `gid` or else the `uid`. -/
def identify (g : State) (client_s : SessId) : State × Option Nat :=
  let uid := (g.session client_s).uid
  let gid := (g.session client_s).gid
  let g := if uid ≠ 0 then Login.user.setTable g uid (some client_s) else g
  let g := if gid ≠ 0 then Login.guest.setTable g gid (some client_s) else g
  (g, if uid = 0 ∧ gid = 0 then none else some (if gid ≠ 0 then gid else uid))

def sendToServer (g : State) (client_s : SessId) (raw : Gateway2Server) : State × List Act :=
  match g.sType2Session raw.serverType with
  | none => (g, [])
  | some server =>
    if raw.commandType = Ctype.eGuestLoginReq then
      let (g, utag, acts) := g.loginRequest .guest client_s
      (g, acts ++ [.sendRawData server (Raw.setTag raw utag).rawCmd])
    else if raw.commandType = Ctype.eLoginReq then
      let (g, utag, acts) := g.loginRequest .user client_s
      (g, acts ++ [.sendRawData server (Raw.setTag raw utag).rawCmd])
    else
      match g.identify client_s with
      | (g, none) => (g, [])
      | (g, some utag) => (g, [.sendRawData server (Raw.setTag raw utag).rawCmd])

/-! ## Closed connections -/

/-- The entry of a closed client under its tag. -/
def leaveTemp (g : State) (s : SessId) : State :=
  let utag := (g.session s).utag
  if g.client_temp utag = some s then
    { g with client_temp := Function.update g.client_temp utag none }.modify s (·.setTag 0)
  else g

/-- The entry of a closed client under its `uid`. The test reads another table. -/
def leaveUid (g : State) (s : SessId) : State :=
  let uid := (g.session s).uid
  if (g.client_uid uid).isSome ∧ g.client_temp uid = some s then
    { g with client_uid := Function.update g.client_uid uid none }
  else g

/-- The entry of a closed server. -/
def leaveServer (g : State) (s : SessId) : State :=
  match servers.find? fun k => g.sType2Session k = some s with
  | some k =>
    { g with
      sType2Session := Function.update g.sType2Session k none
      do_connecting := Function.update g.do_connecting k false }
  | none => g

/-- `gw_disc_session`. The notice at the end is a table whose body is `nil`. -/
def gw_disc_session (g : State) (s : SessId) (stype : Nat) : State × List Act :=
  if (g.session s).as_client = 1 then (g.leaveServer s, [])
  else
    let g := (g.leaveTemp s).leaveUid s
    let uid := (g.session s).uid
    (g, if uid ≠ 0 then sendMessage s ⟨stype, GameError.eUserLoseConn, uid, none⟩ else [])

/-- `ServiceManager::sessionDisconnect` for services that are all the gateway. -/
def discAll (g : State) (s : SessId) : List Nat → State × List Act
  | [] => (g, [])
  | stype :: stypes =>
    let told := g.gw_disc_session s stype
    let rest := told.1.discAll s stypes
    (rest.1, told.2 ++ rest.2)

/-- `Session_uv::close`, up to the shutdown request. -/
def close (g : State) (s : SessId) : State × List Act :=
  if (g.session s).isShotdown then (g, [])
  else
    let told := g.discAll s ((ServiceManager.sessionDisconnect gwServices).map (·.2))
    (told.1.modify s fun x => { x with isShotdown := true }, told.2)

/-! ## Answers of servers -/

/-- A session that is logged in under the id already is told and closed. -/
def replace (g : State) (login : Login) (ctype : Nat) (id : Option Int) (client_s : SessId) :
    State × List Act :=
  match index (login.table g) id, id with
  | some old, some id =>
    if old ≠ client_s then
      -- `gw_disc_session` runs before the entry is taken out
      let closed := g.close old
      (login.setTable closed.1 id none,
        sendMessage old ⟨Stype.Auth, ctype, 0, some { guestError := some GameError.eReLogin }⟩
          ++ [.close old] ++ closed.2)
    else (g, [])
  | _, _ => (g, [])

/-- A login answer in `sendToClient`. -/
def loginAnswer (g : State) (login : Login) (raw : Gateway2Server) (rawBody : Option LuaBody) :
    State × List Act :=
  let (stype, ctype, utag) := Raw.readHead raw
  let client := g.client_temp utag
  let g := { g with client_temp := Function.update g.client_temp utag none }
  match client with
  | none => (g, [])
  | some client_s =>
    match rawBody with
    -- indexing `nil` is an error
    | none => (g, [])
    | some rawBody =>
      if rawBody.guestError ≠ some 1 then
        (g, [.sendRawData client_s (Raw.setTag raw 0).rawCmd])
      else
        match rawBody.info with
        | none => (g, [])
        | some info =>
          let replaced := g.replace login ctype (login.id info) client_s
          match login.id info with
          -- and so is an assignment to the key `nil`
          | none => replaced
          | some id =>
            let g := login.setTable replaced.1 id (some client_s)
            (g.modify client_s (login.setId id),
              replaced.2 ++ [.loggedIn login client_s id] ++ sendMessage client_s
                ⟨stype, ctype, 0, some { rawBody with info := some (login.hideId info) }⟩)

def sendToClient (pm : ProtocolManager LuaBody) (g : State) (raw : Gateway2Server) :
    State × List Act :=
  if raw.commandType = Ctype.eGuestLoginRes then
    -- the guest branch prints `rawBody.info` first
    match (Raw.readBody pm raw).bind (·.info) with
    | none => (g, [])
    | some _ => g.loginAnswer .guest raw (Raw.readBody pm raw)
  else if raw.commandType = Ctype.eLoginRes then
    g.loginAnswer .user raw (Raw.readBody pm raw)
  else
    -- `tag` and `client_s` are globals that nothing sets; a getter of `nil` gives `nil`
    let tag : Option Int := none
    let uid : Option Int := none
    let gid : Option Int := none
    let user := match index g.client_uid tag with
      | some client_s_user =>
        if uid ≠ some 0 then [Act.sendRawData client_s_user (Raw.setTag raw 0).rawCmd] else []
      | none => []
    let guest := match index g.client_gid tag with
      | some client_s_guest =>
        if gid ≠ some 0 then [Act.sendRawData client_s_guest (Raw.setTag raw 0).rawCmd] else []
      | none => []
    (g, user ++ guest)

/-! ## Events -/

def gw_repeaterSession (pm : ProtocolManager LuaBody) (g : State) (s : SessId)
    (raw : Gateway2Server) : State × List Act :=
  if (g.session s).as_client = 0 then g.sendToServer s raw else g.sendToClient pm raw

/-- The commands handed to the gateway. Its services are raw and have no
handler for decoded ones. -/
def handle (pm : ProtocolManager LuaBody) (g : State) :
    List (Handed SessId LuaBody) → State × List Act
  | [] => (g, [])
  | .raw _ s msg :: handed =>
    let done := g.gw_repeaterSession pm s msg
    let rest := done.1.handle pm handed
    (rest.1, done.2 ++ rest.2)
  | .cmd _ _ _ :: handed => g.handle pm handed

/-- `RecCommand` for a session. -/
def recv (pm : ProtocolManager LuaBody) (g : State) (s : SessId) (cmd : Bytes) :
    Option (State × List Act) :=
  match RecCommand pm gwServices s cmd cmd.length with
  | none => none
  | some (handed, closed) =>
    let done := g.handle pm handed
    if closed then
      let shut := done.1.close s
      some (shut.1, done.2 ++ shut.2)
    else some done

/-- One pass of `checkConnected`: `NetBus::tcp_connect` for a server that is
neither connected nor being connected. -/
def checkServer (g : State) (stype : Nat) : State :=
  if g.sType2Session stype = none ∧ g.do_connecting stype = false then
    { g with do_connecting := Function.update g.do_connecting stype true }.create
      { as_client := 1, stage := .connecting stype }
  else g

def checkConnected (g : State) : State := servers.foldl checkServer g

/-- `after_connect` with the callback of `connect`. -/
def afterConnect (g : State) (stype : Nat) (s : SessId) (err : Bool) : State × List Act :=
  -- the script sets this before it looks at the error
  let g := { g with do_connecting := Function.update g.do_connecting stype true }
  if err then
    ({ g with do_connecting := Function.update g.do_connecting stype false }.modify s
      fun x => { x with stage := .failed }).close s
  else
    ({ g with sType2Session := Function.update g.sType2Session stype (some s) }.modify s
      fun x => { x with stage := .reading }, [])

end State

/-- What happens next: a client connects, the timer fires, an attempt to
connect ends, a session's bytes hold a command, its connection is lost, or
its handle is closed after a shutdown. Nothing stops the reading before. -/
inductive Event where
  | accept
  | timer
  | connected (s : SessId) (err : Bool)
  | command (s : SessId) (cmd : Bytes)
  | lost (s : SessId)
  | destroy (s : SessId)

/-- One event, if it can happen now. The fields of a destroyed session stay,
so that what is done to one can be seen. -/
def step (pm : ProtocolManager LuaBody) (g : State) : Event → Option (State × List Act)
  | .accept => some (g.create { stage := .reading }, [])
  | .timer => some (g.checkConnected, [])
  | .connected s err =>
    match (g.session s).stage with
    | .connecting stype => some (g.afterConnect stype s err)
    | _ => none
  | .command s cmd => if (g.session s).stage = .reading then g.recv pm s cmd else none
  | .lost s => if (g.session s).stage = .reading then some (g.close s) else none
  | .destroy s =>
    if (g.session s).isShotdown ∧
        ((g.session s).stage = .reading ∨ (g.session s).stage = .failed) then
      some (g.modify s fun x => { x with stage := .destroyed }, [])
    else none

/-- A run of the gateway from its start. -/
def run (pm : ProtocolManager LuaBody) (events : List Event) : Option (State × List Act) :=
  Lib.run (step pm) (State.init, []) events

/-! ## A small setting -/

/-- The head of a command without a body. -/
def head (stype ctype : UInt8) (utag : UInt8) : Bytes := [stype, 0, ctype, 0, utag, 0, 0, 0]

/-- A `GuestLoginRes` with `guestError` 1 and the `guestId` 77. -/
def guestAnswer : Bytes :=
  [0x08, 0x01, 0x12, 0x0a, 0x0a, 0x00, 0x10, 0x00, 0x18, 0x00, 0x20, 0x00, 0x28, 0x4d]

/-- The protocol of `CommandName.lua`, with a parser for this one message. -/
def sampleProto : ProtocolManager LuaBody where
  gProtocolType := .PROTOCOL_BUF
  gProtoMap n := ["", "GuestLoginReq", "GuestLoginRes", "LoginReq", "LoginRes", "GuestInfo",
    "GuestUpgradeReq", "GuestUpgradeRes"].getD n ""
  proto :=
    { createMessage := fun name => if name = "GuestLoginRes" then some {} else none
      parseFromArray := fun _ data =>
        if data = guestAnswer then
          some { guestError := some 1
                 info := some { nick := some [], faceImage := some 0, vip := some 0,
                                status := some 0, guestId := some 77 } }
        else none }

/-- Session 0 is the server for type 1, and two clients connect, 2 and 3. -/
def twoClients : List Event := [.timer, .connected 0 false, .accept, .accept]

end LibuvServer.Gateway
