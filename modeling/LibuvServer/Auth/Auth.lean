import LibuvServer.Gateway.Gateway
import LibuvServer.Mylua.LuaValue
import Mathlib.Tactic.Common

/-!
# The auth service

`serviceServer/auth/auth.lua` with the scripts under it, and what they use of
`database/auth_mysql.lua` and `database/auth_redis.lua`. A script runs to its
end or to its first Lua error, which `lua_pcall` catches: it is the list of
what it does. The function given to `mysqlManager.query` is called later,
with the connections as they are then.
-/

namespace LibuvServer.Auth

open LibuvServer.Lib LibuvServer.Netbus LibuvServer.Mylua
open LibuvServer.Gateway (SessId)

namespace Ctype

def eGuestUpgradeReq : Nat := 5

end Ctype

/-! ## Messages -/

/-- A command as `recvServiceCmd` gives it to Lua. -/
structure LuaMsg where
  serverType : Nat
  commandType : Nat
  tags : Nat
  body : Option LuaTable
  deriving DecidableEq

/-- The table `push_proto_message_tolua` makes of a `GuestLoginReq`. -/
def guestLoginReq (RandKey : Bytes) : LuaTable := [("RandKey", .string RandKey)]

structure GuestInfo where
  nick : Bytes
  faceImage : Int
  vip : Int
  status : Int
  guestId : Int
  deriving DecidableEq

structure GuestLoginRes where
  guestError : Int
  info : Option GuestInfo
  deriving DecidableEq

/-- An answer handed to `Session::sendMessage`. -/
structure Reply where
  serverType : Nat
  commandType : Nat
  tags : Nat
  body : GuestLoginRes
  deriving DecidableEq

/-! ## Queries -/

/-- A row of the table `guest` under the columns the scripts select. The
driver gives every column as a text. -/
structure GuestRow where
  nick : Bytes
  faceImage : Bytes
  status : Bytes
  vip : Bytes
  guestId : Bytes
  deriving DecidableEq

/-- What the function of a query is called with: an error, the rows after the
column names, or the text that stands for no result set. -/
inductive QueryRes where
  | err (err : Bytes)
  | rows (ret : List GuestRow)
  | success
  deriving DecidableEq

/-- What a script finds when it runs: the connections, and the two numbers
`math.random` gives next. -/
structure Env where
  mysql_conn : Bool
  redis_conn : Bool
  random : Int × Int

/-- What a script does. A query is queued with its function. A call of
`Session.sendMessage` can also raise before anything is sent. -/
inductive Act where
  | mysqlQuery (finalsm : Bytes) (func : Env → QueryRes → List Act)
  | redisQuery (redisState : Bytes)
  | sendMessage (s : SessId) (reply : Reply)
  | sendRaises (s : SessId)

/-- A function a script gives to another: error first, then what was found. -/
abbrev RetFunc (α : Type) := Env → Option Bytes → Option α → List Act

/-! ## The scripts -/

section Scripts

variable {Number : Type} (lib : LuaLib Number)

def selectGuest : Bytes :=
  strBytes "select nick , faceImage , status ,vip ,guestId from guest where guest_key = '%s';"

def insertGuest : Bytes :=
  strBytes "insert into guest (nick, faceImage , status, guest_key)values('%s',%d,%d,%d,'%s');"

def notConnect : Bytes := strBytes "mysql is not connect"

/-- The function `getGuestInfo` gives to its query. The text without a result
set has no second entry to go through. -/
def onSelect (retFunc : RetFunc GuestRow) (env : Env) (res : QueryRes) : List Act :=
  match res with
  | .err err => retFunc env (some err) none
  | .rows [] => retFunc env none none
  | .rows (info :: _) => retFunc env none (some info)
  | .success => []

/-- `getGuestInfo` of `auth_mysql.lua`. -/
def getGuestInfo (gKey : LuaValue) (retFunc : RetFunc GuestRow) (env : Env) : List Act :=
  if env.mysql_conn then
    match strFormat lib selectGuest [gKey] with
    | none => []
    | some finalsm => [.mysqlQuery finalsm (onSelect retFunc)]
  else retFunc env (some notConnect) none

/-- The function `registGuest` gives to its query. -/
def onInsert (retFunc : RetFunc GuestRow) (env : Env) (res : QueryRes) : List Act :=
  match res with
  | .err err => retFunc env (some err) none
  | .rows _ | .success => retFunc env none none

/-- `registGuest`. -/
def registGuest (gKey : LuaValue) (retFunc : RetFunc GuestRow) (env : Env) : List Act :=
  if env.mysql_conn then
    let unick := strBytes "guest" ++ decimal env.random.1
    let face := env.random.2
    -- five directives, but four values
    match strFormat lib insertGuest [.string unick, .integer face, .integer 0, gKey] with
    | none => []
    | some finalsm => [.mysqlQuery finalsm (onInsert retFunc)]
  else retFunc env (some notConnect) none

/-- `setGuestInfo` of `auth_redis.lua`; the function of its query only logs. -/
def setGuestInfo (gid : Bytes) (uinfo : GuestRow) (env : Env) : List Act :=
  let redisState := strBytes "hmset guest_" ++ gid ++ strBytes " nick " ++ uinfo.nick ++
    strBytes " faceImage " ++ uinfo.faceImage ++ strBytes " vip " ++ uinfo.vip ++
    strBytes " status " ++ uinfo.status
  if env.redis_conn then [.redisQuery redisState] else []

/-- `luaTableToProtobuf` of the info: a text that is no number raises. -/
def toGuestInfo (info : GuestRow) : Option GuestInfo :=
  (luaLCheckint32 lib info.faceImage).bind fun faceImage =>
    (luaLCheckint32 lib info.vip).bind fun vip =>
      (luaLCheckint32 lib info.status).bind fun status =>
        (luaLCheckint32 lib info.guestId).map fun guestId =>
          ⟨info.nick, faceImage, vip, status, guestId⟩

/-- `Session.sendMessage` of a guest login's answer. -/
def sendGuestRes (s : SessId) (msg : LuaMsg) (body : GuestLoginRes) : List Act :=
  [.sendMessage s ⟨Gateway.Stype.Auth, msg.commandType + 1, msg.tags, body⟩]

/-- `tonumber(status) ~= 0`. -/
def isFrozen (info : GuestRow) : Bool :=
  match lib.str2num info.status with
  | some n => !lib.isZero n
  | none => true

/-- The function `guestLogin` gives to `regist_Guest`. It calls `login`, a
global that nothing sets. -/
def onRegist (s : SessId) (msg : LuaMsg) : RetFunc GuestRow := fun _ err _ =>
  match err with
  | some _ => sendGuestRes s msg ⟨-1, none⟩
  | none => []

/-- The function `guestLogin` gives to `get_guestInfo`. -/
def onGuestInfo (s : SessId) (msg : LuaMsg) (guestKey : LuaValue) : RetFunc GuestRow :=
  fun env err info =>
    match err, info with
    -- the error is logged, and the client hears nothing
    | some _, _ => []
    | none, none => registGuest lib guestKey (onRegist s msg) env
    | none, some info =>
      if isFrozen lib info then sendGuestRes s msg ⟨-3, none⟩
      else
        setGuestInfo info.guestId info env ++
          match toGuestInfo lib info with
          | none => [.sendRaises s]
          | some info => sendGuestRes s msg ⟨1, some info⟩

/-- `guestLogin`. Without a body the index raises. The field of a
`GuestLoginReq` is `RandKey`. -/
def guestLogin (s : SessId) (msg : LuaMsg) (env : Env) : List Act :=
  match msg.body with
  | none => []
  | some body =>
    let guestKey := body.get "randkey"
    getGuestInfo lib guestKey (onGuestInfo lib s msg guestKey) env

/-- `guestUpgrade` tests `userName`, a global that nothing sets, and does
nothing. -/
def guestUpgrade (_ : SessId) (_ : LuaMsg) (_ : Env) : List Act := []

/-- `at_recv_cmd`. -/
def atRecvCmd (s : SessId) (msg : LuaMsg) (env : Env) : List Act :=
  if msg.commandType = Gateway.Ctype.eGuestLoginReq then guestLogin lib s msg env
  else if msg.commandType = Ctype.eGuestUpgradeReq then guestUpgrade s msg env
  else []

end Scripts

/-! ## The process -/

/-- The connections, the queries that have not completed, each with the
number of the command it is for, and how many commands have been received. -/
structure State where
  mysql_conn : Bool
  redis_conn : Bool
  queries : List (Nat × (Env → QueryRes → List Act))
  received : Nat

/-- What happens next. What `math.random` gives and how a query ends is not
the scripts' choice. -/
inductive Event where
  | mysqlConnected
  | redisConnected
  | recv (s : SessId) (msg : LuaMsg) (random : Int × Int)
  | complete (i : Nat) (res : QueryRes) (random : Int × Int)

/-- What is seen of a run, with the number of the command it is about. -/
inductive Entry where
  | received (n : Nat) (s : SessId) (msg : LuaMsg) (mysql_conn : Bool)
  | queried (n : Nat) (finalsm : Bytes)
  | result (n : Nat) (res : QueryRes)
  | redis (n : Nat) (redisState : Bytes)
  | sent (n : Nat) (s : SessId) (reply : Reply)
  | raised (n : Nat) (s : SessId)
  deriving DecidableEq

def init : State where
  mysql_conn := false
  redis_conn := false
  queries := []
  received := 0

def State.env (c : State) (random : Int × Int) : Env := ⟨c.mysql_conn, c.redis_conn, random⟩

def Act.query (n : Nat) : Act → Option (Nat × (Env → QueryRes → List Act))
  | .mysqlQuery _ func => some (n, func)
  | .redisQuery _ | .sendMessage _ _ | .sendRaises _ => none

def Act.entry (n : Nat) : Act → Entry
  | .mysqlQuery finalsm _ => .queried n finalsm
  | .redisQuery redisState => .redis n redisState
  | .sendMessage s reply => .sent n s reply
  | .sendRaises s => .raised n s

/-- What a script has done for command `n`. -/
def State.perform (c : State) (n : Nat) (acts : List Act) : State × List Entry :=
  ({ c with queries := c.queries ++ acts.filterMap (Act.query n) }, acts.map (Act.entry n))

/-- One event, if it can happen now. -/
def step {Number : Type} (lib : LuaLib Number) (c : State) : Event → Option (State × List Entry)
  | .mysqlConnected => some ({ c with mysql_conn := true }, [])
  | .redisConnected => some ({ c with redis_conn := true }, [])
  | .recv s msg random =>
    let n := c.received
    let done := { c with received := n + 1 }.perform n (atRecvCmd lib s msg (c.env random))
    some (done.1, .received n s msg c.mysql_conn :: done.2)
  | .complete i res random =>
    match c.queries[i]? with
    | none => none
    | some (n, func) =>
      let done := { c with queries := c.queries.eraseIdx i }.perform n (func (c.env random) res)
      some (done.1, .result n res :: done.2)

def run {Number : Type} (lib : LuaLib Number) (events : List Event) :
    Option (State × List Entry) :=
  Lib.run (step lib) (init, []) events

end LibuvServer.Auth
