import LibuvServer.Lib.LuaStack
import LibuvServer.Lib.Runs
import LibuvServer.Mylua.LuaValue
import Mathlib.Tactic.Common

/-!
# Database contexts

`mysqlmanager.cc` and `redismanager.cc` with their bridges `lua_mysql.cc` and
`lua_redis.cc`: one context, the work that its queries and closes put into
the thread pool, and the table of Lua functions. Workers run in any order,
and only the lock of the context keeps them apart. A worker or a callback
that uses a value it never got ends the run.
-/

namespace LibuvServer.Database

open LibuvServer.Lib.LuaStack LibuvServer.Netbus LibuvServer.Mylua
open LibuvServer.Lib (LuaStackValue)

inductive Driver where
  | mysql
  | redis
  deriving DecidableEq

/-! ## What the drivers give -/

/-- A result set: the names of its columns, and what `getString` gives for a
name in each row. -/
structure ResultSet where
  columnNames : List Bytes
  rows : List (Bytes → Bytes)

/-- The calls of `query_work` that can throw. -/
inductive MysqlCall where
  | createStatement
  | setSchema
  | executeQuery
  deriving DecidableEq

inductive MysqlOutcome where
  | result (result : ResultSet)
  | noResult
  | exception (call : MysqlCall) (code : Int) (what : Bytes)

/-- `redisReply`; `other` are the types of RESP3. -/
inductive RedisReply where
  | string (str : Bytes)
  | array (element : List RedisReply)
  | integer (n : Int)
  | nil
  | status (str : Bytes)
  | error (str : Bytes)
  | other

/-- How the driver's part of a query can end. `redisCommand` gives NULL once
the connection has been lost. -/
def Driver.Outcome : Driver → Type
  | .mysql => MysqlOutcome
  | .redis => Option RedisReply

def Driver.Result : Driver → Type
  | .mysql => ResultSet
  | .redis => RedisReply

/-- `err` and `result` of a request. -/
abbrev Driver.Answer (d : Driver) : Type := Option Bytes × Option d.Result

/-! ## `query_work` -/

def strstr (text pattern : Bytes) : Bool := text.tails.any pattern.isPrefixOf

def isSelect (sql : Bytes) : Bool :=
  strstr sql (strBytes "SELECT") || strstr sql (strBytes "select")

/-- What is written into `msgerr`. -/
def errorText (code : Int) (what : Bytes) : Bytes := decimal code ++ strBytes ":" ++ what

/-- `query_work` of MySQL, once it has the lock. With error code 0 it goes on
after the `catch`, with what had been set before the exception. -/
def mysqlQueryWork (sql : Bytes) : MysqlOutcome → Option (Driver.Answer .mysql)
  | .exception call code what =>
    if code ≠ 0 then
      -- `msgerr` has 256 bytes, and `sprintf` does not count
      if (errorText code what).length < 256 then some (some (errorText code what), none) else none
    else if call = .createStatement then none
    else if isSelect sql then none
    else some (none, none)
  | .result result => some (none, if isSelect sql then some result else none)
  | .noResult => some (none, none)

/-- `query_work` of redis. The text of the command is a format: a directive
takes an argument that is not there. -/
def redisQueryWork (cmd : Bytes) (reply : Option RedisReply) : Option (Driver.Answer .redis) :=
  if directives cmd ≠ 0 then none
  else
    match reply with
    -- `reply->type`
    | none => none
    | some (.error str) => some (some str, none)
    | some reply => some (none, some reply)

def Driver.queryWork : (d : Driver) → Bytes → d.Outcome → Option d.Answer
  | .mysql => mysqlQueryWork
  | .redis => redisQueryWork

/-! ## The callbacks of the bridges -/

/-- `pushMysqlQueryRes`. -/
def pushMysqlQueryRes (columnNames : List Bytes) (row : Bytes → Bytes) : Act :=
  pushTable (columnNames.map fun colName => pushstring (row (cString colName)))

/-- `mysqlOperationQue`, up to the call. -/
def mysqlOperationQue : Driver.Answer .mysql → Act
  | (some err, _) => fun stack => (pushstring err stack).bind pushnil
  | (none, some result) => fun stack =>
    ((pushnil stack).bind pushnil).bind (pushTable
      (pushTable (result.columnNames.map pushstring) ::
        result.rows.map (pushMysqlQueryRes result.columnNames)))
  | (none, none) => fun stack =>
    (pushnil stack).bind (pushstring (strBytes "query sqlstatement success"))

mutual

/-- `pushredisQueryRes`. -/
def pushredisQueryRes : RedisReply → Act
  | .integer n => pushinteger n
  | .string str => pushstring str
  | .status str => pushstring str
  | .nil => pushnil
  | .array element => pushTable (pushElements element)
  -- the switch has no case for these
  | .error _ => some
  | .other => some

def pushElements : List RedisReply → List Act
  | [] => []
  | reply :: element => pushredisQueryRes reply :: pushElements element

end

/-- `redisOperationQue`, up to the call. -/
def redisOperationQue : Driver.Answer .redis → Act
  | (some err, _) => fun stack => (pushstring err stack).bind pushnil
  | (none, some reply) => fun stack => (pushnil stack).bind (pushredisQueryRes reply)
  | (none, none) => fun _ => none

def Driver.operationQue : (d : Driver) → d.Answer → Act
  | .mysql => mysqlOperationQue
  | .redis => redisOperationQue

/-! ## Work -/

structure Request where
  text : Bytes
  handler : Nat

inductive Work where
  | query (r : Request)
  | close

/-- How far a piece of work has come. A worker that has started waits for the
lock; one that has unlocked has returned. -/
inductive Phase where
  | queued
  | started
  | locked
  | worked
  | unlocked
  | completed
  deriving DecidableEq

structure Item (d : Driver) where
  work : Work
  phase : Phase
  answer : d.Answer

def Work.item {d : Driver} (work : Work) : Item d := ⟨work, .queued, none, none⟩

/-- What there is to read of a context. -/
inductive Part where
  | lock
  | pConn
  | connection
  deriving DecidableEq

/-- What `query_work` reads up to its wait for the lock. -/
def Driver.readsBefore : Driver → List Part
  | .mysql => [.lock]
  | .redis => [.pConn, .lock]

/-- What it reads when it has got the lock. -/
def Driver.readsLocked : Driver → List Part
  | .mysql => [.lock, .pConn]
  | .redis => [.lock]

/-- A context with the items queued on it, and `TOLUA_REFID_FUNCTION_MAPPING`. -/
structure State (d : Driver) where
  is_closed : Bool
  /-- The connection has not been destroyed. -/
  conn : Bool
  freed : Bool
  lock : Option Nat
  items : List (Item d)
  funcs : List (Nat × Nat)
  refid : Nat
  /-- The item whose worker or callback did what is not defined. -/
  fault : Option Nat

/-- What is seen of a run. -/
inductive Entry (d : Driver) where
  | called (handler f : Nat) (text : Bytes) (accepted : Bool)
  | read (i : Nat) (part : Part)
  | destroyed
  | freed
  /-- The driver's outcome, and whether the worker still had its connection. -/
  | outcome (handler : Nat) (o : d.Outcome) (conn : Bool)
  | func (handler f : Nat) (err res : LuaStackValue)

/-- The arguments of a call from Lua. -/
structure Args where
  context : Bool
  text : Option Bytes
  func : Option Nat

/-- A call reads `is_closed` as `stale` when the context has been freed. -/
inductive Event (d : Driver) where
  | query (args : Args) (stale : Bool)
  | close (stale : Bool)
  | start (i : Nat)
  | lock (i : Nat)
  | work (i : Nat) (o : d.Outcome)
  | destroy (i : Nat)
  | unlock (i : Nat)
  | complete (i : Nat)

variable {d : Driver}

namespace State

/-- What a call reads of `is_closed`. -/
def closedAs (c : State d) (stale : Bool) : Bool := if c.freed then stale else c.is_closed

/-- `toluafix_ref_function`. -/
def refFunction (c : State d) : Option Nat → State d × Nat
  | none => (c, 0)
  | some f =>
    ({ c with funcs := (c.refid + 1, f) :: c.funcs, refid := c.refid + 1 }, c.refid + 1)

/-- `toluafix_remove_function_by_refid`. -/
def removeLuaFunc (c : State d) (handler : Nat) : State d :=
  { c with funcs := c.funcs.filter (·.1 ≠ handler) }

def setItem (c : State d) (i : Nat) (item : Item d) : State d :=
  { c with items := c.items.set i item }

/-- Item `i`, if it has come this far. -/
def itemAt (c : State d) (i : Nat) (phase : Phase) : Option (Item d) :=
  c.items[i]?.filter (·.phase = phase)

end State

/-- What the bridge's `query` hands on. Only that of MySQL asks for a function. -/
def Args.request (args : Args) (d : Driver) (handler : Nat) : Option Request :=
  if args.context && (d = .redis || handler ≠ 0) then args.text.map fun text => ⟨text, handler⟩
  else none

/-- `query` of the managers. -/
def State.managerQuery (c : State d) (r : Request) (stale : Bool) : State d :=
  if c.closedAs stale then c else { c with items := c.items ++ [(Work.query r).item] }

/-- `query` of the bridges. -/
def State.query (c : State d) (args : Args) (stale : Bool) : State d × List (Entry d) :=
  let ref := c.refFunction args.func
  match args.request d ref.2 with
  | none => (ref.1, [])
  | some r =>
    (ref.1.managerQuery r stale,
      args.func.toList.map fun f => .called r.handler f r.text (!c.closedAs stale))

/-- `mysqlManager::close` and `redisManager::closeRedis`. -/
def State.close (c : State d) (stale : Bool) : State d :=
  if c.closedAs stale then c
  else { c with is_closed := true, items := c.items ++ [Work.close.item] }

/-- What a query's worker reads. -/
def Item.reads (item : Item d) (i : Nat) (parts : List Part) : List (Entry d) :=
  match item.work with
  | .query _ => parts.map (.read i)
  | .close => []

/-- `query_work` with the lock. -/
def State.queryWork (c : State d) (i : Nat) (item : Item d) (r : Request) (o : d.Outcome) :
    State d × List (Entry d) :=
  let seen := [.read i .connection, .outcome r.handler o c.conn]
  match if c.conn then d.queryWork r.text o else none with
  | none => ({ c with fault := some i }, seen)
  | some answer => (c.setItem i { item with phase := .worked, answer := answer }, seen)

/-- `close_work` with the lock. -/
def State.closeWork (c : State d) (i : Nat) (item : Item d) : State d × List (Entry d) :=
  if c.conn then ({ c.setItem i { item with phase := .worked } with conn := false }, [.destroyed])
  else ({ c with fault := some i }, [])

/-- `executeLuaFunc` with two arguments. -/
def State.executeLuaFunc (c : State d) (handler : Nat) (stack : Stack) : Option (List (Entry d)) :=
  match c.funcs.lookup handler with
  | none => some []
  | some f =>
    match stack with
    | res :: err :: _ => some [.func handler f err res]
    | _ => none

/-- `mysql_query_complete` and `redis_query_complete`. -/
def State.queryComplete (c : State d) (i : Nat) (item : Item d) (r : Request) :
    State d × List (Entry d) :=
  match (d.operationQue item.answer []).bind (c.executeLuaFunc r.handler) with
  | none => ({ c with fault := some i }, [])
  | some seen => ((c.setItem i { item with phase := .completed }).removeLuaFunc r.handler, seen)

/-- One event, if it can happen now. -/
def State.next (c : State d) : Event d → Option (State d × List (Entry d))
  | .query args stale => some (c.query args stale)
  | .close stale => some (c.close stale, [])
  | .start i => (c.itemAt i .queued).map fun item =>
    (c.setItem i { item with phase := .started }, item.reads i d.readsBefore)
  | .lock i =>
    if c.lock = none then
      (c.itemAt i .started).map fun item =>
        ({ c.setItem i { item with phase := .locked } with lock := some i },
          item.reads i d.readsLocked)
    else none
  | .work i o => (c.itemAt i .locked).bind fun item =>
    match item.work with
    | .query r => some (c.queryWork i item r o)
    | .close => none
  | .destroy i => (c.itemAt i .locked).bind fun item =>
    match item.work with
    | .query _ => none
    | .close => some (c.closeWork i item)
  | .unlock i => (c.itemAt i .worked).map fun item =>
    ({ c.setItem i { item with phase := .unlocked } with lock := none }, item.reads i [.lock])
  | .complete i => (c.itemAt i .unlocked).map fun item =>
    match item.work with
    | .query r => c.queryComplete i item r
    | .close => ({ c.setItem i { item with phase := .completed } with freed := true }, [.freed])

def step (c : State d) (e : Event d) : Option (State d × List (Entry d)) :=
  if c.fault = none then c.next e else none

def init (d : Driver) : State d where
  is_closed := false
  conn := true
  freed := false
  lock := none
  items := []
  funcs := []
  refid := 0
  fault := none

def run (d : Driver) (events : List (Event d)) : Option (State d × List (Entry d)) :=
  Lib.run step (init d, []) events

theorem itemAt_eq_some {c : State d} {i : Nat} {phase : Phase} {item : Item d} :
    c.itemAt i phase = some item ↔ c.items[i]? = some item ∧ item.phase = phase := by
  rw [State.itemAt, Option.filter_eq_some_iff, decide_eq_true_iff]

/-- A call shows nothing else. -/
theorem executeLuaFunc_seen {c : State d} {handler : Nat} {stack : Stack} {out : List (Entry d)}
    (h : c.executeLuaFunc handler stack = some out) :
    out = [] ∨ ∃ f err res, out = [.func handler f err res] := by
  unfold State.executeLuaFunc at h
  split at h
  · cases h
    exact .inl rfl
  · split at h
    · cases h
      exact .inr ⟨_, _, _, rfl⟩
    · cases h

/-- The arguments of a query with the text `do 1` and function 7. -/
def sampleArgs : Args := ⟨true, some [0x64, 0x6f, 0x20, 0x31], some 7⟩

end LibuvServer.Database
