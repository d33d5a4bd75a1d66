import LibuvServer.Auth.GuestLogins
import LibuvServer.Lib.SqlText
import Mathlib.Data.List.Perm.Basic
import Mathlib.Tactic.Common

/-!
# Account upgrades

`upgrade_guestAccount` of `database/auth_mysql.lua`: two queries, and a local
flag that the function of the first sets and the function body tests before
it makes the second. A query only queues its work, so the flag is tested
before any function has been called. The workers run the queries in any
order, and their functions are called in any order after that.
-/

namespace LibuvServer.Auth

open LibuvServer.Lib LibuvServer.Netbus LibuvServer.Netbus.WebProtocol LibuvServer.Mylua

namespace ErrorType

def eGuestUserNameExist : Int := -7

end ErrorType

/-! ## The database -/

/-- What the function of a query is called with: an error, the table of the
column names and the rows, or the text that stands for no result set. -/
inductive SqlRes where
  | err (err : Bytes)
  | rows (ret : List (List Bytes))
  | success
  deriving DecidableEq

/-- What statements do to the tables and how they end, and the names in the
column `account` of `primaryInfo`. A select only reads. -/
structure Database (Table : Type) where
  accounts : Table → List Bytes
  exec : Table → Bytes → Table × SqlRes
  select_reads : ∀ (t : Table) (sql : Bytes), strBytes "select" <+: sql → (exec t sql).1 = t

/-! ## The function -/

/-- Which of the two functions is called with the result of a query. -/
inductive QueryFunc where
  | onAccount
  | onInserted
  deriving DecidableEq

/-- A query: its statement and, once a worker has run it, its result. -/
structure Query where
  finalsm : Bytes
  res : Option SqlRes
  deriving DecidableEq

/-- The flag of one call, the query whose function has not been called yet,
for each function, and the database. -/
structure Upgrade (Table : Type) where
  exist : Bool
  queries : QueryFunc → Option Query
  table : Table

/-- What is seen of a call: a statement that a worker ran on the tables as
they were, and a call of `retFunc`. -/
inductive UpgradeEntry (Table : Type) where
  | ran (func : QueryFunc) (table : Table) (res : SqlRes)
  | retFunc (err ret : LuaValue)
  deriving DecidableEq

def selectAccount : Bytes := strBytes "select account from primaryInfo where account = '%s';"

def insertAccount : Bytes :=
  strBytes "insert into primaryInfo (account, password)values('%s','%s');"

def upgradeSuccess : Bytes := strBytes "upgradeGuestAccount success"

section Function

variable {Table Number : Type}

def Upgrade.setQuery (c : Upgrade Table) (func : QueryFunc) (q : Option Query) : Upgrade Table :=
  { c with queries := fun g => if g = func then q else c.queries g }

/-- `mysqlManager.query` queues the statement. -/
def Upgrade.query (c : Upgrade Table) (finalsm : Bytes) (func : QueryFunc) : Upgrade Table :=
  c.setQuery func (some ⟨finalsm, none⟩)

/-- `upgrade_guestAccount`, to its end or to a Lua error. The second format
is given a value it has no directive for. -/
def upgradeGuestAccount (lib : LuaLib Number) (mysql_conn : Bool) (username password : Bytes)
    (table : Table) : Upgrade Table × List (UpgradeEntry Table) :=
  let c : Upgrade Table := ⟨false, fun _ => none, table⟩
  if mysql_conn then
    match strFormat lib selectAccount [.string username] with
    | none => (c, [])
    | some finalsm =>
      let c := c.query finalsm .onAccount
      if c.exist then (c, [])
      else
        match strFormat lib insertAccount [.string username, .string password, .integer 0] with
        | none => (c, [])
        | some finalsm => (c.query finalsm .onInserted, [])
  else (c, [.retFunc (.string notConnect) .nil])

/-- `ret[2] ~= nil and #ret[2] > 0`. -/
def SqlRes.finds : SqlRes → Bool
  | .rows ret =>
    match ret[1]? with
    | some row => decide (row.length > 0)
    | none => false
  | .err _ | .success => false

/-- The calls of `retFunc` by the function of a query. -/
def QueryFunc.answers : QueryFunc → SqlRes → List (LuaValue × LuaValue)
  | .onAccount, .err err => [(.string err, .nil)]
  | .onAccount, res => if res.finds then [(.nil, .integer ErrorType.eGuestUserNameExist)] else []
  | .onInserted, .err err => [(.string err, .nil)]
  | .onInserted, _ => [(.nil, .string upgradeSuccess)]

/-- The function of the select sets the flag where it finds a row. -/
def QueryFunc.call (func : QueryFunc) (res : SqlRes) (c : Upgrade Table) : Upgrade Table :=
  match func with
  | .onAccount => { c with exist := c.exist || res.finds }
  | .onInserted => c

/-- What happens after the call has returned: a worker runs a query, which
may fail, or the function of a query that has run is called. -/
inductive UpgradeEvent where
  | run (func : QueryFunc) (fails : Option Bytes)
  | complete (func : QueryFunc)
  deriving DecidableEq

/-- A worker runs a statement. It reaches the server as a C string. -/
def Database.work (db : Database Table) (table : Table) (finalsm : Bytes) :
    Option Bytes → Table × SqlRes
  | some err => (table, .err err)
  | none => db.exec table (cString finalsm)

/-- One event, if it can happen now. -/
def Upgrade.step (db : Database Table) (c : Upgrade Table) :
    UpgradeEvent → Option (Upgrade Table × List (UpgradeEntry Table))
  | .run func fails =>
    match c.queries func with
    | some ⟨finalsm, none⟩ =>
      let done := db.work c.table finalsm fails
      some ({ c.setQuery func (some ⟨finalsm, some done.2⟩) with table := done.1 },
        [.ran func c.table done.2])
    | _ => none
  | .complete func =>
    match c.queries func with
    | some ⟨_, some res⟩ =>
      some (func.call res (c.setQuery func none),
        (func.answers res).map fun a => .retFunc a.1 a.2)
    | _ => none

/-- A call of `upgrade_guestAccount` and what happens after it. -/
def upgradeRun (lib : LuaLib Number) (db : Database Table) (mysql_conn : Bool)
    (username password : Bytes) (table : Table) (events : List UpgradeEvent) :
    Option (Upgrade Table × List (UpgradeEntry Table)) :=
  Lib.run (Upgrade.step db) (upgradeGuestAccount lib mysql_conn username password table) events

/-! ## What an upgrade should do -/

def UpgradeEntry.retFunc? : UpgradeEntry Table → Option (LuaValue × LuaValue)
  | .retFunc err ret => some (err, ret)
  | .ran _ _ _ => none

/-- The calls of `retFunc`. -/
def answers (trace : List (UpgradeEntry Table)) : List (LuaValue × LuaValue) :=
  trace.filterMap UpgradeEntry.retFunc?

/-- Some query of the call failed. -/
def Fails (trace : List (UpgradeEntry Table)) : Prop :=
  ∃ func t err, UpgradeEntry.ran func t (.err err) ∈ trace

/-- One answer, and the one that is due: an error without a connection, that
the name exists when it does, an error when a query failed, else success. -/
def UpgradeAnswered (db : Database Table) (mysql_conn : Bool) (username : Bytes) (table : Table)
    (trace : List (UpgradeEntry Table)) : Prop :=
  ∃ err ret, answers trace = [(err, ret)] ∧
    (mysql_conn = false → ∃ text, err = .string text ∧ ret = .nil) ∧
    (mysql_conn = true → username ∈ db.accounts table →
      err = .nil ∧ ret = .integer ErrorType.eGuestUserNameExist) ∧
    (mysql_conn = true → username ∉ db.accounts table → Fails trace →
      ∃ text, err = .string text ∧ ret = .nil) ∧
    (mysql_conn = true → username ∉ db.accounts table → ¬ Fails trace →
      err = .nil ∧ ret = .string upgradeSuccess)

/-- The name is inserted only where it does not exist. -/
def InsertsFree (db : Database Table) (username : Bytes) (trace : List (UpgradeEntry Table)) :
    Prop :=
  ∀ t res, UpgradeEntry.ran .onInserted t res ∈ trace → (∀ err, res ≠ .err err) →
    username ∉ db.accounts t

/-- The select found nothing: it ran, did not fail, and gave no row. -/
def FoundNothing (trace : List (UpgradeEntry Table)) : Prop :=
  ∃ t res, UpgradeEntry.ran .onAccount t res ∈ trace ∧ (∀ err, res ≠ .err err) ∧
    res.finds = false

end Function

/-! ## The statements -/

section Statements

variable {Number : Type} {lib : LuaLib Number}

/-- The select with the name in its place. -/
def selectText (username : Bytes) : Bytes :=
  strBytes "select account from primaryInfo where account = '" ++ (username ++ strBytes "';")

/-- The insert with the name and the password in their places. -/
def insertText (username password : Bytes) : Bytes :=
  strBytes "insert into primaryInfo (account, password)values('" ++
    (username ++ (strBytes "','" ++ (password ++ strBytes "');")))

theorem strFormat_selectAccount (username : Bytes) :
    strFormat lib selectAccount [.string username] = some (selectText username) := by
  have hsplit : selectAccount =
      strBytes "select account from primaryInfo where account = '" ++ strBytes "%s" ++
        strBytes "';" := by decide +kernel
  rw [hsplit]
  exact strFormat_string (by decide +kernel) (by decide +kernel) _

/-- The value there is no directive for is ignored. -/
theorem strFormat_insertAccount (username password : Bytes) :
    strFormat lib insertAccount [.string username, .string password, .integer 0] =
      some (insertText username password) := by
  have hsplit : insertAccount =
      strBytes "insert into primaryInfo (account, password)values('" ++ 0x25 :: 0x73 ::
        (strBytes "','" ++ 0x25 :: 0x73 :: (strBytes "');" ++ [])) := by decide +kernel
  have hlast : strFormat lib (strBytes "');" ++ []) [.integer 0] = some (strBytes "');") := by
    rw [strFormat_plain (by decide +kernel), strFormat, Option.map_some, List.append_nil]
  rw [hsplit, strFormat_plain (by decide +kernel), strFormat_percent_s,
    strFormat_plain (by decide +kernel), strFormat_percent_s, hlast]
  rfl

/-- The statement of the query of a function. -/
def statement (username password : Bytes) : QueryFunc → Bytes
  | .onAccount => selectText username
  | .onInserted => insertText username password

theorem selectText_select (username : Bytes) :
    strBytes "select" <+: cString (selectText username) := by
  have hsplit : strBytes "select account from primaryInfo where account = '" =
      strBytes "select" ++ strBytes " account from primaryInfo where account = '" := by
    decide +kernel
  have hword : ∀ c ∈ strBytes "select", c ≠ 0 := by decide +kernel
  rw [selectText, hsplit, List.append_assoc, cString,
    List.takeWhile_append_of_pos (by simpa using hword)]
  exact List.prefix_append _ _

end Statements

/-! ## Runs -/

section Runs

variable {Table Number : Type} {lib : LuaLib Number} {db : Database Table}

/-- How far the query of a function has come. -/
inductive Status where
  | queued
  | ran (res : SqlRes)
  | called (res : SqlRes)

def Status.query (finalsm : Bytes) : Status → Option Query
  | .queued => some ⟨finalsm, none⟩
  | .ran res => some ⟨finalsm, some res⟩
  | .called _ => none

def Status.res? : Status → Option SqlRes
  | .queued => none
  | .ran res | .called res => some res

def Status.answers (func : QueryFunc) : Status → List (LuaValue × LuaValue)
  | .called res => func.answers res
  | .queued | .ran _ => []

/-- What has happened is what the two queries have come to, in either order;
until the insert has run the tables are as they were. -/
structure Upgrading (finalsm : QueryFunc → Bytes) (table : Table) (st : QueryFunc → Status)
    (c : Upgrade Table × List (UpgradeEntry Table)) : Prop where
  queries : ∀ func, c.1.queries func = (st func).query (finalsm func)
  answers : (answers c.2).Perm
    ((st .onAccount).answers .onAccount ++ (st .onInserted).answers .onInserted)
  ran : ∀ func res, (∃ t, .ran func t res ∈ c.2) ↔ (st func).res? = some res
  inserts : ∀ t res, .ran .onInserted t res ∈ c.2 → t = table
  table : (st .onInserted).res? = none → c.1.table = table

def setStatus (st : QueryFunc → Status) (func : QueryFunc) (s : Status) : QueryFunc → Status :=
  fun g => if g = func then s else st g

@[simp] theorem answers_ran (trace : List (UpgradeEntry Table)) (func : QueryFunc) (t : Table)
    (res : SqlRes) : answers (trace ++ [.ran func t res]) = answers trace := by
  simp [answers, UpgradeEntry.retFunc?]

@[simp] theorem answers_called (trace : List (UpgradeEntry Table))
    (calls : List (LuaValue × LuaValue)) :
    answers (trace ++ calls.map fun a => .retFunc a.1 a.2) = answers trace ++ calls := by
  have hcalls : (calls.map fun a => (.retFunc a.1 a.2 : UpgradeEntry Table)).filterMap
      UpgradeEntry.retFunc? = calls := by
    rw [List.filterMap_map]
    exact List.filterMap_some
  rw [answers, List.filterMap_append, hcalls, answers]

theorem Status.query_queued {finalsm sql : Bytes} {s : Status}
    (h : s.query finalsm = some ⟨sql, none⟩) : s = .queued ∧ sql = finalsm := by
  cases s with
  | queued =>
    cases h
    exact ⟨rfl, rfl⟩
  | ran res => cases h
  | called res => cases h

theorem Status.query_ran {finalsm sql : Bytes} {res : SqlRes} {s : Status}
    (h : s.query finalsm = some ⟨sql, some res⟩) : s = .ran res := by
  cases s with
  | queued => cases h
  | ran res' =>
    cases h
    rfl
  | called res' => cases h

/-- The table of queries after one of them has gone on. -/
theorem queries_set {finalsm : QueryFunc → Bytes} {st : QueryFunc → Status} {c : Upgrade Table}
    (h : ∀ g, c.queries g = (st g).query (finalsm g)) (func : QueryFunc) (s : Status)
    (g : QueryFunc) :
    (c.setQuery func (s.query (finalsm func))).queries g =
      (setStatus st func s g).query (finalsm g) := by
  unfold Upgrade.setQuery setStatus
  by_cases hfg : g = func
  · rw [hfg]
    simp only [if_true]
  · simp only [if_neg hfg]
    exact h g

/-- A worker runs a query. -/
theorem Upgrading.work {finalsm : QueryFunc → Bytes} {table : Table} {st : QueryFunc → Status}
    {c : Upgrade Table} {trace : List (UpgradeEntry Table)} {func : QueryFunc}
    (h : Upgrading finalsm table st (c, trace)) (hq : st func = .queued)
    (hselect : strBytes "select" <+: cString (finalsm .onAccount)) (fails : Option Bytes) :
    Upgrading finalsm table
      (setStatus st func (.ran (db.work c.table (finalsm func) fails).2))
      ({ c.setQuery func (some ⟨finalsm func, some (db.work c.table (finalsm func) fails).2⟩) with
        table := (db.work c.table (finalsm func) fails).1 },
        trace ++ [.ran func c.table (db.work c.table (finalsm func) fails).2]) where
  queries := queries_set h.queries func (.ran (db.work c.table (finalsm func) fails).2)
  answers := by
    have hans := h.answers
    rw [answers_ran]
    cases func with
    | onAccount =>
      rw [hq] at hans
      exact hans
    | onInserted =>
      rw [hq] at hans
      exact hans
  ran g res := by
    have hg := h.ran g res
    by_cases hfg : g = func
    · subst hfg
      have hset : (setStatus st g (.ran (db.work c.table (finalsm g) fails).2) g).res? =
          some (db.work c.table (finalsm g) fails).2 := by
        rw [setStatus, if_pos rfl]
        rfl
      rw [hset, Option.some.injEq]
      constructor
      · rintro ⟨t, ht⟩
        rcases List.mem_append.mp ht with ht | ht
        · have hnone := hg.mp ⟨t, ht⟩
          rw [hq] at hnone
          cases hnone
        · simp only [List.mem_singleton, UpgradeEntry.ran.injEq] at ht
          exact ht.2.2.symm
      · rintro rfl
        exact ⟨c.table, by simp⟩
    · simpa [setStatus, hfg] using hg
  inserts t res ht := by
    rcases List.mem_append.mp ht with ht | ht
    · exact h.inserts t res ht
    · simp only [List.mem_singleton, UpgradeEntry.ran.injEq] at ht
      obtain ⟨rfl, rfl, -⟩ := ht
      exact h.table (by rw [hq]; rfl)
  table hnone := by
    cases func with
    | onInserted => cases hnone
    | onAccount =>
      rw [← h.table hnone]
      cases fails with
      | some err => rfl
      | none => exact db.select_reads _ _ hselect

/-- The function of a query that has run is called. -/
theorem Upgrading.call {finalsm : QueryFunc → Bytes} {table : Table} {st : QueryFunc → Status}
    {c : Upgrade Table} {trace : List (UpgradeEntry Table)} {func : QueryFunc} {res : SqlRes}
    (h : Upgrading finalsm table st (c, trace)) (hq : st func = .ran res) :
    Upgrading finalsm table (setStatus st func (.called res))
      (func.call res (c.setQuery func none),
        trace ++ (func.answers res).map fun a => .retFunc a.1 a.2) where
  queries g := by
    have hcall :
        (func.call res (c.setQuery func none)).queries = (c.setQuery func none).queries := by
      cases func <;> rfl
    rw [hcall]
    exact queries_set h.queries func (.called res) g
  answers := by
    have hans := h.answers
    rw [answers_called]
    cases func with
    | onAccount =>
      -- what the other function has answered stands after it
      rw [hq] at hans
      exact (hans.append_right _).trans List.perm_append_comm
    | onInserted =>
      rw [hq] at hans
      have hperm := hans.append_right (QueryFunc.onInserted.answers res)
      rwa [Status.answers, List.append_nil] at hperm
  ran g res' := by
    have hmem : ∀ t, .ran g t res' ∈ trace ++ (func.answers res).map (fun a => .retFunc a.1 a.2) ↔
        UpgradeEntry.ran g t res' ∈ trace := by
      intro t
      simp
    simp only [hmem]
    rw [h.ran g res']
    by_cases hfg : g = func
    · subst hfg
      rw [hq, setStatus, if_pos rfl]
      rfl
    · rw [setStatus, if_neg hfg]
  inserts t res' ht := by
    refine h.inserts t res' ?_
    simpa using ht
  table hnone := by
    have htable : (func.call res (c.setQuery func none)).table = c.table := by
      cases func <;> rfl
    rw [htable]
    refine h.table ?_
    cases func with
    | onInserted => cases hnone
    | onAccount => exact hnone

/-- **A step moves one of the two queries on.** -/
theorem Upgrading.step {finalsm : QueryFunc → Bytes} {table : Table} {st : QueryFunc → Status}
    {c c' : Upgrade Table × List (UpgradeEntry Table)} {e : UpgradeEvent}
    (h : Upgrading finalsm table st c)
    (hselect : strBytes "select" <+: cString (finalsm .onAccount))
    (hrecord : record (Upgrade.step db) c e = some c') : ∃ st', Upgrading finalsm table st' c' := by
  obtain ⟨s, out, hstep, rfl⟩ := record_eq_some.mp hrecord
  cases e with
  | run func fails =>
    simp only [Upgrade.step] at hstep
    split at hstep
    · rename_i sql hquery
      cases hstep
      rw [h.queries func] at hquery
      obtain ⟨hq, rfl⟩ := Status.query_queued hquery
      exact ⟨_, h.work hq hselect fails⟩
    · cases hstep
  | complete func =>
    simp only [Upgrade.step] at hstep
    split at hstep
    · rename_i sql res hquery
      cases hstep
      rw [h.queries func] at hquery
      exact ⟨_, h.call (Status.query_ran hquery)⟩
    · cases hstep

theorem upgradeGuestAccount_connected (username password : Bytes) (table : Table) :
    Upgrading (statement username password) table (fun _ => .queued)
      (upgradeGuestAccount lib true username password table) := by
  have hcall : upgradeGuestAccount lib true username password table =
      (⟨false, fun func => some ⟨statement username password func, none⟩, table⟩, []) := by
    have hflag : ((⟨false, fun _ => none, table⟩ : Upgrade Table).query (selectText username)
        .onAccount).exist = false := rfl
    simp only [upgradeGuestAccount, if_true, strFormat_selectAccount, strFormat_insertAccount,
      hflag]
    rw [if_neg Bool.false_ne_true, Upgrade.query, Upgrade.query, Upgrade.setQuery,
      Upgrade.setQuery]
    congr 2
    funext func
    cases func <;> rfl
  rw [hcall]
  refine ⟨fun _ => rfl, List.Perm.refl _, fun func res => ?_, fun t res ht => ?_, fun _ => rfl⟩
  · simp [Status.res?]
  · simp at ht

/-- A finished call: each of the two functions has been called once. -/
theorem upgradeRun_connected {username password : Bytes} {table : Table}
    {events : List UpgradeEvent} {c : Upgrade Table × List (UpgradeEntry Table)}
    (hrun : upgradeRun lib db true username password table events = some c)
    (hdone : ∀ func, c.1.queries func = none) :
    ∃ res : QueryFunc → SqlRes,
      (answers c.2).Perm (QueryFunc.onAccount.answers (res .onAccount) ++
        QueryFunc.onInserted.answers (res .onInserted)) ∧
      (∀ func r, (∃ t, .ran func t r ∈ c.2) ↔ r = res func) ∧
      ∀ t r, .ran .onInserted t r ∈ c.2 → t = table := by
  have hend : ∃ st, Upgrading (statement username password) table st c :=
    run_invariant (P := fun _ _ => True)
      (I := fun c => ∃ st, Upgrading (statement username password) table st c)
      (fun _ _ _ ⟨_, h⟩ _ hstep => h.step (selectText_select username) hstep)
      ⟨_, upgradeGuestAccount_connected username password table⟩ (along_true _ _) hrun
  obtain ⟨st, h⟩ := hend
  have hcalled : ∀ func, ∃ res, st func = .called res := by
    intro func
    have hq := h.queries func
    rw [hdone func] at hq
    cases hst : st func with
    | queued =>
      rw [hst] at hq
      cases hq
    | ran res =>
      rw [hst] at hq
      cases hq
    | called res => exact ⟨res, rfl⟩
  choose res hres using hcalled
  refine ⟨res, ?_, fun func r => ?_, h.inserts⟩
  · have hans := h.answers
    rw [hres, hres] at hans
    exact hans
  · rw [h.ran func r, hres func, Status.res?, Option.some.injEq, eq_comm]

/-- Without a connection nothing is queued. -/
theorem upgradeRun_unconnected {username password : Bytes} {table : Table}
    {events : List UpgradeEvent} {c : Upgrade Table × List (UpgradeEntry Table)}
    (hrun : upgradeRun lib db false username password table events = some c) :
    c.2 = [.retFunc (.string notConnect) .nil] := by
  have hidle : (∀ func, c.1.queries func = none) ∧ c.2 = [.retFunc (.string notConnect) .nil] := by
    refine run_invariant (P := fun _ _ => True)
      (I := fun c => (∀ func, c.1.queries func = none) ∧ c.2 = [.retFunc (.string notConnect) .nil])
      (fun c e c' h _ hrecord => ?_) ⟨fun _ => rfl, rfl⟩ (along_true _ _) hrun
    obtain ⟨s, out, hstep, rfl⟩ := record_eq_some.mp hrecord
    cases e with
    | run func fails => simp [Upgrade.step, h.1 func] at hstep
    | complete func => simp [Upgrade.step, h.1 func] at hstep
  exact hidle.2

/-- The function of the insert always answers, once. -/
theorem answers_onInserted (res : SqlRes) :
    (∃ err, res = .err err ∧ QueryFunc.onInserted.answers res = [(.string err, .nil)]) ∨
      ((∀ err, res ≠ .err err) ∧
        QueryFunc.onInserted.answers res = [(.nil, .string upgradeSuccess)]) := by
  cases res with
  | err err => exact .inl ⟨err, rfl, rfl⟩
  | rows ret => exact .inr ⟨by simp, rfl⟩
  | success => exact .inr ⟨by simp, rfl⟩

/-- The function of the select does not answer when nothing was found. -/
theorem answers_onAccount {res : SqlRes} :
    QueryFunc.onAccount.answers res = [] ↔ (∀ err, res ≠ .err err) ∧ res.finds = false := by
  cases res with
  | err err => simp [QueryFunc.answers]
  | rows ret => simp [QueryFunc.answers]
  | success => simp [QueryFunc.answers]

/-- **An upgrade does what it should** just when the name does not exist and
the select ends without an error and without a row. -/
theorem account_upgrades (lib : LuaLib Number) (db : Database Table) (mysql_conn : Bool)
    (username password : Bytes) (table : Table) (events : List UpgradeEvent)
    (c : Upgrade Table) (trace : List (UpgradeEntry Table))
    (hrun : upgradeRun lib db mysql_conn username password table events = some (c, trace))
    (hdone : ∀ func, c.queries func = none) :
    (InsertsFree db username trace ∧ UpgradeAnswered db mysql_conn username table trace) ↔
      mysql_conn = false ∨ (username ∉ db.accounts table ∧ FoundNothing trace) := by
  cases mysql_conn with
  | false =>
    have htrace := upgradeRun_unconnected hrun
    simp only at htrace
    subst htrace
    refine iff_of_true ⟨fun t res ht => ?_, ?_⟩ (.inl rfl)
    · simp at ht
    · refine ⟨.string notConnect, .nil, rfl, fun _ => ⟨notConnect, rfl, rfl⟩, ?_, ?_, ?_⟩ <;> simp
  | true =>
    obtain ⟨res, hperm, hran, htable⟩ := upgradeRun_connected hrun hdone
    have hfound : FoundNothing trace ↔
        (∀ err, res .onAccount ≠ .err err) ∧ (res .onAccount).finds = false := by
      constructor
      · rintro ⟨t, r, ht, hr⟩
        rwa [(hran .onAccount r).mp ⟨t, ht⟩] at hr
      · intro hr
        obtain ⟨t, ht⟩ := (hran .onAccount _).mpr rfl
        exact ⟨t, _, ht, hr⟩
    rw [← answers_onAccount] at hfound
    simp only [Bool.true_eq_false, false_or]
    constructor
    · rintro ⟨-, err, ret, hone, -, htaken, -⟩
      -- the function of the insert has answered, so the other has not
      rw [hone] at hperm
      have hnone : QueryFunc.onAccount.answers (res .onAccount) = [] := by
        have hlen := hperm.length_eq
        rcases answers_onInserted (res .onInserted) with ⟨e, -, hins⟩ | ⟨-, hins⟩ <;>
          · rw [hins, List.length_append, List.length_singleton, List.length_singleton] at hlen
            exact List.eq_nil_of_length_eq_zero (by omega)
      refine ⟨fun hexists => ?_, hfound.mpr hnone⟩
      obtain ⟨rfl, rfl⟩ := htaken rfl hexists
      rw [hnone, List.nil_append] at hperm
      rcases answers_onInserted (res .onInserted) with ⟨e, -, hins⟩ | ⟨-, hins⟩
      · rw [hins] at hperm
        simp at hperm
      · rw [hins] at hperm
        simp at hperm
    · rintro ⟨hfree, hnothing⟩
      have hnone := hfound.mp hnothing
      rw [hnone, List.nil_append] at hperm
      refine ⟨fun t r ht _ => by rwa [htable t r ht], ?_⟩
      rcases answers_onInserted (res .onInserted) with ⟨e, hres, hins⟩ | ⟨hres, hins⟩
      · rw [hins] at hperm
        have hfails : Fails trace := by
          obtain ⟨t, ht⟩ := (hran .onInserted (.err e)).mpr hres.symm
          exact ⟨_, t, e, ht⟩
        refine ⟨.string e, .nil, List.perm_singleton.mp hperm, by simp, ?_, ?_, ?_⟩
        · exact fun _ hexists => absurd hexists hfree
        · exact fun _ _ _ => ⟨e, rfl, rfl⟩
        · exact fun _ _ h => absurd hfails h
      · rw [hins] at hperm
        have hok : ¬ Fails trace := by
          rintro ⟨func, t, e, ht⟩
          have he := (hran func _).mp ⟨t, ht⟩
          cases func with
          | onAccount => exact (answers_onAccount.mp hnone).1 e he.symm
          | onInserted => exact hres e he.symm
        refine ⟨.nil, .string upgradeSuccess, List.perm_singleton.mp hperm, by simp, ?_, ?_, ?_⟩
        · exact fun _ hexists => absurd hexists hfree
        · exact fun _ _ h => absurd h hok
        · exact fun _ _ _ => ⟨rfl, rfl⟩

end Runs

/-! ## A database -/

/-- The string literals of a statement. -/
def literals (sql : Bytes) : Option (List Bytes) :=
  (SqlText.lex sql).map fun tokens => tokens.filterMap fun
    | .literal value => some value
    | .char _ => none

/-- `primaryInfo` under the two statements, as a table without constraints. -/
def primaryInfo : Database (List (Bytes × Bytes)) where
  accounts rows := rows.map (·.1)
  exec rows sql :=
    if strBytes "select" <+: sql then
      match literals sql with
      | some [name] =>
        (rows, .rows ([strBytes "account"] :: (rows.filter (·.1 = name)).map fun row => [row.1]))
      | _ => (rows, .err (strBytes "1064"))
    else
      match literals sql with
      | some [name, password] => (rows ++ [(name, password)], .success)
      | _ => (rows, .err (strBytes "1064"))
  select_reads rows sql h := by
    rw [if_pos h]
    split <;> rfl

/-- The queries run in the order they were made, and are then answered. -/
def inOrder : List UpgradeEvent :=
  [.run .onAccount none, .run .onInserted none, .complete .onAccount, .complete .onInserted]

/-- An upgrade to the name `bob`, and what is seen of it. -/
def upgradeBob (rows : List (Bytes × Bytes)) :
    Option (Upgrade (List (Bytes × Bytes)) × List (UpgradeEntry (List (Bytes × Bytes)))) :=
  upgradeRun decimalLib primaryInfo true (strBytes "bob") (strBytes "pw") rows inOrder

/-- The name is free. -/
theorem account_upgrades_free :
    ∃ c trace, upgradeBob [] = some (c, trace) ∧ InsertsFree primaryInfo (strBytes "bob") trace ∧
      UpgradeAnswered primaryInfo true (strBytes "bob") [] trace := by
  have hsum : (upgradeBob []).map (fun c =>
      decide (c.1.queries .onAccount = none ∧ c.1.queries .onInserted = none ∧
        .ran .onAccount [] (.rows [[strBytes "account"]]) ∈ c.2)) = some true := by
    decide +kernel
  obtain ⟨⟨c, trace⟩, hrun, hc⟩ := Option.map_eq_some_iff.mp hsum
  obtain ⟨hfirst, hsecond, hran⟩ := of_decide_eq_true hc
  have hdone : ∀ func, c.queries func = none := by
    intro func
    cases func
    · exact hfirst
    · exact hsecond
  exact ⟨c, trace, hrun, (account_upgrades decimalLib primaryInfo true (strBytes "bob")
    (strBytes "pw") [] inOrder c trace hrun hdone).mpr
      (.inr ⟨by simp [primaryInfo], [], _, hran, by simp, rfl⟩)⟩

/-- The name is taken: it is entered again, and `retFunc` is called twice. -/
theorem account_upgrades_taken :
    ¬ ∀ (events : List UpgradeEvent) (rows : List (Bytes × Bytes))
      (c : Upgrade (List (Bytes × Bytes))) (trace : List (UpgradeEntry (List (Bytes × Bytes)))),
      upgradeRun decimalLib primaryInfo true (strBytes "bob") (strBytes "pw") rows events =
        some (c, trace) → (∀ func, c.queries func = none) →
      InsertsFree primaryInfo (strBytes "bob") trace ∧
        UpgradeAnswered primaryInfo true (strBytes "bob") rows trace := by
  intro hall
  have hsum : (upgradeBob [(strBytes "bob", strBytes "old")]).map (fun c =>
      decide (c.1.queries .onAccount = none ∧ c.1.queries .onInserted = none ∧
        answers c.2 = [(.nil, .integer ErrorType.eGuestUserNameExist),
          (.nil, .string upgradeSuccess)])) = some true := by
    decide +kernel
  obtain ⟨⟨c, trace⟩, hrun, hc⟩ := Option.map_eq_some_iff.mp hsum
  obtain ⟨hfirst, hsecond, htwice⟩ := of_decide_eq_true hc
  have hdone : ∀ func, c.queries func = none := by
    intro func
    cases func
    · exact hfirst
    · exact hsecond
  obtain ⟨-, err, ret, hone, -⟩ := hall _ _ c trace hrun hdone
  rw [htwice] at hone
  cases hone

end LibuvServer.Auth
