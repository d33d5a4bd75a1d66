import LibuvServer.Lib.CInt
import LibuvServer.Utils.PoolIntegrity
import Mathlib.Logic.Function.Basic
import Mathlib.Tactic.Common

/-!
# Timers of Lua functions

`utils/time.cc` and `mylua/utils/lua_schedule.cc`: a timer is a struct of its
own for libuv and a block of the small cache for the Lua side, each with a
count of what is left to repeat. The n-th timer that is scheduled gets the
number n, for both of its blocks; a number is never used again, so a pointer
that outlives its block is seen to do so even if the memory has a new owner.
-/

namespace LibuvServer.Mylua

open LibuvServer.Lib LibuvServer.Utils

/-- The sizes of the blocks of the small cache, and how many there are. -/
def SMALLCACHE : Nat := 128
def SMALLCACHENUM : Nat := 10240

/-- `sizeof(scheduleInfo)`, two `int`s. -/
def SCHEDULE_SIZE : Nat := 8

/-- `scheduleInfo`, and the block it is in. -/
structure ScheduleInfo where
  handle : Nat
  repeatCount : Int
  addr : Nat
  deriving DecidableEq

/-- `timer`, with what libuv keeps in `uvTimer`: the interval, and whether it
is started. The times themselves do not matter here: a started timer may be
due at any moment. -/
structure Timer where
  uData : Nat
  repeatCount : Int
  repeatmsec : Int
  active : Bool
  deriving DecidableEq

/-- What an observer of the run sees. -/
inductive Effect where
  | called (handle : Nat)
  | removed (handle : Nat)
  | freedInfo (i : Nat)
  | freedTimer (i : Nat)
  deriving DecidableEq

/-- What a Lua function asks for. The `heap` of a call is the block `malloc`
would answer if the small cache is empty. -/
inductive Act where
  | scheduleRepeat (isFunction : Bool) (afterMsec repeatCount repeatMsec : Int) (heap : Nat)
  | scheduleOnce (isFunction : Bool) (afterMsec : Int) (heap : Nat)
  | cancel (t : Nat)
  deriving DecidableEq

/-- The timers and what they use: the small cache, the functions of the
registry and the number the last of them got. -/
structure Timers where
  smallCache : Pool
  timers : Nat → Option Timer
  infos : Nat → Option ScheduleInfo
  next : Nat
  /-- A `static int`; that it overflows after `2 ^ 31 - 1` functions is left out. -/
  s_function_ref_id : Nat
  functions : Nat → Bool
  /-- A block was used after it was freed; what follows is not defined. -/
  broken : Bool

/-- Why a computation goes no further. -/
inductive Stop where
  /-- A block is used after it was freed. -/
  | freed
  /-- A handle is cancelled whose timer is over, or `malloc` answers a block
  it cannot: not one of the runs looked at. -/
  | outside
  deriving DecidableEq

namespace Timers

variable (w : Timers)

/-! ## The blocks -/

def setTimer (t : Nat) (tm : Timer) : Timers :=
  { w with timers := Function.update w.timers t (some tm) }

/-- `freeTimer`, after `uv_timer_stop`. There is no `uv_close`, and what libuv
does with the handle in freed memory is left out. -/
def freeTimer (t : Nat) : Timers := { w with timers := Function.update w.timers t none }

def setInfo (i : Nat) (tr : ScheduleInfo) : Timers :=
  { w with infos := Function.update w.infos i (some tr) }

/-- `LuaInterface::removeLuaFunc`. -/
def removeLuaFunc (handle : Nat) : Timers :=
  { w with functions := Function.update w.functions handle false }

/-- `toluafix_ref_function` of a function. -/
def refFunction : Timers :=
  { w with
    s_function_ref_id := w.s_function_ref_id + 1
    functions := Function.update w.functions (w.s_function_ref_id + 1) true }

/-- `smallCacheFree` of a `scheduleInfo`. -/
def smallCacheFree (i : Nat) : Except Stop Timers :=
  match w.infos i with
  | none => .error .freed
  | some tr =>
    match w.smallCache.give tr.addr with
    | none => .error .freed
    | some smallCache =>
      .ok { w with smallCache := smallCache, infos := Function.update w.infos i none }

/-- `removeLuaFunc` and `smallCacheFree` of the `scheduleInfo` at `tr`. -/
def releaseInfo (i : Nat) (tr : ScheduleInfo) : Except Stop (Timers × List Effect) := do
  let w ← (w.removeLuaFunc tr.handle).smallCacheFree i
  return (w, [.removed tr.handle, .freedInfo i])

/-! ## What Lua calls -/

/-- `smallCacheAllocer` of a `scheduleInfo` and `scheduleRepeat` of
`utils/time.cc` with it. -/
def scheduleRepeat (handle : Nat) (repeatCount repeatmsec : Int) (heap : Nat) :
    Except Stop (Timers × List Effect) :=
  match w.smallCache.take SCHEDULE_SIZE heap with
  | none => .error .outside
  | some (block, smallCache) =>
    .ok ({ w with
      smallCache := smallCache
      infos := Function.update w.infos w.next (some ⟨handle, repeatCount, block.addr⟩)
      timers := Function.update w.timers w.next (some ⟨w.next, repeatCount, repeatmsec, true⟩)
      next := w.next + 1 }, [])

/-- `lua_scheduleRepeat`. -/
def luaScheduleRepeat (isFunction : Bool) (afterMsec repeatCount repeatMsec : Int) (heap : Nat) :
    Except Stop (Timers × List Effect) :=
  let afterMsec := toInt afterMsec
  let repeatCount := toInt repeatCount
  let repeatMsec := toInt repeatMsec
  if isFunction then
    let w := w.refFunction
    let handle := w.s_function_ref_id
    if afterMsec ≠ 0 ∧ repeatCount ≠ 0 then
      let repeatMsec := if repeatMsec = 0 then afterMsec else repeatMsec
      w.scheduleRepeat handle repeatCount repeatMsec heap
    else .ok (w.removeLuaFunc handle, [.removed handle])
  else .ok (w, [])

/-- `lua_scheduleOnce`. -/
def luaScheduleOnce (isFunction : Bool) (afterMsec : Int) (heap : Nat) :
    Except Stop (Timers × List Effect) :=
  let afterMsec := toInt afterMsec
  if isFunction then
    let w := w.refFunction
    let handle := w.s_function_ref_id
    if 0 < afterMsec then w.scheduleRepeat handle 1 0 heap
    else .ok (w.removeLuaFunc handle, [.removed handle])
  else .ok (w, [])

/-- `cancelTimer` of `utils/time.cc`. -/
def cancelTimer (t : Nat) : Except Stop (Timers × List Effect) :=
  match w.timers t with
  | none => .error .freed
  | some tm => if tm.repeatCount = 0 then .ok (w, []) else .ok (w.freeTimer t, [.freedTimer t])

/-- `lua_cancelTimer`. -/
def luaCancelTimer (t : Nat) : Except Stop (Timers × List Effect) :=
  match w.timers t with
  | none => .error .outside
  | some scheduler =>
    match w.infos scheduler.uData with
    | none => .error .freed
    | some tr => do
      let (w, out) ← w.releaseInfo scheduler.uData tr
      let (w, more) ← w.cancelTimer t
      return (w, out ++ more)

def act : Act → Except Stop (Timers × List Effect)
  | .scheduleRepeat isFunction afterMsec repeatCount repeatMsec heap =>
    w.luaScheduleRepeat isFunction afterMsec repeatCount repeatMsec heap
  | .scheduleOnce isFunction afterMsec heap => w.luaScheduleOnce isFunction afterMsec heap
  | .cancel t => w.luaCancelTimer t

/-- A Lua function that asks for one thing after another. -/
def actAll (w : Timers) : List Act → Except Stop (Timers × List Effect)
  | [] => .ok (w, [])
  | a :: acts => do
    let (w, out) ← w.act a
    let (w, more) ← w.actAll acts
    return (w, out ++ more)

/-! ## Ticks -/

/-- `LuaInterface::executeLuaFunc`. -/
def executeLuaFunc (handle : Nat) (acts : List Act) : Except Stop (Timers × List Effect) :=
  if w.functions handle then do
    let (w, out) ← w.actAll acts
    return (w, .called handle :: out)
  else .ok (w, [])

/-- `luaScheduler` after its function has run. -/
def luaSchedulerEnd (uData : Nat) : Except Stop (Timers × List Effect) :=
  match w.infos uData with
  | none => .error .freed
  | some tr =>
    if tr.repeatCount = -1 then .ok (w, [])
    else
      let tr := { tr with repeatCount := toInt (tr.repeatCount - 1) }
      if tr.repeatCount ≤ 0 then w.releaseInfo uData tr else .ok (w.setInfo uData tr, [])

/-- `luaScheduler`; the function asks for `acts`. -/
def luaScheduler (uData : Nat) (acts : List Act) : Except Stop (Timers × List Effect) :=
  match w.infos uData with
  | none => .error .freed
  | some tr => do
    let (w, out) ← w.executeLuaFunc tr.handle acts
    let (w, more) ← w.luaSchedulerEnd uData
    return (w, out ++ more)

/-- `onUvTimer` after `onTimer` has returned. -/
def onUvTimerEnd (t : Nat) : Except Stop (Timers × List Effect) :=
  match w.timers t with
  | none => .error .freed
  | some tm => if tm.repeatCount = 0 then .ok (w.freeTimer t, [.freedTimer t]) else .ok (w, [])

/-- `onUvTimer`. -/
def onUvTimer (t : Nat) (acts : List Act) : Except Stop (Timers × List Effect) :=
  match w.timers t with
  | none => .error .freed
  | some tm =>
    if tm.repeatCount < 0 then w.luaScheduler tm.uData acts
    else do
      let w := w.setTimer t { tm with repeatCount := tm.repeatCount - 1 }
      let (w, out) ← w.luaScheduler tm.uData acts
      let (w, more) ← w.onUvTimerEnd t
      return (w, out ++ more)

/-- libuv on a timer that is due: it is started again if it has an interval,
and then called back. -/
def due (t : Nat) (tm : Timer) : Timers := w.setTimer t { tm with active := tm.repeatmsec ≠ 0 }

end Timers

/-- What happens next: Lua code that runs on its own asks for something, or a
timer is due, whose function then asks for `acts`. -/
inductive TimerEvent where
  | lua (a : Act)
  | tick (t : Nat) (acts : List Act)
  deriving DecidableEq

namespace Timers

/-- An event on timers that are in order. -/
def handle (w : Timers) : TimerEvent → Except Stop (Timers × List Effect)
  | .lua a => w.act a
  | .tick t acts =>
    match w.timers t with
    | none => .error .outside
    | some tm => if tm.active then (w.due t tm).onUvTimer t acts else .error .outside

/-- One event, if it can happen now. -/
def step (w : Timers) (e : TimerEvent) : Option (Timers × List Effect) :=
  if w.broken then none
  else
    match w.handle e with
    | .ok r => some r
    | .error .freed => some ({ w with broken := true }, [])
    | .error .outside => none

/-- A program that has scheduled nothing yet. -/
def start (cacheMem : Nat) (mem : Mem) : Timers where
  smallCache := Pool.start cacheMem mem SMALLCACHENUM SMALLCACHE
  timers _ := none
  infos _ := none
  next := 0
  s_function_ref_id := 0
  functions _ := false
  broken := false

end Timers

end LibuvServer.Mylua
