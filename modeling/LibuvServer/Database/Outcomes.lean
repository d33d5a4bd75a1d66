import LibuvServer.Database.Database
import Mathlib.Tactic.Common

/-!
# Outcomes of the drivers

Which outcomes get through `query_work` and the callback of the bridge, so
that the function can be called with an error or with a result.
-/

namespace LibuvServer.Database

open LibuvServer.Lib LibuvServer.Lib.LuaStack LibuvServer.Netbus LibuvServer.Mylua

/-! ## Replies of redis -/

mutual

/-- How many values in a reply `pushredisQueryRes` has no case for. -/
def unpushed : RedisReply → Nat
  | .integer _ | .string _ | .status _ | .nil => 0
  | .array element => unpushedIn element
  | .error _ | .other => 1

def unpushedIn : List RedisReply → Nat
  | [] => 0
  | reply :: element => unpushed reply + unpushedIn element

end

mutual

/-- A reply of which everything is pushed makes one value, `nil` from `nil`
only. -/
theorem pushredisQueryRes_pushes : (reply : RedisReply) → unpushed reply = 0 →
    ∃ value, Pushes (pushredisQueryRes reply) value ∧ (isNil value = true ↔ reply = .nil)
  | .integer n, _ => ⟨_, pushinteger_pushes n, by simp [isNil]⟩
  | .string str, _ => ⟨_, pushstring_pushes str, by simp [isNil]⟩
  | .status str, _ => ⟨_, pushstring_pushes str, by simp [isNil]⟩
  | .nil, _ => ⟨_, pushnil_pushes, by simp [isNil]⟩
  | .array element, h => by
    obtain ⟨values, hvalues⟩ := pushElements_pushes element h
    exact ⟨_, pushTable_pushes hvalues, by simp [isNil]⟩
  | .error _, h => by cases h
  | .other, h => by cases h

theorem pushElements_pushes : (element : List RedisReply) → unpushedIn element = 0 →
    ∃ values, List.Forall₂ Pushes (pushElements element) values
  | [], _ => ⟨[], .nil⟩
  | reply :: element, h => by
    rw [unpushedIn] at h
    obtain ⟨value, hvalue, -⟩ := pushredisQueryRes_pushes reply (by omega)
    obtain ⟨values, hvalues⟩ := pushElements_pushes element (by omega)
    exact ⟨value :: values, .cons hvalue hvalues⟩

end

mutual

/-- What has no case costs a table each. -/
theorem pushredisQueryRes_costs : (reply : RedisReply) →
    Costs (pushredisQueryRes reply) (unpushed reply)
  | .integer n => (pushinteger_pushes n).costs
  | .string str => (pushstring_pushes str).costs
  | .status str => (pushstring_pushes str).costs
  | .nil => pushnil_pushes.costs
  | .array element => by
    obtain ⟨costs, hcosts, hsum⟩ := pushElements_costs element
    rw [unpushed, ← hsum]
    exact pushTable_costs hcosts
  | .error _ => costs_nothing
  | .other => costs_nothing

theorem pushElements_costs : (element : List RedisReply) →
    ∃ costs, List.Forall₂ Costs (pushElements element) costs ∧ costs.sum = unpushedIn element
  | [] => ⟨[], .nil, rfl⟩
  | reply :: element => by
    obtain ⟨costs, hcosts, hsum⟩ := pushElements_costs element
    exact ⟨_ :: costs, .cons (pushredisQueryRes_costs reply) hcosts,
      by rw [List.sum_cons, hsum, unpushedIn]⟩

end

/-! ## Outcomes -/

/-- The error text fits into `msgerr`; code 0 is no error, but leaves no result
to hand on for a select, and nothing to close without a statement. -/
def mysqlClean (sql : Bytes) : MysqlOutcome → Prop
  | .exception call code what =>
    if code ≠ 0 then (errorText code what).length < 256
    else call ≠ .createStatement ∧ isSelect sql = false
  | .result _ | .noResult => True

/-- There is a reply to a command without directives: an error, or a value
that is not `nil` and of which everything is pushed. -/
def redisClean (cmd : Bytes) (reply : Option RedisReply) : Prop :=
  directives cmd = 0 ∧ ∃ r, reply = some r ∧
    ((∃ str, r = .error str) ∨ r ≠ .nil ∧ unpushed r = 0)

/-- The outcome gets to the function as an error or as a result. -/
def Clean : (d : Driver) → Bytes → d.Outcome → Prop
  | .mysql => mysqlClean
  | .redis => redisClean

/-- The callback hands two values on, one of them `nil`. -/
def HandsOn (d : Driver) (answer : d.Answer) : Prop :=
  ∃ res err rest, d.operationQue answer [] = some (res :: err :: rest) ∧ isNil err ≠ isNil res

end LibuvServer.Database
