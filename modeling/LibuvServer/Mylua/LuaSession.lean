import LibuvServer.Mylua.LuaService
import Mathlib.Algebra.Group.Int.Defs
import Mathlib.Tactic.Common

/-!
# Sessions in Lua

`mylua/session/lua_session.cc`: what the gateway scripts see of a session,
and how long there is one. The setters take a Lua integer and keep an
`unsigned int`.
-/

namespace LibuvServer.Mylua

/-- How far a session has come: `tcp_connect` has created it for a server of
this type, that has failed, it is being read, or it has been destroyed. -/
inductive Stage where
  | absent
  | connecting (stype : Nat)
  | failed
  | reading
  | destroyed
  deriving DecidableEq

/-- The fields of `Session` and what its life depends on. -/
structure Session where
  as_client : Nat := 0
  utag : Nat := 0
  uid : Nat := 0
  gid : Nat := 0
  isShotdown : Bool := false
  stage : Stage
  deriving DecidableEq

/-- A Lua integer made an `unsigned int`. -/
def toUnsigned (n : Int) : Nat := (n % 2 ^ 32).toNat

theorem toUnsigned_ofNat {n : Nat} (h : n < 2 ^ 32) : toUnsigned n = n := by
  unfold toUnsigned
  omega

namespace Session

def setTag (s : Session) (tag : Int) : Session := { s with utag := toUnsigned tag }

def setUid (s : Session) (uid : Int) : Session := { s with uid := toUnsigned uid }

def setGid (s : Session) (gid : Int) : Session := { s with gid := toUnsigned gid }

end Session

end LibuvServer.Mylua
