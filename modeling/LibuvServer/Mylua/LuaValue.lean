import LibuvServer.Lib.Decimal
import LibuvServer.Netbus.WebProtocol
import Mathlib.Tactic.Common

/-!
# Lua values

The values the auth scripts pass on, the conversions the C side makes of
them, and `string.format` for the directives the scripts use. A call that
raises a Lua error is `none`. How a text is read as a number is up to the
vendored Lua and enters as `LuaLib`.
-/

namespace LibuvServer.Mylua

open LibuvServer.Netbus

inductive LuaValue where
  | nil
  | integer (n : Int)
  | string (s : Bytes)
  deriving DecidableEq

/-- A table with names for keys. -/
abbrev LuaTable := List (String × LuaValue)

/-- A field that is not there is `nil`. -/
def LuaTable.get (t : LuaTable) (key : String) : LuaValue := (t.lookup key).getD .nil

/-- Numbers as the vendored Lua reads them off a text. -/
structure LuaLib (Number : Type) where
  /-- `luaO_str2num` on the whole text, which `tonumber` and the checks use. -/
  str2num : Bytes → Option Number
  isZero : Number → Bool
  toInteger : Number → Option Int
  /-- A number stored into an `int32_t`. -/
  toInt32 : Number → Int

variable {Number : Type}

def decimal (n : Int) : Bytes := strBytes (toString n)

theorem decimal_inj {m n : Int} (h : decimal m = decimal n) : m = n :=
  Lib.toString_bytes_inj h

/-- Only digits and a sign are in a number. -/
theorem notMem_decimal {c : UInt8} (hsign : c ≠ 0x2d) (hdigit : ¬ (0x30 ≤ c && c ≤ 0x39) = true)
    (n : Int) : c ∉ decimal n :=
  fun h => (Lib.digit_of_mem h).elim hsign hdigit

theorem decimal_ne_nil (n : Int) : decimal n ≠ [] := by
  intro h
  have hparse := Lib.parseInt_toString n
  rw [show (toString n).toUTF8.toList = [] from h] at hparse
  cases hparse

def luaLTolstring : LuaValue → Bytes
  | .nil => strBytes "nil"
  | .integer n => decimal n
  | .string s => s

def luaLCheckinteger (lib : LuaLib Number) : LuaValue → Option Int
  | .nil => none
  | .integer n => some n
  | .string s => (lib.str2num s).bind lib.toInteger

/-- `luaL_checknumber` of a text, stored into an `int32_t`. -/
def luaLCheckint32 (lib : LuaLib Number) (s : Bytes) : Option Int :=
  (lib.str2num s).map lib.toInt32

/-- `str_format` for `%%`, `%s` and `%d`. A directive without an argument is
an error, like one that is not a directive. -/
def strFormat (lib : LuaLib Number) : Bytes → List LuaValue → Option Bytes
  | [], _ => some []
  | [c], _ => if c = 0x25 then none else some [c]
  | c :: d :: rest, args =>
    if c ≠ 0x25 then (strFormat lib (d :: rest) args).map (c :: ·)
    else if d = 0x25 then (strFormat lib rest args).map (0x25 :: ·)
    else
      match args with
      | [] => none
      | arg :: args =>
        if d = 0x73 then (strFormat lib rest args).map (luaLTolstring arg ++ ·)
        else if d = 0x64 then
          (luaLCheckinteger lib arg).bind fun n =>
            (strFormat lib rest args).map (decimal n ++ ·)
        else none

/-- How many arguments a format takes. -/
def directives : Bytes → Nat
  | [] => 0
  | [_] => 0
  | c :: d :: rest =>
    if c ≠ 0x25 then directives (d :: rest)
    else if d = 0x25 then directives rest
    else directives rest + 1

/-- **A format never does with fewer arguments** than it has directives. -/
theorem directives_le {lib : LuaLib Number} {fmt : Bytes} {args : List LuaValue} {out : Bytes}
    (h : strFormat lib fmt args = some out) : directives fmt ≤ args.length := by
  fun_induction strFormat lib fmt args generalizing out with
  | case1 => exact Nat.zero_le _
  | case2 => exact Nat.zero_le _
  | case3 => exact Nat.zero_le _
  | case4 c d rest args hc ih =>
    obtain ⟨tail, htail, -⟩ := Option.map_eq_some_iff.mp h
    rw [directives, if_pos hc]
    exact ih htail
  | case5 c rest args hc ih =>
    obtain ⟨tail, htail, -⟩ := Option.map_eq_some_iff.mp h
    rw [directives, if_neg hc, if_pos rfl]
    exact ih htail
  | case6 => cases h
  | case7 c rest hc arg args hd ih =>
    obtain ⟨tail, htail, -⟩ := Option.map_eq_some_iff.mp h
    rw [directives, if_neg hc, if_neg hd]
    exact Nat.succ_le_succ (ih htail)
  | case8 c rest hc arg args hd hs ih =>
    obtain ⟨n, -, hrest⟩ := Option.bind_eq_some_iff.mp h
    obtain ⟨tail, htail, -⟩ := Option.map_eq_some_iff.mp hrest
    rw [directives, if_neg hc, if_neg hd]
    exact Nat.succ_le_succ (ih htail)
  | case9 => cases h

theorem strFormat_cons {lib : LuaLib Number} {c : UInt8} (hc : c ≠ 0x25) (fmt : Bytes)
    (args : List LuaValue) :
    strFormat lib (c :: fmt) args = (strFormat lib fmt args).map (c :: ·) := by
  cases fmt with
  | nil => simp [strFormat, hc]
  | cons d rest =>
    rw [strFormat.eq_def]
    exact if_pos hc

/-- Text without directives is copied. -/
theorem strFormat_plain {lib : LuaLib Number} {text : Bytes} (h : ∀ c ∈ text, c ≠ 0x25)
    (fmt : Bytes) (args : List LuaValue) :
    strFormat lib (text ++ fmt) args = (strFormat lib fmt args).map (text ++ ·) := by
  induction text with
  | nil => simp
  | cons c text ih =>
    rw [List.cons_append, strFormat_cons (h c (by simp)), ih fun d hd => h d (by simp [hd]),
      Option.map_map]
    rfl

/-- A `%s` takes the next argument. -/
theorem strFormat_percent_s {lib : LuaLib Number} (fmt : Bytes) (arg : LuaValue)
    (args : List LuaValue) :
    strFormat lib (0x25 :: 0x73 :: fmt) (arg :: args) =
      (strFormat lib fmt args).map (luaLTolstring arg ++ ·) := by
  simp [strFormat]

/-- One `%s` between two texts. -/
theorem strFormat_string {lib : LuaLib Number} {front back : Bytes}
    (hfront : ∀ c ∈ front, c ≠ 0x25) (hback : ∀ c ∈ back, c ≠ 0x25) (arg : LuaValue) :
    strFormat lib (front ++ strBytes "%s" ++ back) [arg] =
      some (front ++ (luaLTolstring arg ++ back)) := by
  have hlast : strFormat lib back [] = some back := by
    have hplain : strFormat lib (back ++ []) [] = _ := strFormat_plain hback [] []
    simpa [strFormat] using hplain
  have hdir : strBytes "%s" = [0x25, 0x73] := by decide +kernel
  rw [List.append_assoc, strFormat_plain hfront, hdir, List.cons_append, List.cons_append,
    List.nil_append, strFormat_percent_s, hlast]
  rfl

end LibuvServer.Mylua
