import LibuvServer.Database.Outcomes
import Mathlib.Tactic.Common

/-!
# Replies of redis in Lua

What `pushredisQueryRes` leaves on the stack, against the reply. The loop
over the elements of an array counts with `int`s, and texts are pushed as C
strings.
-/

namespace LibuvServer.Database

open LibuvServer.Lib LibuvServer.Lib.LuaStack LibuvServer.Netbus LibuvServer.Mylua

/-! ## What is wanted -/

/-- The value shows the reply. An error may be shown by any value, at an
index of its own. -/
inductive Mirrors : RedisReply → LuaStackValue → Prop
  | integer (n : Int) : Mirrors (.integer n) (.integer n)
  | string (str : Bytes) : Mirrors (.string str) (.string str)
  | status (str : Bytes) : Mirrors (.status str) (.string str)
  | nil : Mirrors .nil .nil
  | error (str : Bytes) (value : LuaStackValue) : Mirrors (.error str) value
  | array {element : List RedisReply} {fields : List (Nat × LuaStackValue)}
      (helement : ∀ i (hi : i < element.length),
        Mirrors (element.get ⟨i, hi⟩) (field fields (i + 1)))
      (hrest : ∀ index, index = 0 ∨ element.length < index → field fields index = .nil) :
      Mirrors (.array element) (.table fields)

mutual

/-- The length of the longest array in a reply. -/
def longest : RedisReply → Nat
  | .array element => max element.length (longestIn element)
  | .integer _ | .string _ | .status _ | .nil | .error _ | .other => 0

def longestIn : List RedisReply → Nat
  | [] => 0
  | reply :: element => max (longest reply) (longestIn element)

end

/-- No counter overflows, and there is one value more on the stack, which
mirrors the reply. -/
def PushesMirror (reply : RedisReply) (stack : Stack) : Prop :=
  longest reply + 1 < 2 ^ 31 ∧
    ∃ value, pushredisQueryRes reply stack = some (value :: stack) ∧ Mirrors reply value

/-- There is no error in the reply, no text with a zero byte, and no array
that an `int` does not count. -/
inductive Mirrorable : RedisReply → Prop
  | integer (n : Int) : Mirrorable (.integer n)
  | string {str : Bytes} (h : 0 ∉ str) : Mirrorable (.string str)
  | status {str : Bytes} (h : 0 ∉ str) : Mirrorable (.status str)
  | nil : Mirrorable .nil
  | array {element : List RedisReply} (hlen : element.length + 1 < 2 ^ 31)
      (h : ∀ reply ∈ element, Mirrorable reply) : Mirrorable (.array element)

/-! ## Elements -/

theorem pushElements_eq (element : List RedisReply) :
    pushElements element = element.map pushredisQueryRes := by
  induction element with
  | nil => rfl
  | cons reply element ih => rw [pushElements, ih, List.map_cons]

theorem unpushed_of_mem {element : List RedisReply} (h : unpushedIn element = 0) :
    ∀ reply ∈ element, unpushed reply = 0 := by
  induction element with
  | nil =>
    intro reply hreply
    cases hreply
  | cons reply element ih =>
    rw [unpushedIn] at h
    rw [List.forall_mem_cons]
    exact ⟨by omega, ih (by omega)⟩

theorem longestIn_lt {element : List RedisReply} {n : Nat} (hn : 0 < n) :
    longestIn element < n ↔ ∀ reply ∈ element, longest reply < n := by
  induction element with
  | nil => exact iff_of_true hn fun reply hreply => by cases hreply
  | cons reply element ih => rw [longestIn, Nat.max_lt, ih, List.forall_mem_cons]

/-- What holds of a reply if it holds of its elements holds of all. -/
theorem reply_induction {P : RedisReply → Prop}
    (h : ∀ reply, (∀ element, reply = .array element → ∀ r ∈ element, P r) → P reply)
    (reply : RedisReply) : P reply := by
  refine h reply fun element heq r hr => ?_
  have hlt : sizeOf r < sizeOf reply := by
    have hmem := List.sizeOf_lt_of_mem hr
    rw [heq, RedisReply.array.sizeOf_spec]
    omega
  exact reply_induction h r
termination_by sizeOf reply

theorem exists_values {R : RedisReply → LuaStackValue → Prop} {element : List RedisReply}
    (h : ∀ reply ∈ element, ∃ value, R reply value) :
    ∃ values, List.Forall₂ R element values := by
  induction element with
  | nil => exact ⟨[], .nil⟩
  | cons reply element ih =>
    obtain ⟨value, hvalue⟩ := h reply (.head _)
    obtain ⟨values, hvalues⟩ := ih fun r hr => h r (.tail _ hr)
    exact ⟨value :: values, .cons hvalue hvalues⟩

/-! ## What is pushed -/

mutual

/-- What has no case is missing on the stack. -/
theorem pushredisQueryRes_misses : (reply : RedisReply) →
    Misses (pushredisQueryRes reply) (unpushed reply)
  | .integer n => (pushinteger_pushes n).misses
  | .string str => (pushstring_pushes str).misses
  | .status str => (pushstring_pushes str).misses
  | .nil => pushnil_pushes.misses
  | .array element => by
    obtain ⟨misses, hmisses, hsum⟩ := pushElements_misses element
    rw [unpushed, ← hsum]
    exact pushTable_misses hmisses
  | .error _ => misses_nothing
  | .other => misses_nothing

theorem pushElements_misses : (element : List RedisReply) →
    ∃ misses, List.Forall₂ Misses (pushElements element) misses ∧ misses.sum = unpushedIn element
  | [] => ⟨[], .nil, rfl⟩
  | reply :: element => by
    obtain ⟨misses, hmisses, hsum⟩ := pushElements_misses element
    exact ⟨_ :: misses, .cons (pushredisQueryRes_misses reply) hmisses,
      by rw [List.sum_cons, hsum, unpushedIn]⟩

end

/-- **A mirrorable reply** is mirrored, whatever is on the stack. -/
theorem Mirrorable.pushes {reply : RedisReply} (h : Mirrorable reply) :
    longest reply + 1 < 2 ^ 31 ∧
      ∃ value, Pushes (pushredisQueryRes reply) value ∧ Mirrors reply value := by
  have hnone : 0 + 1 < 2 ^ 31 := by decide
  induction h with
  | integer n => exact ⟨hnone, _, pushinteger_pushes n, .integer n⟩
  | @string str h =>
    have hpush := pushstring_pushes str
    rw [cString_eq_self_iff.mpr h] at hpush
    exact ⟨hnone, _, hpush, .string str⟩
  | @status str h =>
    have hpush := pushstring_pushes str
    rw [cString_eq_self_iff.mpr h] at hpush
    exact ⟨hnone, _, hpush, .status str⟩
  | nil => exact ⟨hnone, _, pushnil_pushes, .nil⟩
  | @array element hlen _ ih =>
    have hlongest : longestIn element < 2 ^ 31 - 1 :=
      (longestIn_lt (by decide)).mpr fun reply hreply => by
        have hle := (ih reply hreply).1
        omega
    obtain ⟨values, hvalues⟩ := exists_values fun reply hreply => (ih reply hreply).2
    have hacts : List.Forall₂ Pushes (pushElements element) values := by
      rw [pushElements_eq, List.forall₂_map_left_iff]
      exact hvalues.imp fun _ _ h => h.1
    have hlength : element.length = values.length := hvalues.length_eq
    refine ⟨by rw [longest]; omega, _, pushTable_pushes hacts,
      .array (fun i hi => ?_) fun index hindex => field_outside (by omega)⟩
    rw [field_element (by omega : i < values.length)]
    exact (hvalues.get hi (by omega)).2

/-- **What is mirrored** is mirrorable, when everything in it is pushed. -/
theorem mirrorable_of_pushes (reply : RedisReply) : ∀ value, longest reply + 1 < 2 ^ 31 →
    unpushed reply = 0 → Pushes (pushredisQueryRes reply) value → Mirrors reply value →
    Mirrorable reply := by
  induction reply using reply_induction with
  | h reply ih =>
    intro value hlongest hall hpush hmirror
    cases hmirror with
    | integer n => exact .integer n
    | string str =>
      have heq := hpush []
      rw [pushredisQueryRes, pushstring_pushes, Option.some.injEq, List.cons.injEq,
        LuaStackValue.string.injEq] at heq
      exact .string (cString_eq_self_iff.mp heq.1)
    | status str =>
      have heq := hpush []
      rw [pushredisQueryRes, pushstring_pushes, Option.some.injEq, List.cons.injEq,
        LuaStackValue.string.injEq] at heq
      exact .status (cString_eq_self_iff.mp heq.1)
    | nil => exact .nil
    | error str value => cases hall
    | @array element fields helement hrest =>
      rw [longest] at hlongest
      rw [unpushed] at hall
      obtain ⟨values, hvalues⟩ := pushElements_pushes element hall
      have heq := hpush []
      rw [pushredisQueryRes, pushTable_pushes hvalues, Option.some.injEq, List.cons.injEq,
        LuaStackValue.table.injEq] at heq
      obtain ⟨rfl, -⟩ := heq
      rw [pushElements_eq, List.forall₂_map_left_iff] at hvalues
      have hin : longestIn element < 2 ^ 31 - 1 := by omega
      refine .array (by omega) fun r hr => ?_
      obtain ⟨i, hi, rfl⟩ := List.mem_iff_getElem.mp hr
      have hi' : i < values.length := hvalues.length_eq ▸ hi
      have hmirror := helement i hi
      rw [field_element hi'] at hmirror
      have hlong := (longestIn_lt (by decide)).mp hin _ hr
      exact ih element rfl _ hr _ (by omega) (unpushed_of_mem hall _ hr) (hvalues.get hi hi')
        hmirror

/-- **A reply is mirrored** exactly when it is mirrorable. -/
theorem reply_mirrored (reply : RedisReply) (stack : Stack) :
    PushesMirror reply stack ↔ Mirrorable reply := by
  constructor
  · rintro ⟨hlongest, value, hpush, hmirror⟩
    have hlength := pushredisQueryRes_misses reply stack _ hpush
    rw [List.length_cons] at hlength
    have hall : unpushed reply = 0 := by omega
    obtain ⟨value', hpush', -⟩ := pushredisQueryRes_pushes reply hall
    have heq := hpush' stack
    rw [hpush, Option.some.injEq, List.cons.injEq] at heq
    obtain ⟨rfl, -⟩ := heq
    exact mirrorable_of_pushes reply value hlongest hall hpush' hmirror
  · intro h
    obtain ⟨hlongest, value, hpush, hmirror⟩ := h.pushes
    exact ⟨hlongest, value, hpush stack, hmirror⟩

/-- An error in an array takes the array for its value, and a text ends at a
zero byte. -/
theorem reply_mirrored_error :
    ¬ PushesMirror (.array [.integer 1, .error (strBytes "ERR"), .integer 2]) [.nil] ∧
    ¬ PushesMirror (.string [97, 0, 98]) [.nil] := by
  constructor
  · rintro ⟨-, value, hpush, -⟩
    cases hpush
  · rintro ⟨-, value, hpush, hmirror⟩
    cases hpush
    cases hmirror

/-- The function is called with no error and the mirror of the reply. -/
theorem redisOperationQue_mirrors {reply : RedisReply} (h : Mirrorable reply) (stack : Stack) :
    ∃ value, redisOperationQue (none, some reply) stack = some (value :: .nil :: stack) ∧
      Mirrors reply value := by
  obtain ⟨-, value, hpush, hmirror⟩ := h.pushes
  exact ⟨value, hpush (.nil :: stack), hmirror⟩

end LibuvServer.Database
