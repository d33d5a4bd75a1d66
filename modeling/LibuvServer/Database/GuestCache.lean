import LibuvServer.Database.RedisCommands
import LibuvServer.Database.RedisReplies
import Mathlib.Logic.Function.Basic
import Mathlib.Tactic.Common

/-!
# Guests in redis

`database/auth_redis.lua`: what is known of a guest is kept in a hash of redis
and read back from it. Redis is a parameter, with what its manual says of
`hmset` and `hgetall`.
-/

namespace LibuvServer.Database

open LibuvServer.Lib.LuaStack LibuvServer.Netbus LibuvServer.Mylua
open LibuvServer.Lib (LuaStackValue)

/-! ## Redis -/

/-- A server. Under a key there is a hash, an empty one where there is nothing,
or a value of another type. -/
structure RedisServer (σ : Type) where
  hash : σ → Bytes → Option (Bytes → Option Bytes)
  command : List Bytes → σ → RedisReply × σ

/-- Fields and values in turn. -/
def pairUp : List Bytes → Option (List (Bytes × Bytes))
  | [] => some []
  | [_] => none
  | field :: value :: args => (pairUp args).map ((field, value) :: ·)

def setAll : List (Bytes × Bytes) → (Bytes → Option Bytes) → Bytes → Option Bytes
  | [], hash => hash
  | (field, value) :: pairs, hash => setAll pairs (Function.update hash field (some value))

/-- What the manual says. `hmset` wants pairs, one at least, and a key that
has no value of another type. -/
structure RedisServer.Documented {σ : Type} (srv : RedisServer σ) : Prop where
  hmset : ∀ s key args pairs h, pairUp args = some pairs → pairs ≠ [] →
    srv.hash s key = some h → ∃ str s',
      srv.command (strBytes "hmset" :: key :: args) s = (.status str, s') ∧
        srv.hash s' = Function.update (srv.hash s) key (some (setAll pairs h))
  refused : ∀ s args, (∀ key rest pairs h, args = key :: rest → pairUp rest = some pairs →
    pairs ≠ [] → srv.hash s key ≠ some h) → ∃ str,
      srv.command (strBytes "hmset" :: args) s = (.error str, s)
  hgetall : ∀ s key h, srv.hash s key = some h → ∃ pairs : List (Bytes × Bytes),
    srv.command [strBytes "hgetall", key] s =
      (.array ((pairs.flatMap fun p => [p.1, p.2]).map .string), s) ∧
        ∀ field value, (field, value) ∈ pairs ↔ h field = some value

variable {σ : Type}

/-- `redisManager.query`, up to the call of its function with `err` and `ret`. -/
def RedisServer.query (srv : RedisServer σ) (redisState : Bytes) (s : σ) :
    Option (LuaStackValue × LuaStackValue × σ) :=
  let cmd := cString redisState
  match redisvFormatCommand cmd with
  | none => none
  | some argv =>
    let reply := srv.command argv s
    match (redisQueryWork cmd (some reply.1)).bind fun answer => redisOperationQue answer [] with
    | some (ret :: err :: _) => some (err, ret, reply.2)
    | _ => none

/-! ## The cache -/

structure GuestInfo where
  nick : Bytes
  faceImage : Nat
  vip : Nat
  status : Nat

/-- What `getGuestInfo` hands to `retFunc`. -/
inductive GuestAnswer where
  | err (err : LuaStackValue)
  | info (redisRet : Bytes → Option Bytes)

/-- The loop with `i`. What `hgetall` replies are texts. -/
def pairRet : List LuaStackValue → (Bytes → Option Bytes) → Option (Bytes → Option Bytes)
  | .string key :: .string value :: ret, redisRet =>
    pairRet ret (Function.update redisRet key (some value))
  | _ :: _ :: _, _ => none
  | _, redisRet => some redisRet

def getGuestInfo (srv : RedisServer σ) (gid : Bytes) (s : σ) : Option (GuestAnswer × σ) :=
  match srv.query (strBytes "hgetall guest_" ++ gid) s with
  | none => none
  | some (err, ret, s') =>
    if isNil err then
      match ret with
      | .table fields =>
        (pairRet (elements fields) fun _ => none).map fun redisRet => (.info redisRet, s')
      | _ => none
    else some (.err err, s')

/-- The text of the command. -/
def setState (gid : Bytes) (uinfo : GuestInfo) : Bytes :=
  strBytes "hmset guest_" ++ gid ++ strBytes " nick " ++ uinfo.nick ++
    strBytes " faceImage " ++ decimal uinfo.faceImage ++ strBytes " vip " ++ decimal uinfo.vip ++
    strBytes " status " ++ decimal uinfo.status

/-- An error of redis is only logged. -/
def setGuestInfo (srv : RedisServer σ) (gid : Bytes) (uinfo : GuestInfo) (s : σ) : Option σ :=
  (srv.query (setState gid uinfo) s).map (·.2.2)

/-- `updateGuestInfo`. The id it goes on with is the field `gusetId` of what it
was given. -/
def updateGuestInfo (srv : RedisServer σ) (gid : Bytes) (uinfo : GuestInfo) (s : σ) : Option σ :=
  match getGuestInfo srv gid s with
  | none => none
  | some (.err _, s') => some s'
  | some (.info redisRet, s') =>
    match redisRet (strBytes "gusetId") with
    -- a text and `nil` are not put together: the function raises an error
    | none => some s'
    | some gusetId => setGuestInfo srv gusetId uinfo s'

/-! ## What is wanted -/

def guestKey (gid : Int) : Bytes := strBytes "guest_" ++ decimal gid

def names : List Bytes :=
  [strBytes "nick", strBytes "faceImage", strBytes "vip", strBytes "status"]

/-- The four values under their names. -/
def GuestInfo.pairs (u : GuestInfo) : List (Bytes × Bytes) :=
  [(strBytes "nick", u.nick), (strBytes "faceImage", decimal u.faceImage),
    (strBytes "vip", decimal u.vip), (strBytes "status", decimal u.status)]

def GuestInfo.fields (u : GuestInfo) : Bytes → Option Bytes := setAll u.pairs fun _ => none

/-- Afterwards `getGuestInfo` gives the four values and nothing else, and the
other guests have what they had. -/
def Cached (srv : RedisServer σ) (s : σ) (gid : Int) (u : GuestInfo) (after : Option σ) : Prop :=
  ∃ s', after = some s' ∧
    (∃ s'', getGuestInfo srv (decimal gid) s' = some (.info u.fields, s'')) ∧
    ∀ gid', gid' ≠ gid → srv.hash s' (guestKey gid') = srv.hash s (guestKey gid')

/-- The states the cache comes to. At first no guest is in it. -/
inductive Reached (srv : RedisServer σ) : σ → Prop
  | start {s : σ} (h : ∀ gid, srv.hash s (guestKey gid) = some fun _ => none) : Reached srv s
  | get {s s' : σ} {answer : GuestAnswer} (gid : Int) (h : Reached srv s)
      (hget : getGuestInfo srv (decimal gid) s = some (answer, s')) : Reached srv s'
  | set {s s' : σ} (gid : Int) (u : GuestInfo) (h : Reached srv s)
      (hset : setGuestInfo srv (decimal gid) u s = some s') : Reached srv s'
  | update {s s' : σ} (gid : Int) (u : GuestInfo) (h : Reached srv s)
      (hupdate : updateGuestInfo srv (decimal gid) u s = some s') : Reached srv s'

/-- There are no fields but the four. -/
def OnlyNames (srv : RedisServer σ) (s : σ) (gid : Int) : Prop :=
  ∀ h, srv.hash s (guestKey gid) = some h → ∀ field, h field ≠ none → field ∈ names

/-! ## Hashes -/

theorem setAll_eq (pairs : List (Bytes × Bytes)) (hash : Bytes → Option Bytes) (field : Bytes) :
    (∃ value, (field, value) ∈ pairs ∧ setAll pairs hash field = some value) ∨
      (∀ value, (field, value) ∉ pairs) ∧ setAll pairs hash field = hash field := by
  induction pairs generalizing hash with
  | nil => exact .inr ⟨fun _ => List.not_mem_nil, rfl⟩
  | cons p pairs ih =>
    obtain ⟨name, value⟩ := p
    rw [setAll]
    rcases ih (Function.update hash name (some value)) with ⟨v, hv, heq⟩ | ⟨hnone, heq⟩
    · exact .inl ⟨v, .tail _ hv, heq⟩
    · by_cases hname : field = name
      · rw [hname, Function.update_self] at heq
        rw [hname]
        exact .inl ⟨value, .head _, heq⟩
      · rw [Function.update_of_ne hname] at heq
        refine .inr ⟨fun v hv => ?_, heq⟩
        rcases List.mem_cons.mp hv with h | h
        · exact hname (Prod.mk.inj h).1
        · exact hnone v h

/-- What a field is set to does not depend on what was there. -/
theorem setAll_congr {pairs : List (Bytes × Bytes)} {hash hash' : Bytes → Option Bytes}
    {field : Bytes} (h : field ∉ pairs.map Prod.fst → hash field = hash' field) :
    setAll pairs hash field = setAll pairs hash' field := by
  induction pairs generalizing hash hash' with
  | nil => exact h List.not_mem_nil
  | cons p pairs ih =>
    refine ih fun hnot => ?_
    by_cases hname : field = p.1
    · rw [hname, Function.update_self, Function.update_self]
    · rw [Function.update_of_ne hname, Function.update_of_ne hname]
      refine h fun hmem => ?_
      rw [List.map_cons, List.mem_cons] at hmem
      exact hmem.elim hname hnot

/-- A hash is made again of all its pairs. -/
theorem setAll_complete {pairs : List (Bytes × Bytes)} {hash : Bytes → Option Bytes}
    (h : ∀ field value, (field, value) ∈ pairs ↔ hash field = some value) :
    setAll pairs (fun _ => none) = hash := by
  funext field
  rcases setAll_eq pairs (fun _ => none) field with ⟨value, hvalue, heq⟩ | ⟨hnone, heq⟩
  · rw [heq, (h field value).mp hvalue]
  · rw [heq]
    cases hhash : hash field with
    | none => rfl
    | some value => exact absurd ((h field value).mpr hhash) (hnone value)

theorem setAll_isSome {pairs : List (Bytes × Bytes)} {hash : Bytes → Option Bytes} {field : Bytes}
    (h : hash field ≠ none) : setAll pairs hash field ≠ none := by
  rcases setAll_eq pairs hash field with ⟨value, -, heq⟩ | ⟨-, heq⟩
  · rw [heq]
    exact Option.some_ne_none value
  · rw [heq]
    exact h

theorem pairUp_mem {args : List Bytes} {pairs : List (Bytes × Bytes)}
    (h : pairUp args = some pairs) : ∀ p ∈ pairs, p.1 ∈ args ∧ p.2 ∈ args := by
  fun_induction pairUp args generalizing pairs with
  | case1 =>
    cases h
    intro p hp
    cases hp
  | case2 => cases h
  | case3 field value args ih =>
    obtain ⟨rest, hrest, rfl⟩ := Option.map_eq_some_iff.mp h
    intro p hp
    rcases List.mem_cons.mp hp with rfl | hp
    · exact ⟨.head _, .tail _ (.head _)⟩
    · obtain ⟨h₁, h₂⟩ := ih hrest p hp
      exact ⟨.tail _ (.tail _ h₁), .tail _ (.tail _ h₂)⟩

theorem pairRet_texts (pairs : List (Bytes × Bytes)) (redisRet : Bytes → Option Bytes) :
    pairRet ((pairs.flatMap fun p => [p.1, p.2]).map .string) redisRet =
      some (setAll pairs redisRet) := by
  induction pairs generalizing redisRet with
  | nil => rfl
  | cons p pairs ih => exact ih _

/-! ## Queries -/

section Query

variable {srv : RedisServer σ} {text : Bytes} {argv : List Bytes} {s s' : σ}

theorem query_eq {reply : RedisReply} {ret err : LuaStackValue} {rest : Stack}
    (hformat : redisvFormatCommand (cString text) = some argv)
    (hcommand : srv.command argv s = (reply, s'))
    (hpush : (redisQueryWork (cString text) (some reply)).bind
      (fun answer => redisOperationQue answer []) = some (ret :: err :: rest)) :
    srv.query text s = some (err, ret, s') := by
  unfold RedisServer.query
  simp only [hformat, hcommand, hpush]

theorem directives_format {cmd : Bytes} (hformat : redisvFormatCommand cmd = some argv) :
    directives cmd = 0 :=
  formatFrom_isSome.mp (Option.isSome_of_eq_some hformat)

theorem redisQueryWork_format {cmd : Bytes} {reply : RedisReply}
    (hformat : redisvFormatCommand cmd = some argv) (hreply : ∀ str, reply ≠ .error str) :
    redisQueryWork cmd (some reply) = some (none, some reply) := by
  unfold redisQueryWork
  rw [if_neg (not_not_intro (directives_format hformat))]
  cases reply with
  | error str => exact absurd rfl (hreply str)
  | _ => rfl

theorem query_status {str : Bytes} (hformat : redisvFormatCommand (cString text) = some argv)
    (hcommand : srv.command argv s = (.status str, s')) :
    srv.query text s = some (.nil, .string (cString str), s') := by
  have hpush : (redisQueryWork (cString text) (some (.status str))).bind
      (fun answer => redisOperationQue answer []) = some [.string (cString str), .nil] := by
    rw [redisQueryWork_format hformat (by intro str h; cases h)]
    rfl
  exact query_eq hformat hcommand hpush

theorem query_error {str : Bytes} (hformat : redisvFormatCommand (cString text) = some argv)
    (hcommand : srv.command argv s = (.error str, s')) :
    srv.query text s = some (.string (cString str), .nil, s') := by
  have hpush : (redisQueryWork (cString text) (some (.error str))).bind
      (fun answer => redisOperationQue answer []) = some [.nil, .string (cString str)] := by
    unfold redisQueryWork
    rw [if_neg (not_not_intro (directives_format hformat))]
    rfl
  exact query_eq hformat hcommand hpush

/-- Texts without zero bytes come as they are. -/
theorem query_array {texts : List Bytes} (hzero : ∀ t ∈ texts, 0 ∉ t)
    (hformat : redisvFormatCommand (cString text) = some argv)
    (hcommand : srv.command argv s = (.array (texts.map .string), s')) :
    srv.query text s = some (.nil, .table (fieldsFrom 1 (texts.map .string) []), s') := by
  have hacts : List.Forall₂ Pushes (pushElements (texts.map .string)) (texts.map .string) := by
    rw [pushElements_eq, List.map_map, List.forall₂_map_left_iff, List.forall₂_map_right_iff,
      List.forall₂_same]
    intro t ht
    have hpush := pushstring_pushes t
    rw [cString_eq_self_iff.mpr (hzero t ht)] at hpush
    exact hpush
  have hpush : (redisQueryWork (cString text) (some (.array (texts.map .string)))).bind
      (fun answer => redisOperationQue answer []) =
        some [.table (fieldsFrom 1 (texts.map .string) []), .nil] := by
    rw [redisQueryWork_format hformat (by intro str h; cases h)]
    exact pushTable_pushes hacts [.nil]
  exact query_eq hformat hcommand hpush

end Query

/-! ## The two commands -/

theorem plain_decimal (n : Int) : Plain (decimal n) :=
  ⟨⟨decimal_ne_nil n, notMem_decimal (by decide) (by decide) n,
    notMem_decimal (by decide) (by decide) n⟩, notMem_decimal (by decide) (by decide) n⟩

theorem plain_guestKey (gid : Int) : Plain (guestKey gid) := by
  have hguest : Plain (strBytes "guest_") := by with_unfolding_all decide
  obtain ⟨⟨-, hblank, hzero⟩, hpercent⟩ := plain_decimal gid
  refine ⟨⟨?_, ?_, ?_⟩, ?_⟩
  · exact List.append_ne_nil_of_left_ne_nil hguest.1.1 _
  · exact List.not_mem_append hguest.1.2.1 hblank
  · exact List.not_mem_append hguest.1.2.2 hzero
  · exact List.not_mem_append hguest.2 hpercent

theorem guestKey_inj {gid gid' : Int} (h : guestKey gid = guestKey gid') : gid = gid' :=
  decimal_inj (List.append_cancel_left h)

/-- The words after the nick. -/
def GuestInfo.rest (u : GuestInfo) : List Bytes :=
  [strBytes "faceImage", decimal u.faceImage, strBytes "vip", decimal u.vip,
    strBytes "status", decimal u.status]

theorem GuestInfo.plain_rest (u : GuestInfo) : ∀ w ∈ u.rest, Plain w := by
  have hface : Plain (strBytes "faceImage") := by with_unfolding_all decide
  have hvip : Plain (strBytes "vip") := by with_unfolding_all decide
  have hstatus : Plain (strBytes "status") := by with_unfolding_all decide
  intro w hw
  simp only [GuestInfo.rest, List.mem_cons, List.not_mem_nil, or_false] at hw
  rcases hw with rfl | rfl | rfl | rfl | rfl | rfl
  · exact hface
  · exact plain_decimal _
  · exact hvip
  · exact plain_decimal _
  · exact hstatus
  · exact plain_decimal _

/-- The words of the command, whatever the nick makes of them. -/
theorem setState_eq (gid : Int) (u : GuestInfo) :
    setState (decimal gid) u =
      joinWords (strBytes "hmset" :: guestKey gid :: strBytes "nick" :: u.nick :: u.rest) := by
  have hhmset : strBytes "hmset guest_" = strBytes "hmset" ++ 0x20 :: strBytes "guest_" := by
    with_unfolding_all decide
  have hnick : strBytes " nick " = 0x20 :: (strBytes "nick" ++ [0x20]) := by
    with_unfolding_all decide
  have hface : strBytes " faceImage " = 0x20 :: (strBytes "faceImage" ++ [0x20]) := by
    with_unfolding_all decide
  have hvip : strBytes " vip " = 0x20 :: (strBytes "vip" ++ [0x20]) := by with_unfolding_all decide
  have hstatus : strBytes " status " = 0x20 :: (strBytes "status" ++ [0x20]) := by
    with_unfolding_all decide
  simp only [setState, guestKey, GuestInfo.rest, joinWords, hhmset, hnick, hface, hvip, hstatus,
    List.append_assoc, List.cons_append, List.nil_append]

theorem getState_eq (gid : Int) :
    strBytes "hgetall guest_" ++ decimal gid = joinWords [strBytes "hgetall", guestKey gid] := by
  have hgetall : strBytes "hgetall guest_" = strBytes "hgetall" ++ 0x20 :: strBytes "guest_" := by
    with_unfolding_all decide
  simp only [guestKey, joinWords, hgetall, List.append_assoc, List.cons_append]

/-- Words are taken apart as they were put together. -/
theorem format_joinWords {words : List Bytes} (h : ∀ w ∈ words, Plain w) :
    redisvFormatCommand (cString (joinWords words)) = some words := by
  rw [cString_eq_self_iff.mpr (zero_notMem_joinWords fun w hw => (h w hw).1)]
  exact formatFrom_joinWords h []

/-- Whatever the texts in it are, the command is `hmset` with words. -/
theorem format_setState {gid : Bytes} {u : GuestInfo} {argv : List Bytes}
    (h : redisvFormatCommand (cString (setState gid u)) = some argv) :
    ∃ args, argv = strBytes "hmset" :: args ∧ ∀ w ∈ args, IsWord w := by
  have hhmset : strBytes "hmset guest_" = strBytes "hmset" ++ 0x20 :: strBytes "guest_" := by
    with_unfolding_all decide
  have hplain : Plain (strBytes "hmset") := by with_unfolding_all decide
  obtain ⟨text, htext⟩ : ∃ text, setState gid u = (strBytes "hmset" ++ [0x20]) ++ text :=
    ⟨_, by simp only [setState, hhmset, List.append_assoc, List.cons_append, List.nil_append]; rfl⟩
  have hwords := formatFrom_words h (zero_notMem_cString _) (fun w hw => absurd hw List.not_mem_nil)
    List.not_mem_nil List.not_mem_nil fun h => absurd h Bool.false_ne_true
  rw [htext, cString_append (by with_unfolding_all decide), List.append_assoc,
    List.singleton_append] at h
  obtain ⟨args, rfl⟩ := formatFrom_extends ((formatFrom_word hplain).symm.trans h)
  exact ⟨args, rfl, fun w hw => hwords w (.tail _ hw)⟩

section Cache

variable {srv : RedisServer σ} {s s' : σ} {gid : Int} {u : GuestInfo}

/-- `setGuestInfo` does nothing, or sets words in one hash. -/
theorem setGuestInfo_cases (hdoc : srv.Documented) {id : Bytes}
    (h : setGuestInfo srv id u s = some s') :
    srv.hash s' = srv.hash s ∨ ∃ key pairs hash, (∀ p ∈ pairs, IsWord p.1 ∧ IsWord p.2) ∧
      srv.hash s key = some hash ∧
      srv.hash s' = Function.update (srv.hash s) key (some (setAll pairs hash)) := by
  obtain ⟨result, hquery, rfl⟩ := Option.map_eq_some_iff.mp h
  cases hformat : redisvFormatCommand (cString (setState id u)) with
  | none =>
    unfold RedisServer.query at hquery
    simp only [hformat] at hquery
    cases hquery
  | some argv =>
    obtain ⟨args, rfl, hwords⟩ := format_setState hformat
    by_cases hpairs : ∃ key rest pairs hash, args = key :: rest ∧ pairUp rest = some pairs ∧
        pairs ≠ [] ∧ srv.hash s key = some hash
    · obtain ⟨key, rest, pairs, hash, rfl, hup, hne, hhash⟩ := hpairs
      obtain ⟨str, s₁, hcommand, hupdate⟩ := hdoc.hmset s key rest pairs hash hup hne hhash
      rw [query_status hformat hcommand, Option.some.injEq] at hquery
      rw [← hquery]
      refine .inr ⟨key, pairs, hash, fun p hp => ?_, hhash, hupdate⟩
      obtain ⟨hfield, hvalue⟩ := pairUp_mem hup p hp
      exact ⟨hwords _ (.tail _ hfield), hwords _ (.tail _ hvalue)⟩
    · obtain ⟨str, hcommand⟩ := hdoc.refused s args fun key rest pairs hash hargs hup hne hhash =>
        hpairs ⟨key, rest, pairs, hash, hargs, hup, hne, hhash⟩
      rw [query_error hformat hcommand, Option.some.injEq] at hquery
      rw [← hquery]
      exact .inl rfl

/-- The guests have hashes, of words. -/
def Wordy (srv : RedisServer σ) (s : σ) : Prop :=
  ∀ gid, ∃ hash, srv.hash s (guestKey gid) = some hash ∧
    ∀ field value, hash field = some value → IsWord field ∧ IsWord value

/-- **What is read of a hash of words** is that hash. -/
theorem getGuestInfo_eq (hdoc : srv.Documented) {hash : Bytes → Option Bytes}
    (hhash : srv.hash s (guestKey gid) = some hash)
    (hwords : ∀ field value, hash field = some value → IsWord field ∧ IsWord value) :
    getGuestInfo srv (decimal gid) s = some (.info hash, s) := by
  obtain ⟨pairs, hcommand, hpairs⟩ := hdoc.hgetall s (guestKey gid) hash hhash
  have hformat : redisvFormatCommand (cString (strBytes "hgetall guest_" ++ decimal gid)) =
      some [strBytes "hgetall", guestKey gid] := by
    have hplain : Plain (strBytes "hgetall") := by with_unfolding_all decide
    rw [getState_eq]
    refine format_joinWords fun w hw => ?_
    rcases List.mem_cons.mp hw with rfl | hw
    · exact hplain
    · rw [List.mem_singleton.mp hw]
      exact plain_guestKey gid
  have hzero : ∀ t ∈ pairs.flatMap fun p => [p.1, p.2], 0 ∉ t := by
    intro t ht
    obtain ⟨p, hp, ht⟩ := List.mem_flatMap.mp ht
    obtain ⟨hfield, hvalue⟩ := hwords p.1 p.2 ((hpairs p.1 p.2).mp hp)
    rcases List.mem_cons.mp ht with rfl | ht
    · exact hfield.2.2
    · rw [List.mem_singleton.mp ht]
      exact hvalue.2.2
  have hnil : ∀ v ∈ (pairs.flatMap fun p => [p.1, p.2]).map LuaStackValue.string,
      isNil v = false := by
    intro v hv
    obtain ⟨t, -, rfl⟩ := List.mem_map.mp hv
    rfl
  unfold getGuestInfo
  rw [query_array hzero hformat hcommand]
  show (pairRet (elements _) _).map _ = _
  rw [elements_fieldsFrom hnil, pairRet_texts, setAll_complete hpairs]
  rfl

theorem Wordy.get (h : Wordy srv s) (hdoc : srv.Documented) (gid : Int) :
    ∃ hash, srv.hash s (guestKey gid) = some hash ∧
      getGuestInfo srv (decimal gid) s = some (.info hash, s) := by
  obtain ⟨hash, hhash, hwords⟩ := h gid
  exact ⟨hash, hhash, getGuestInfo_eq hdoc hhash hwords⟩

/-- A command that sets words leaves hashes of words. -/
theorem Wordy.set (h : Wordy srv s) (hdoc : srv.Documented) {id : Bytes}
    (hset : setGuestInfo srv id u s = some s') : Wordy srv s' := by
  intro gid
  obtain ⟨hash, hhash, hwords⟩ := h gid
  rcases setGuestInfo_cases hdoc hset with heq | ⟨key, pairs, hash', hpairs, hhash', heq⟩
  · exact ⟨hash, by rw [heq, hhash], hwords⟩
  · rw [heq]
    by_cases hkey : guestKey gid = key
    · rw [← hkey, hhash, Option.some.injEq] at hhash'
      rw [← hkey, Function.update_self]
      refine ⟨_, rfl, fun field value hvalue => ?_⟩
      rw [← hhash'] at hvalue
      rcases setAll_eq pairs hash field with ⟨v, hv, hset⟩ | ⟨-, hset⟩
      · rw [hset, Option.some.injEq] at hvalue
        rw [← hvalue]
        exact hpairs _ hv
      · exact hwords field value (hset.symm.trans hvalue)
    · rw [Function.update_of_ne hkey]
      exact ⟨hash, hhash, hwords⟩

/-- How `updateGuestInfo` goes on. -/
theorem Wordy.update (h : Wordy srv s) (hdoc : srv.Documented) (gid : Int) (u : GuestInfo) :
    ∃ hash, srv.hash s (guestKey gid) = some hash ∧
      (hash (strBytes "gusetId") = none → updateGuestInfo srv (decimal gid) u s = some s) ∧
      ∀ gusetId, hash (strBytes "gusetId") = some gusetId →
        updateGuestInfo srv (decimal gid) u s = setGuestInfo srv gusetId u s := by
  obtain ⟨hash, hhash, hget⟩ := h.get hdoc gid
  refine ⟨hash, hhash, fun hnone => ?_, fun gusetId hsome => ?_⟩
  · unfold updateGuestInfo
    rw [hget]
    simp only [hnone]
  · unfold updateGuestInfo
    rw [hget]
    simp only [hsome]

theorem Reached.wordy (h : Reached srv s) (hdoc : srv.Documented) : Wordy srv s := by
  induction h with
  | start h => exact fun gid => ⟨_, h gid, fun field value hvalue => by cases hvalue⟩
  | get gid _ hget ih =>
    obtain ⟨hash, -, heq⟩ := ih.get hdoc gid
    rw [heq] at hget
    cases hget
    exact ih
  | set gid u _ hset ih => exact ih.set hdoc hset
  | @update s s' gid u _ hupdate ih =>
    obtain ⟨hash, -, hnone, hsome⟩ := ih.update hdoc gid u
    cases hid : hash (strBytes "gusetId") with
    | none =>
      rw [hnone hid] at hupdate
      cases hupdate
      exact ih
    | some gusetId =>
      rw [hsome gusetId hid] at hupdate
      exact ih.set hdoc hupdate

/-! ## The result -/

theorem GuestInfo.fields_nick (u : GuestInfo) : u.fields (strBytes "nick") = some u.nick := by
  have hface : strBytes "nick" ≠ strBytes "faceImage" := by with_unfolding_all decide
  have hvip : strBytes "nick" ≠ strBytes "vip" := by with_unfolding_all decide
  have hstatus : strBytes "nick" ≠ strBytes "status" := by with_unfolding_all decide
  simp only [GuestInfo.fields, GuestInfo.pairs, setAll]
  rw [Function.update_of_ne hstatus, Function.update_of_ne hvip, Function.update_of_ne hface,
    Function.update_self]

theorem GuestInfo.mem_names {u : GuestInfo} {field : Bytes} (h : u.fields field ≠ none) :
    field ∈ names := by
  rcases setAll_eq u.pairs (fun _ => none) field with ⟨value, hvalue, -⟩ | ⟨-, heq⟩
  · exact List.mem_map_of_mem (f := Prod.fst) hvalue
  · exact absurd heq h

theorem gusetId_notMem_names : strBytes "gusetId" ∉ names := by with_unfolding_all decide

theorem cached_iff (hs' : Wordy srv s') (hdoc : srv.Documented) :
    (∃ s'', getGuestInfo srv (decimal gid) s' = some (.info u.fields, s'')) ↔
      srv.hash s' (guestKey gid) = some u.fields := by
  obtain ⟨hash, hhash, hget⟩ := hs'.get hdoc gid
  rw [hget, hhash, Option.some.injEq]
  constructor
  · intro ⟨s'', h⟩
    cases h
    rfl
  · rintro rfl
    exact ⟨s', rfl⟩

/-- A field that is there stays there. -/
theorem hash_kept (hdoc : srv.Documented) {id key field : Bytes} {hash hash' : Bytes → Option Bytes}
    (hset : setGuestInfo srv id u s = some s') (hhash : srv.hash s key = some hash)
    (hhash' : srv.hash s' key = some hash') (h : hash field ≠ none) : hash' field ≠ none := by
  rcases setGuestInfo_cases hdoc hset with heq | ⟨key', pairs, hash₁, -, hhash₁, heq⟩
  · rw [heq, hhash, Option.some.injEq] at hhash'
    rw [← hhash']
    exact h
  · rw [heq] at hhash'
    by_cases hkey : key = key'
    · rw [hkey, Function.update_self, Option.some.injEq] at hhash'
      rw [← hkey, hhash, Option.some.injEq] at hhash₁
      rw [← hhash', ← hhash₁]
      exact setAll_isSome h
    · rw [Function.update_of_ne hkey, hhash, Option.some.injEq] at hhash'
      rw [← hhash']
      exact h

/-- The four values are set, with what became of the nick. -/
theorem setGuestInfo_run (hdoc : srv.Documented) {hash : Bytes → Option Bytes} {w : Bytes}
    (hhash : srv.hash s (guestKey gid) = some hash)
    (hformat : redisvFormatCommand (cString (setState (decimal gid) u)) =
      some (strBytes "hmset" :: guestKey gid :: strBytes "nick" :: w :: u.rest)) :
    ∃ s', setGuestInfo srv (decimal gid) u s = some s' ∧
      srv.hash s' = Function.update (srv.hash s) (guestKey gid)
        (some (setAll { u with nick := w }.pairs hash)) := by
  have hup : pairUp (strBytes "nick" :: w :: u.rest) = some { u with nick := w }.pairs := rfl
  obtain ⟨str, s', hcommand, hupdate⟩ :=
    hdoc.hmset s (guestKey gid) _ _ hash hup (List.cons_ne_nil _ _) hhash
  refine ⟨s', ?_, hupdate⟩
  unfold setGuestInfo
  rw [query_status hformat hcommand]
  rfl

/-- **A nick of one word** is set with one word, a shorter one if there was a
`%` in it. -/
theorem format_nick {argv : List Bytes} (hword : IsWord u.nick)
    (h : redisvFormatCommand (cString (setState (decimal gid) u)) = some argv) :
    ∃ w, argv = strBytes "hmset" :: guestKey gid :: strBytes "nick" :: w :: u.rest ∧
      (0x25 ∈ u.nick → w.length < u.nick.length) := by
  have hhmset : Plain (strBytes "hmset") := by with_unfolding_all decide
  have hnick : Plain (strBytes "nick") := by with_unfolding_all decide
  have hzero : 0 ∉ setState (decimal gid) u := by
    rw [setState_eq]
    refine zero_notMem_joinWords ?_
    simp only [List.forall_mem_cons]
    exact ⟨hhmset.1, (plain_guestKey gid).1, hnick.1, hword, fun w hw => (u.plain_rest w hw).1⟩
  rw [cString_eq_self_iff.mpr hzero, setState_eq] at h
  have hwords : formatFrom (strBytes "hmset" ++ 0x20 :: (guestKey gid ++ 0x20 ::
      (strBytes "nick" ++ 0x20 :: (u.nick ++ 0x20 :: joinWords u.rest)))) [] [] false =
        some argv := h
  rw [formatFrom_word hhmset, formatFrom_word (plain_guestKey gid), formatFrom_word hnick]
    at hwords
  obtain ⟨w, hargv, hlt⟩ := formatFrom_shorter hword u.plain_rest hwords
  exact ⟨w, hargv, hlt⟩

theorem set_cached_iff (hdoc : srv.Documented) (hs : Wordy srv s) :
    Cached srv s gid u (setGuestInfo srv (decimal gid) u s) ↔
      Plain u.nick ∧ OnlyNames srv s gid := by
  obtain ⟨hash, hhash, -⟩ := hs gid
  constructor
  · rintro ⟨s', hset, hget, -⟩
    have hs' := hs.set hdoc hset
    have hfields := (cached_iff hs' hdoc).mp hget
    have hword : IsWord u.nick := by
      obtain ⟨hash', hhash', hwords⟩ := hs' gid
      rw [hfields, Option.some.injEq] at hhash'
      exact (hwords _ _ (hhash' ▸ u.fields_nick)).2
    refine ⟨⟨hword, fun hpercent => ?_⟩, fun hash₁ hhash₁ field hfield => ?_⟩
    · -- the word that was set would be the nick, and shorter
      cases hformat : redisvFormatCommand (cString (setState (decimal gid) u)) with
      | none =>
        unfold setGuestInfo RedisServer.query at hset
        simp only [hformat] at hset
        cases hset
      | some argv =>
        obtain ⟨w, rfl, hlt⟩ := format_nick hword hformat
        obtain ⟨s₁, hset₁, hupdate⟩ := setGuestInfo_run hdoc hhash hformat
        rw [hset, Option.some.injEq] at hset₁
        rw [← hset₁] at hupdate
        rw [hupdate, Function.update_self, Option.some.injEq] at hfields
        have hset_nick : setAll { u with nick := w }.pairs hash (strBytes "nick") = some w := by
          rw [← GuestInfo.fields_nick { u with nick := w }]
          exact setAll_congr fun hnot => absurd (List.mem_cons_self) hnot
        rw [hfields, u.fields_nick, Option.some.injEq] at hset_nick
        have hshort := hlt hpercent
        rw [hset_nick] at hshort
        exact Nat.lt_irrefl _ hshort
    · exact GuestInfo.mem_names (hash_kept hdoc hset hhash₁ hfields hfield)
  · rintro ⟨hplain, honly⟩
    have hformat : redisvFormatCommand (cString (setState (decimal gid) u)) =
        some (strBytes "hmset" :: guestKey gid :: strBytes "nick" :: u.nick :: u.rest) := by
      have hhmset : Plain (strBytes "hmset") := by with_unfolding_all decide
      have hnick : Plain (strBytes "nick") := by with_unfolding_all decide
      rw [setState_eq]
      refine format_joinWords ?_
      simp only [List.forall_mem_cons]
      exact ⟨hhmset, plain_guestKey gid, hnick, hplain, u.plain_rest⟩
    obtain ⟨s', hset, hupdate⟩ := setGuestInfo_run hdoc hhash hformat
    refine ⟨s', hset, (cached_iff (hs.set hdoc hset) hdoc).mpr ?_, fun gid' hne => ?_⟩
    · rw [hupdate, Function.update_self]
      refine congrArg some (funext fun field => setAll_congr fun hnot => ?_)
      by_contra hfield
      exact hnot (honly hash hhash field hfield)
    · rw [hupdate, Function.update_of_ne fun h => hne (guestKey_inj h)]

theorem update_cached_iff (hdoc : srv.Documented) (hs : Wordy srv s) :
    Cached srv s gid u (updateGuestInfo srv (decimal gid) u s) ↔
      srv.hash s (guestKey gid) = some u.fields := by
  obtain ⟨hash, hhash, hnone, hsome⟩ := hs.update hdoc gid u
  constructor
  · rintro ⟨s', hupdate, hget, -⟩
    cases hid : hash (strBytes "gusetId") with
    | none =>
      rw [hnone hid, Option.some.injEq] at hupdate
      rw [← hupdate] at hget
      exact (cached_iff hs hdoc).mp hget
    | some gusetId =>
      -- the guest keeps this field
      rw [hsome gusetId hid] at hupdate
      have hfields := (cached_iff (hs.set hdoc hupdate) hdoc).mp hget
      have hid' : hash (strBytes "gusetId") ≠ none := by
        rw [hid]
        exact Option.some_ne_none gusetId
      exact absurd (GuestInfo.mem_names (hash_kept hdoc hupdate hhash hfields hid'))
        gusetId_notMem_names
  · intro hfields
    have hid : hash (strBytes "gusetId") = none := by
      rw [hhash, Option.some.injEq] at hfields
      by_contra hid
      rw [hfields] at hid
      exact gusetId_notMem_names (GuestInfo.mem_names hid)
    exact ⟨s, hnone hid, (cached_iff hs hdoc).mpr hfields, fun _ _ => rfl⟩

/-- **A guest is kept by `setGuestInfo`** when the nick is one word without `%`
and the guest had no other fields, and by `updateGuestInfo` when there is
nothing to change. -/
theorem guest_cached_iff (hdoc : srv.Documented) (hs : Reached srv s) (gid : Int)
    (u : GuestInfo) :
    (Cached srv s gid u (setGuestInfo srv (decimal gid) u s) ↔
        Plain u.nick ∧ OnlyNames srv s gid) ∧
      (Cached srv s gid u (updateGuestInfo srv (decimal gid) u s) ↔
        srv.hash s (guestKey gid) = some u.fields) :=
  ⟨set_cached_iff hdoc (hs.wordy hdoc), update_cached_iff hdoc (hs.wordy hdoc)⟩

end Cache

/-! ## A sample -/

/-- A hash with the names of its fields. -/
structure SampleHash where
  value : Bytes → Option Bytes
  fieldNames : List Bytes
  complete : ∀ field, value field ≠ none → field ∈ fieldNames

def SampleHash.set (h : SampleHash) (pairs : List (Bytes × Bytes)) : SampleHash where
  value := setAll pairs h.value
  fieldNames := pairs.map Prod.fst ++ h.fieldNames
  complete field hfield := by
    rw [List.mem_append]
    rcases setAll_eq pairs h.value field with ⟨value, hvalue, -⟩ | ⟨-, heq⟩
    · exact .inl (List.mem_map_of_mem (f := Prod.fst) hvalue)
    · rw [heq] at hfield
      exact .inr (h.complete field hfield)

def SampleHash.pairs (h : SampleHash) : List (Bytes × Bytes) :=
  h.fieldNames.filterMap fun field => (h.value field).map fun value => (field, value)

/-- A server with hashes only. -/
def sampleServer : RedisServer (Bytes → SampleHash) where
  hash s key := some (s key).value
  command argv s :=
    let refused := (.error (strBytes "ERR wrong number of arguments"), s)
    match argv with
    | name :: key :: args =>
      if name = strBytes "hmset" then
        match pairUp args with
        | some (p :: pairs) =>
          (.status (strBytes "OK"), Function.update s key ((s key).set (p :: pairs)))
        | _ => refused
      else if name = strBytes "hgetall" ∧ args = [] then
        (.array (((s key).pairs.flatMap fun p => [p.1, p.2]).map .string), s)
      else refused
    | _ => refused

theorem documented_sampleServer : sampleServer.Documented where
  hmset s key args pairs h hup hne hhash := by
    cases hhash
    cases pairs with
    | nil => exact absurd rfl hne
    | cons p pairs =>
      refine ⟨strBytes "OK", Function.update s key ((s key).set (p :: pairs)), ?_, ?_⟩
      · simp only [sampleServer, hup, if_pos]
      · funext key'
        by_cases hkey : key' = key
        · rw [hkey, Function.update_self]
          simp only [sampleServer, Function.update_self]
          rfl
        · rw [Function.update_of_ne hkey]
          simp only [sampleServer, Function.update_of_ne hkey]
  refused s args h := by
    refine ⟨strBytes "ERR wrong number of arguments", ?_⟩
    cases args with
    | nil => rfl
    | cons key args =>
      cases hup : pairUp args with
      | none => simp only [sampleServer, hup, if_pos]
      | some pairs =>
        cases pairs with
        | nil => simp only [sampleServer, hup, if_pos]
        | cons p pairs => exact absurd rfl (h key args _ _ rfl hup (List.cons_ne_nil _ _))
  hgetall s key h hhash := by
    have hname : strBytes "hgetall" ≠ strBytes "hmset" := by with_unfolding_all decide
    cases hhash
    refine ⟨(s key).pairs, ?_, fun field value => ?_⟩
    · simp only [sampleServer, if_neg hname, and_self, if_pos]
    · simp only [SampleHash.pairs, List.mem_filterMap, Option.map_eq_some_iff, Prod.mk.injEq]
      constructor
      · rintro ⟨field, -, value, hvalue, rfl, rfl⟩
        exact hvalue
      · intro hvalue
        refine ⟨field, (s key).complete field ?_, value, hvalue, rfl, rfl⟩
        rw [hvalue]
        exact Option.some_ne_none value

def emptySample : Bytes → SampleHash := fun _ => ⟨fun _ => none, [], fun _ h => absurd rfl h⟩

theorem reached_emptySample : Reached sampleServer emptySample := .start fun _ => rfl

theorem onlyNames_emptySample (gid : Int) : OnlyNames sampleServer emptySample gid := by
  intro h hhash field hfield
  cases hhash
  exact absurd rfl hfield

def sampleGuest (nick : String) : GuestInfo := ⟨strBytes nick, 3, 1, 0⟩

theorem guest_cached_bob : Cached sampleServer emptySample 7 (sampleGuest "bob")
    (setGuestInfo sampleServer (decimal 7) (sampleGuest "bob") emptySample) := by
  have hplain : Plain (strBytes "bob") := by with_unfolding_all decide
  exact (guest_cached_iff documented_sampleServer reached_emptySample 7 _).1.mpr
    ⟨hplain, onlyNames_emptySample 7⟩

/-- A nick of two words is not kept, and a nick that is there is not changed. -/
theorem guest_cached_not :
    ¬ Cached sampleServer emptySample 7 (sampleGuest "bob b")
        (setGuestInfo sampleServer (decimal 7) (sampleGuest "bob b") emptySample) ∧
      ∃ s, setGuestInfo sampleServer (decimal 7) (sampleGuest "bob") emptySample = some s ∧
        ¬ Cached sampleServer s 7 (sampleGuest "al")
          (updateGuestInfo sampleServer (decimal 7) (sampleGuest "al") s) := by
  have hempty := reached_emptySample.wordy documented_sampleServer
  have hplain : Plain (strBytes "bob") := by with_unfolding_all decide
  have hblank : ¬ Plain (strBytes "bob b") := by with_unfolding_all decide
  have hne : strBytes "bob" ≠ strBytes "al" := by with_unfolding_all decide
  constructor
  · intro h
    exact hblank ((set_cached_iff documented_sampleServer hempty).mp h).1
  · have hcached : Cached sampleServer emptySample 7 (sampleGuest "bob")
        (setGuestInfo sampleServer (decimal 7) (sampleGuest "bob") emptySample) :=
      (set_cached_iff documented_sampleServer hempty).mpr ⟨hplain, onlyNames_emptySample 7⟩
    obtain ⟨s, hset, hget, -⟩ := hcached
    have hs := hempty.set documented_sampleServer hset
    have hbob := (cached_iff hs documented_sampleServer).mp hget
    refine ⟨s, hset, fun h => hne ?_⟩
    have hal := (update_cached_iff documented_sampleServer hs).mp h
    rw [hbob, Option.some.injEq] at hal
    have hnick := congrFun hal (strBytes "nick")
    rw [GuestInfo.fields_nick, GuestInfo.fields_nick, Option.some.injEq] at hnick
    exact hnick

end LibuvServer.Database
