import LibuvServer.Mylua.LuaSession
import LibuvServer.Mylua.MessageTrips
import LibuvServer.Netbus.CommandCodec
import Mathlib.Tactic.Common

/-!
# Messages sent from Lua

`Session.sendMessage` of `mylua/session/lua_session.cc`, down to what
`Session_uv::sendMessage` hands to `sendData`. The table of the body may hold
anything, itself included.
-/

namespace LibuvServer.Mylua.Proto

open LibuvServer.Lib LibuvServer.Netbus

variable {F T : Type}

/-! ## The call -/

section Call

/-- `luaL_checkinteger`; what but an integer stands for one is up to Lua. -/
def luaLCheckinteger (stands : TValue T F → Option Int) : TValue T F → Except Stop Int
  | .integer n => .ok n
  | v =>
    match stands v with
    | some n => .ok n
    | none => .error .raised

/-- `lua_tostring`; no text is `NULL`. -/
def luaTostring (lua : LuaNumbers F) : TValue T F → Option Bytes
  | .string s => some s
  | .integer n => some (decimal n)
  | .number x => some (lua.num2str x)
  | _ => none

def luaIstable : TValue T F → Bool
  | .table _ => true
  | _ => false

/-- What the call uses: the numbers and tables of Lua, `luaL_len`, and the
commands and types of protobuf. -/
structure Sender (T F : Type) where
  lua : LuaNumbers F
  stands : TValue T F → Option Int
  heap : LuaHeap T F
  len : T → Nat
  pool : DescriptorPool F
  pm : ProtocolManager (Value F)
  writer : ProtoWriter (Value F)

variable (S : Sender T F)

/-- `Session_uv::sendMessage`: the blocks it hands to `sendData`, with their
lengths. -/
def sessionSendMessage (msg : CommandMessage (Value F)) : List (RawBlock UInt8 × Int) :=
  match encodeCmdMsg S.pm S.writer msg with
  | none => []
  | some encodePkg => [encodePkg]

/-- `Session.sendMessage` on a session, with the arguments after it. The
table of the body is looked for at index 6 of the stack, where it is when
there are two arguments in all. -/
def sendMessage (depth : Nat) (args : List (TValue T F)) :
    Except Stop (List (RawBlock UInt8 × Int)) :=
  match args with
  | .table t :: _ =>
    if S.len t = 4 then do
      let first := rawget S.heap t (.integer 1)
      let serverType ← luaLCheckinteger S.stands first
      let second := rawget S.heap t (.integer 2)
      let commandType ← luaLCheckinteger S.stands second
      let third := rawget S.heap t (.integer 3)
      let tags ← luaLCheckinteger S.stands third
      let top := rawget S.heap t (.integer 4)
      let send := fun body => sessionSendMessage S
        ⟨toUnsigned serverType, toUnsigned commandType, toUnsigned tags, body⟩
      match S.pm.gProtocolType with
      | .PROTOCOL_JSON => return send ((luaTostring S.lua top).map .json)
      | .PROTOCOL_BUF =>
        let stack := .nil :: args ++ [first, second, third, top]
        if luaIstable (stack.getD 5 .nil) then do
          let msgName := S.pm.gProtoMap (toUnsigned commandType)
          let body ← luaTableToProtobuf S.lua S.pool S.heap depth msgName top
          return send (body.map .message)
        else return send none
    else return []
  | _ => return []

end Call

/-! ## What is wanted -/

/-- The values there are for a field: the elements of a repeated one, in any
place, or the one that is not `nil`. -/
def given (heap : LuaHeap T F) (t : T) (fd : FieldDescriptor F) : List (TValue T F) :=
  if fd.is_repeated then
    match rawget heap t (.string fd.name) with
    | .table elements => (heap elements).map (·.2)
    | _ => []
  else
    match rawget heap t (.string fd.name) with
    | .nil => []
    | v => [v]

/-- The table describes a message of the type: every key names a field, what
is required is there, repeated fields are tables, and the values of message
fields are tables that describe messages of their types. -/
inductive Conforms (pool : DescriptorPool F) (heap : LuaHeap T F) : String → T → Prop
  | mk {type : String} {t : T} {d : Descriptor F}
      (hd : pool.findMessageTypeByName type = some d)
      (known : ∀ e ∈ heap t, ∃ fd ∈ d.fields, e.1 = .string fd.name)
      (required : ∀ fd ∈ d.fields, fd.label = .required →
        rawget heap t (.string fd.name) ≠ .nil)
      (tables : ∀ fd ∈ d.fields, fd.label = .repeated →
        rawget heap t (.string fd.name) ≠ .nil →
          ∃ elements, rawget heap t (.string fd.name) = .table elements)
      (messages : ∀ fd ∈ d.fields, ∀ type', fd.type = .message type' →
        ∀ v ∈ given heap t fd, ∃ t', v = .table t')
      (inside : ∀ fd ∈ d.fields, ∀ type' t', fd.type = .message type' →
        .table t' ∈ given heap t fd → Conforms pool heap type' t') :
      Conforms pool heap type t

/-- The same without a look at what keys there are. -/
inductive Described (pool : DescriptorPool F) (heap : LuaHeap T F) : String → T → Prop
  | mk {type : String} {t : T} {d : Descriptor F}
      (hd : pool.findMessageTypeByName type = some d)
      (required : ∀ fd ∈ d.fields, fd.label = .required →
        rawget heap t (.string fd.name) ≠ .nil)
      (tables : ∀ fd ∈ d.fields, fd.label = .repeated →
        rawget heap t (.string fd.name) ≠ .nil →
          ∃ elements, rawget heap t (.string fd.name) = .table elements)
      (messages : ∀ fd ∈ d.fields, ∀ type', fd.type = .message type' →
        ∀ v ∈ given heap t fd, ∃ t', v = .table t')
      (inside : ∀ fd ∈ d.fields, ∀ type' t', fd.type = .message type' →
        .table t' ∈ given heap t fd → Described pool heap type' t') :
      Described pool heap type t

/-- The tables in a table, with the types their fields have. -/
inductive Visited (pool : DescriptorPool F) (heap : LuaHeap T F) (type : String) (t : T) :
    String → T → Prop
  | root : Visited pool heap type t type t
  | inside {type' type'' : String} {t' t'' : T} {d : Descriptor F} {fd : FieldDescriptor F}
      (h : Visited pool heap type t type' t') (hd : pool.findMessageTypeByName type' = some d)
      (hfd : fd ∈ d.fields) (htype : fd.type = .message type'')
      (ht : .table t'' ∈ given heap t' fd) : Visited pool heap type t type'' t''

/-- It holds of the table and of every table in it. -/
def Everywhere (pool : DescriptorPool F) (heap : LuaHeap T F) (Q : String → T → Prop)
    (type : String) (t : T) : Prop :=
  ∀ type' t', Visited pool heap type t type' t' → Q type' t'

/-- Scalars are of the kinds their fields need, and enums know their numbers. -/
def ScalarsFit (lua : LuaNumbers F) (pool : DescriptorPool F) (heap : LuaHeap T F)
    (type : String) (t : T) : Prop :=
  ∀ d, pool.findMessageTypeByName type = some d → ∀ fd ∈ d.fields, ∀ cpp_type s fits,
    fd.type = .scalar cpp_type s fits → ∀ v ∈ given heap t fd,
      ∃ s', toScalar lua cpp_type v = .ok s'

/-- The message fields that are given are of types whose names are their full
names: in no package, and not inside another type. -/
def OwnNames (pool : DescriptorPool F) (heap : LuaHeap T F) (type : String) (t : T) : Prop :=
  ∀ d, pool.findMessageTypeByName type = some d → ∀ fd ∈ d.fields, ∀ type' d',
    fd.type = .message type' → pool.findMessageTypeByName type' = some d' →
      given heap t fd ≠ [] → d'.name = type'

/-- What is written is the command with the message that the body becomes. -/
def Carries (S : Sender T F) (t₀ : T) (type : String) (t : T)
    (out : List (RawBlock UInt8 × Int)) : Prop :=
  ∃ depth m serverType commandType tags,
    luaTableToProtobuf S.lua S.pool S.heap depth type (.table t) = .ok (some m) ∧
    luaLCheckinteger S.stands (rawget S.heap t₀ (.integer 1)) = .ok serverType ∧
    luaLCheckinteger S.stands (rawget S.heap t₀ (.integer 2)) = .ok commandType ∧
    luaLCheckinteger S.stands (rawget S.heap t₀ (.integer 3)) = .ok tags ∧
    out ≠ [] ∧ out = sessionSendMessage S
      ⟨toUnsigned serverType, toUnsigned commandType, toUnsigned tags, some (.message m)⟩

theorem given_nil {heap : LuaHeap T F} {t : T} {fd : FieldDescriptor F}
    (h : rawget heap t (.string fd.name) = .nil) : given heap t fd = [] := by
  unfold given
  rw [h]
  exact ite_self _

theorem given_singular {heap : LuaHeap T F} {t : T} {fd : FieldDescriptor F}
    (hrep : fd.is_repeated = false) (h : rawget heap t (.string fd.name) ≠ .nil) :
    given heap t fd = [rawget heap t (.string fd.name)] := by
  unfold given
  rw [hrep, if_neg Bool.false_ne_true]
  split
  · exact absurd ‹_› h
  · rfl

theorem Visited.trans {pool : DescriptorPool F} {heap : LuaHeap T F} {type type' type'' : String}
    {t t' t'' : T} (h : Visited pool heap type t type' t')
    (h' : Visited pool heap type' t' type'' t'') : Visited pool heap type t type'' t'' := by
  induction h' with
  | root => exact h
  | inside _ hd hfd htype ht ih => exact .inside ih hd hfd htype ht

theorem Everywhere.visited {pool : DescriptorPool F} {heap : LuaHeap T F}
    {Q : String → T → Prop} {type type' : String} {t t' : T} (h : Everywhere pool heap Q type t)
    (hvisit : Visited pool heap type t type' t') : Everywhere pool heap Q type' t' :=
  fun _ _ h' => h _ _ (hvisit.trans h')

/-! ## What is accepted -/

section Accepted

variable {lua : LuaNumbers F} {pool : DescriptorPool F} {heap : LuaHeap T F}
  {convert : String → TValue T F → Except Stop (Option (Value F))} {fd : FieldDescriptor F}
  {vs : List (Value F)} {w : Value F} {type : String} {t : T} {n : Nat}

/-- The depth that is enough for every value in a table. -/
theorem exists_depth {fields : List (FieldDescriptor F)}
    {Q : Nat → FieldDescriptor F → TValue T F → Prop}
    (h : ∀ fd ∈ fields, ∀ v ∈ given heap t fd, ∃ m, ∀ n, m ≤ n → Q n fd v) :
    ∃ m, ∀ n, m ≤ n → ∀ fd ∈ fields, ∀ v ∈ given heap t fd, Q n fd v := by
  have hfields : ∃ m, ∀ fd ∈ fields, ∀ v ∈ given heap t fd, ∀ n, m ≤ n → Q n fd v :=
    exists_bound (P := fun m fd => ∀ v ∈ given heap t fd, ∀ n, m ≤ n → Q n fd v)
      (fun m fd hfd v hv n hn => hfd v hv n (by omega))
      fun fd hfd => exists_bound (fun m v hv n hn => hv n (by omega)) (h fd hfd)
  obtain ⟨m, hm⟩ := hfields
  exact ⟨m, fun n hn fd hfd v hv => hm fd hfd v hv n hn⟩

theorem Conforms.visited {type' : String} {t' : T} (h : Conforms pool heap type t)
    (hvisit : Visited pool heap type t type' t') : Conforms pool heap type' t' := by
  induction hvisit with
  | root => exact h
  | inside _ hd hfd htype ht ih =>
    cases ih with
    | mk hd' _ _ _ _ inside =>
      rw [hd, Option.some.injEq] at hd'
      subst hd'
      exact inside _ hfd _ _ htype ht

/-- A repeated field is accepted when it is a table of values that are. -/
theorem repeated_accepts_iff (hlabel : fd.label = .repeated) :
    (∃ vs', convertField lua pool heap convert fd (rawget heap t (.string fd.name)) vs =
        .ok (some vs')) ↔
      (rawget heap t (.string fd.name) ≠ .nil →
        ∃ elements, rawget heap t (.string fd.name) = .table elements) ∧
      ∀ v ∈ given heap t fd, ∃ w, toValue lua pool convert fd.type v = .ok (some w) := by
  have hrep : fd.is_repeated = true := decide_eq_true hlabel
  unfold convertField given
  rw [hrep, if_pos rfl, if_pos rfl]
  cases rawget heap t (.string fd.name) with
  | nil => exact iff_of_true ⟨vs, rfl⟩ ⟨fun h => absurd rfl h, fun v hv => by cases hv⟩
  | table elements =>
    show (∃ vs', addValues lua pool convert fd.type (heap elements) vs = .ok (some vs')) ↔
      _ ∧ ∀ v ∈ (heap elements).map (·.2), _
    rw [addValues_accepts_iff, List.forall_mem_map]
    exact (and_iff_right fun _ => ⟨elements, rfl⟩).symm
  | _ =>
    refine iff_of_false (fun h => ?_) fun h => ?_
    · obtain ⟨vs', hvs'⟩ := h
      cases hvs'
    · obtain ⟨elements, helements⟩ := h.1 (by intro hnil; cases hnil)
      cases helements

/-- Another field is accepted when its value is, or when it may be left out. -/
theorem singular_accepts_iff (hlabel : fd.label ≠ .repeated) :
    (∃ vs', convertField lua pool heap convert fd (rawget heap t (.string fd.name)) vs =
        .ok (some vs')) ↔
      (fd.label = .required → rawget heap t (.string fd.name) ≠ .nil) ∧
      ∀ v ∈ given heap t fd, ∃ w, toValue lua pool convert fd.type v = .ok (some w) := by
  have hrep : fd.is_repeated = false := decide_eq_false hlabel
  by_cases hnil : rawget heap t (.string fd.name) = .nil
  · rw [given_nil hnil, hnil]
    unfold convertField
    rw [hrep, if_neg Bool.false_ne_true]
    show (∃ vs', (if fd.is_required then Except.ok none else .ok (some vs)) = .ok (some vs')) ↔ _
    by_cases hrequired : fd.label = .required
    · have hreq : fd.is_required = true := decide_eq_true hrequired
      rw [if_pos hreq]
      refine iff_of_false (fun h => ?_) fun h => h.1 hrequired rfl
      obtain ⟨vs', hvs'⟩ := h
      cases hvs'
    · have hreq : ¬ fd.is_required = true := fun h => hrequired (of_decide_eq_true h)
      rw [if_neg hreq]
      exact iff_of_true ⟨vs, rfl⟩ ⟨fun h => absurd h hrequired, fun v hv => by cases hv⟩
  · rw [given_singular hrep hnil, convertField_singular hrep hnil, List.forall_mem_singleton]
    constructor
    · rintro ⟨vs', hrun⟩
      obtain ⟨value, hvalue, heq⟩ := bind_eq_ok.mp hrun
      cases value with
      | none => cases heq
      | some w => exact ⟨fun _ => hnil, w, hvalue⟩
    · rintro ⟨-, w, hw⟩
      exact ⟨[w], bind_eq_ok.mpr ⟨some w, hw, rfl⟩⟩

/-- A field is accepted when it is there if it has to be, a table if it is
repeated, and all its values are accepted. -/
theorem field_accepts_iff :
    (∃ vs', convertField lua pool heap convert fd (rawget heap t (.string fd.name)) vs =
        .ok (some vs')) ↔
      (fd.label = .required → rawget heap t (.string fd.name) ≠ .nil) ∧
      (fd.label = .repeated → rawget heap t (.string fd.name) ≠ .nil →
        ∃ elements, rawget heap t (.string fd.name) = .table elements) ∧
      ∀ v ∈ given heap t fd, ∃ w, toValue lua pool convert fd.type v = .ok (some w) := by
  by_cases hlabel : fd.label = .repeated
  · have hrequired : fd.label = .required → rawget heap t (.string fd.name) ≠ .nil := by
      intro h
      rw [hlabel] at h
      cases h
    rw [repeated_accepts_iff hlabel, and_iff_right hrequired, forall_prop_of_true hlabel]
  · have htables : fd.label = .repeated → rawget heap t (.string fd.name) ≠ .nil →
        ∃ elements, rawget heap t (.string fd.name) = .table elements :=
      fun h => absurd h hlabel
    rw [singular_accepts_iff hlabel, and_iff_right htables]

/-- **One level**: a table is accepted when its fields are. -/
theorem table_accepts_iff {d : Descriptor F} (hd : pool.findMessageTypeByName type = some d) :
    (∃ m, luaTableToProtobuf lua pool heap (n + 1) type (.table t) = .ok (some m)) ↔
      ∀ fd ∈ d.fields,
        (fd.label = .required → rawget heap t (.string fd.name) ≠ .nil) ∧
        (fd.label = .repeated → rawget heap t (.string fd.name) ≠ .nil →
          ∃ elements, rawget heap t (.string fd.name) = .table elements) ∧
        ∀ v ∈ given heap t fd,
          ∃ w, toValue lua pool (luaTableToProtobuf lua pool heap n) fd.type v = .ok (some w) := by
  rw [luaTableToProtobuf_converts hd]
  exact forall₂_congr fun fd _ => field_accepts_iff

theorem Described.accepted (h : Described pool heap type t)
    (hkinds : Everywhere pool heap (ScalarsFit lua pool heap) type t)
    (hnames : Everywhere pool heap (OwnNames pool heap) type t) :
    ∃ k, ∀ n, k ≤ n → ∃ m, luaTableToProtobuf lua pool heap n type (.table t) = .ok (some m) := by
  induction h with
  | @mk type t d hd hrequired htables hmessages _ ih =>
    have hvalue : ∀ fd ∈ d.fields, ∀ v ∈ given heap t fd, ∃ k, ∀ n, k ≤ n →
        ∃ w, toValue lua pool (luaTableToProtobuf lua pool heap n) fd.type v = .ok (some w) := by
      intro fd hfd v hv
      cases htype : fd.type with
      | scalar cpp_type s fits =>
        obtain ⟨s', hs'⟩ := hkinds _ _ .root d hd fd hfd cpp_type s fits htype v hv
        refine ⟨0, fun n _ => ⟨.scalar s', ?_⟩⟩
        rw [toValue, hs']
        rfl
      | message type' =>
        obtain ⟨t', rfl⟩ := hmessages fd hfd type' htype v hv
        obtain ⟨d', hd'⟩ := Option.isSome_iff_exists.mp (pool.closed type d hd fd hfd type' htype)
        have hvisit : Visited pool heap type t type' t' := .inside .root hd hfd htype hv
        obtain ⟨k, hk⟩ := ih fd hfd type' t' htype hv (hkinds.visited hvisit)
          (hnames.visited hvisit)
        have hname : d'.name = type' :=
          hnames _ _ .root d hd fd hfd type' d' htype hd' (List.ne_nil_of_mem hv)
        refine ⟨k, fun n hn => ?_⟩
        obtain ⟨m, hm⟩ := hk n hn
        exact ⟨m, (toValue_message hd' hname).mpr hm⟩
    obtain ⟨k, hk⟩ := exists_depth hvalue
    refine ⟨k + 1, fun n hn => ?_⟩
    cases n with
    | zero => omega
    | succ n =>
      have hall := hk n (by omega)
      exact (table_accepts_iff hd).mpr fun fd hfd =>
        ⟨hrequired fd hfd, htables fd hfd, hall fd hfd⟩

end Accepted

/-! ## What is sent -/

section Sent

variable {S : Sender T F} {type : String} {t₀ t : T}

end Sent

/-! ## Samples -/

theorem rawget_self {key : LuaKey} {v : TValue (Table F) F}
    {rest : List (LuaKey × TValue (Table F) F)} :
    rawget Table.entries (.mk ((key, v) :: rest)) key = v := by
  rw [rawget, Table.entries, List.lookup_cons_self]
  rfl

theorem rawget_other {key key' : LuaKey} {v : TValue (Table F) F}
    {rest : List (LuaKey × TValue (Table F) F)} (h : key' ≠ key) :
    rawget Table.entries (.mk ((key, v) :: rest)) key' = rawget Table.entries (.mk rest) key' := by
  rw [rawget, rawget, Table.entries, Table.entries, List.lookup_cons, beq_false_of_ne h]

end LibuvServer.Mylua.Proto
