import LibuvServer.Lib.Double
import LibuvServer.Mylua.LuaValue
import Mathlib.Logic.Function.Basic
import Mathlib.Tactic.Common

/-!
# Messages in Lua

`push_proto_message_tolua` and `luaTableToProtobuf`: protobuf messages made
Lua tables and back, by the descriptors of their types. Both go as deep as
the types or the tables do; how deep they may go is a parameter, and going
deeper has no result. Tables are taken by what they hold, in the order
`lua_next` walks them.
-/

namespace LibuvServer.Mylua.Proto

open LibuvServer.Lib LibuvServer.Netbus

/-! ## Types -/

/-- The kinds of fields that are not messages. -/
inductive CppType where
  | DOUBLE
  | FLOAT
  | INT64
  | UINT64
  | ENUM (numbers : List Int)
  | INT32
  | UINT32
  | STRING
  | BOOL
  deriving DecidableEq

inductive Scalar (F : Type) where
  | double (x : F)
  | float (x : F)
  | int64 (n : Int)
  | uint64 (n : Int)
  | enum (n : Int)
  | int32 (n : Int)
  | uint32 (n : Int)
  | string (s : Bytes)
  | bool (b : Bool)
  deriving DecidableEq

variable {F T : Type}

/-- What a field of this kind can hold. A number an enum does not know is
kept in a message of the newer syntax. -/
def Scalar.Fits : CppType → Scalar F → Prop
  | .DOUBLE, .double _ => True
  | .FLOAT, .float _ => True
  | .INT64, .int64 n => -2 ^ 63 ≤ n ∧ n < 2 ^ 63
  | .UINT64, .uint64 n => 0 ≤ n ∧ n < 2 ^ 64
  | .ENUM _, .enum n => -2 ^ 31 ≤ n ∧ n < 2 ^ 31
  | .INT32, .int32 n => -2 ^ 31 ≤ n ∧ n < 2 ^ 31
  | .UINT32, .uint32 n => 0 ≤ n ∧ n < 2 ^ 32
  | .STRING, .string _ => True
  | .BOOL, .bool _ => True
  | _, _ => False

/-- What a field is: of a kind, with the default value, or a message of the
type with this full name. -/
inductive FieldType (F : Type) where
  | scalar (cpp_type : CppType) (default_value : Scalar F) (fits : default_value.Fits cpp_type)
  | message (message_type : String)

inductive Label where
  | optional
  | required
  | repeated
  deriving DecidableEq

/-- The oneof a field is in goes by its index. -/
structure FieldDescriptor (F : Type) where
  name : Bytes
  label : Label
  type : FieldType F
  containing_oneof : Option Nat

/-- The name of a type inside its package, and its fields. The members of a
oneof have to be optional. -/
structure Descriptor (F : Type) where
  name : String
  fields : List (FieldDescriptor F)
  nodup : (fields.map (·.name)).Nodup
  oneofs : ∀ fd ∈ fields, fd.containing_oneof.isSome → fd.label = .optional

/-- The types there are, by their full names. -/
structure DescriptorPool (F : Type) where
  findMessageTypeByName : String → Option (Descriptor F)
  closed : ∀ type d, findMessageTypeByName type = some d → ∀ fd ∈ d.fields, ∀ type',
    fd.type = .message type' → (findMessageTypeByName type').isSome

/-! ## Messages -/

/-- A value of a field. A message has its type and the values that are set:
none or one of a singular field, the elements of a repeated one. -/
inductive Value (F : Type) where
  | scalar (s : Scalar F)
  | message (type : String) (set : Bytes → List (Value F))

/-- The fields of a message that has just been made. -/
def noneSet : Bytes → List (Value F) := fun _ => []

namespace FieldDescriptor

variable (fd : FieldDescriptor F)

def is_repeated : Bool := fd.label = .repeated

def is_required : Bool := fd.label = .required

/-- What the getter gives of a field that is not set. -/
def default_value : Value F :=
  match fd.type with
  | .scalar _ s _ => .scalar s
  | .message type => .message type noneSet

/-- Both are in the same oneof. -/
def Shares (fd' : FieldDescriptor F) : Prop :=
  fd.containing_oneof.isSome ∧ fd'.containing_oneof = fd.containing_oneof

instance (fd' : FieldDescriptor F) : Decidable (fd.Shares fd') :=
  inferInstanceAs (Decidable (_ ∧ _))

/-- What the getters give: each element of a repeated field, the value of
another, also when it is not set. -/
def getters (vs : List (Value F)) : List (Value F) :=
  if fd.is_repeated then vs else [vs.head?.getD fd.default_value]

end FieldDescriptor

namespace Descriptor

variable (d : Descriptor F) (fd : FieldDescriptor F)

/-- `ClearOneof` of the oneof the field is in. -/
def clearOneof (set : Bytes → List (Value F)) (name : Bytes) : List (Value F) :=
  if name ∈ (d.fields.filter (fd.Shares ·)).map (·.name) then [] else set name

/-- The setters and `Add` methods: a field is set, and no other of its oneof. -/
def setField (vs : List (Value F)) (set : Bytes → List (Value F)) : Bytes → List (Value F) :=
  Function.update (d.clearOneof fd set) fd.name vs

end Descriptor

/-! ## Lua values -/

/-- A Lua value; tables are a type of their own. -/
inductive TValue (T F : Type) where
  | nil
  | boolean (b : Bool)
  | integer (n : Int)
  | number (x : F)
  | string (s : Bytes)
  | table (t : T)
  | other (k : Nat)

/-- A key of a table. -/
inductive LuaKey where
  | integer (n : Int)
  | string (s : Bytes)
  | other (k : Nat)
  deriving DecidableEq

/-- What the tables hold. -/
abbrev LuaHeap (T F : Type) := T → List (LuaKey × TValue T F)

/-- `lua_rawget`. -/
def rawget (heap : LuaHeap T F) (t : T) (key : LuaKey) : TValue T F :=
  ((heap t).lookup key).getD .nil

/-- A table that is known by what it holds. -/
inductive Table (F : Type) where
  | mk (entries : List (LuaKey × TValue (Table F) F))

def Table.entries : LuaHeap (Table F) F
  | .mk entries => entries

/-- A new key comes last. -/
def Table.set (t : Table F) (key : LuaKey) (v : TValue (Table F) F) : Table F :=
  let rest := t.entries.filter (·.1 ≠ key)
  match v with
  | .nil => .mk rest
  | v => .mk (rest ++ [(key, v)])

/-! ## The stack -/

/-- The values on the stack, the top first. -/
abbrev Stack (F : Type) := List (TValue (Table F) F)

def newtable (stack : Stack F) : Stack F := .table (.mk []) :: stack

/-- `lua_rawset(L, -3)`, with a text for a key. -/
def rawset : Stack F → Option (Stack F)
  | v :: .string key :: .table t :: stack => some (.table (t.set (.string key) v) :: stack)
  | _ => none

/-- `lua_rawseti(L, -2, i)`. -/
def rawseti (i : Nat) : Stack F → Option (Stack F)
  | v :: .table t :: stack => some (.table (t.set (.integer i) v) :: stack)
  | _ => none

/-! ## Messages to tables -/

/-- A value of a scalar field as it is pushed: 64 bits go as text. -/
def luaScalar : Scalar F → TValue (Table F) F
  | .double x => .number x
  | .float x => .number x
  | .int64 n => .string (decimal n)
  | .uint64 n => .string (decimal n)
  | .enum n => .integer n
  | .int32 n => .integer n
  | .uint32 n => .integer n
  | .string s => .string s
  | .bool b => .boolean b

section Push

-- what pushes a message
variable (push : String → (Bytes → List (Value F)) → Stack F → Option (Stack F))

def pushValue : Value F → Stack F → Option (Stack F)
  | .scalar s, stack => some (luaScalar s :: stack)
  | .message type set, stack => push type set stack

/-- The loop over the elements of a repeated field, from index `i` of the
table. -/
def pushElements : Nat → List (Value F) → Stack F → Option (Stack F)
  | _, [], stack => some stack
  | i, v :: vs, stack =>
    ((pushValue push v stack).bind (rawseti i)).bind (pushElements (i + 1) vs)

/-- Key and value of a field, as far as `lua_rawset`. -/
def pushField (set : Bytes → List (Value F)) (fd : FieldDescriptor F) (stack : Stack F) :
    Option (Stack F) :=
  let stack := .string fd.name :: stack
  if fd.is_repeated then pushElements push 1 (set fd.name) (newtable stack)
  else pushValue push ((set fd.name).head?.getD fd.default_value) stack

def pushFields (set : Bytes → List (Value F)) : List (FieldDescriptor F) → Stack F →
    Option (Stack F)
  | [], stack => some stack
  | fd :: fields, stack => ((pushField push set fd stack).bind rawset).bind (pushFields set fields)

end Push

/-- `push_proto_message_tolua`, at most `depth` calls deep. -/
def pushProtoMessageTolua (pool : DescriptorPool F) :
    Nat → String → (Bytes → List (Value F)) → Stack F → Option (Stack F)
  | 0, _, _, _ => none
  | depth + 1, type, set, stack =>
    match pool.findMessageTypeByName type with
    | none => none
    | some descriptor =>
      pushFields (pushProtoMessageTolua pool depth) set descriptor.fields (newtable stack)

/-! ## Tables to messages -/

/-- Lua's numbers as the checks read them. -/
structure LuaNumbers (F : Type) where
  /-- An integer as a number. -/
  ofInteger : Int → F
  /-- A text as a number. -/
  str2num : Bytes → Option F
  /-- A number as a text. -/
  num2str : F → Bytes
  /-- The integer part, if there is one. -/
  truncate : F → Option Int
  /-- A number stored into a `float`. -/
  toFloat : F → F

/-- Why a conversion gives nothing at all. -/
inductive Stop where
  /-- A Lua error. -/
  | raised
  /-- A number that does not fit its type, a null pointer, or a failed check
  of the library: not defined, or the end of the program. -/
  | undefined
  /-- Deeper than `depth`. -/
  | deep
  deriving DecidableEq

section Checks

variable (lua : LuaNumbers F)

def luaLChecknumber : TValue T F → Except Stop F
  | .integer n => .ok (lua.ofInteger n)
  | .number x => .ok x
  | .string s =>
    match lua.str2num s with
    | some x => .ok x
    | none => .error .raised
  | _ => .error .raised

def luaLChecklstring : TValue T F → Except Stop Bytes
  | .string s => .ok s
  | .integer n => .ok (decimal n)
  | .number x => .ok (lua.num2str x)
  | _ => .error .raised

def luaToboolean : TValue T F → Bool
  | .nil => false
  | .boolean b => b
  | _ => true

/-- `luaL_checknumber`, stored into an integer type from `low` to below
`high`. -/
def checkStored (low high : Int) (v : TValue T F) : Except Stop Int := do
  let x ← luaLChecknumber lua v
  match lua.truncate x with
  | none => .error .undefined
  | some n => if low ≤ n ∧ n < high then .ok n else .error .undefined

/-- A value for a scalar field. `SetEnum` takes the descriptor of a number
the enum has to know. -/
def toScalar : CppType → TValue T F → Except Stop (Scalar F)
  | .DOUBLE, v => return .double (← luaLChecknumber lua v)
  | .FLOAT, v => return .float (lua.toFloat (← luaLChecknumber lua v))
  | .INT64, v => return .int64 (← checkStored lua (-2 ^ 63) (2 ^ 63) v)
  | .UINT64, v => return .uint64 (← checkStored lua 0 (2 ^ 64) v)
  | .ENUM numbers, v => do
    let value ← checkStored lua (-2 ^ 31) (2 ^ 31) v
    if value ∈ numbers then return .enum value else .error .undefined
  | .INT32, v => return .int32 (← checkStored lua (-2 ^ 31) (2 ^ 31) v)
  | .UINT32, v => return .uint32 (← checkStored lua 0 (2 ^ 32) v)
  | .STRING, v => return .string (← luaLChecklstring lua v)
  | .BOOL, v => return .bool (luaToboolean v)

end Checks

section Convert

variable (lua : LuaNumbers F) (pool : DescriptorPool F) (heap : LuaHeap T F)

-- what converts a table to a message of the type with this name; no message
-- is `NULL`
variable (convert : String → TValue T F → Except Stop (Option (Value F)))

/-- `CopyFrom` takes messages of one type only. -/
def copyFrom (type : String) : Option (Value F) → Except Stop (Option (Value F))
  | none => .ok none
  | some (.scalar _) => .error .undefined
  | some (.message type' set) =>
    if type' = type then .ok (some (.message type' set)) else .error .undefined

/-- A value for a field. A message is made by the name of its type without
the package. -/
def toValue (type : FieldType F) (v : TValue T F) : Except Stop (Option (Value F)) :=
  match type with
  | .scalar cpp_type _ _ => return some (.scalar (← toScalar lua cpp_type v))
  | .message message_type =>
    match pool.findMessageTypeByName message_type with
    | none => .error .undefined
    | some d => do
      let value ← convert d.name v
      copyFrom message_type value

/-- The loop with `lua_next`; the values are added to those there are. -/
def addValues (type : FieldType F) : List (LuaKey × TValue T F) → List (Value F) →
    Except Stop (Option (List (Value F)))
  | [], vs => .ok (some vs)
  | (_, v) :: rest, vs => do
    match ← toValue lua pool convert type v with
    | none => return none
    | some value => addValues type rest (vs ++ [value])

/-- The values of one field after its turn, `vs` before it. -/
def convertField (fd : FieldDescriptor F) (v : TValue T F) (vs : List (Value F)) :
    Except Stop (Option (List (Value F))) :=
  if fd.is_repeated then
    match v with
    | .nil => .ok (some vs)
    | .table elements => addValues lua pool convert fd.type (heap elements) vs
    | _ => .ok none
  else
    match v with
    | .nil => if fd.is_required then .ok none else .ok (some vs)
    | v => return (← toValue lua pool convert fd.type v).map fun value => [value]

/-- The message after the turn of a field: where there is `nil`, nothing is
set. -/
def afterTurn (descriptor : Descriptor F) (fd : FieldDescriptor F) (v : TValue T F)
    (vs : List (Value F)) (set : Bytes → List (Value F)) : Bytes → List (Value F) :=
  match v with
  | .nil => set
  | _ => descriptor.setField fd vs set

def convertFields (descriptor : Descriptor F) (t : T) : List (FieldDescriptor F) →
    (Bytes → List (Value F)) → Except Stop (Option (Bytes → List (Value F)))
  | [], set => .ok (some set)
  | fd :: fields, set => do
    let v := rawget heap t (.string fd.name)
    match ← convertField lua pool heap convert fd v (set fd.name) with
    | none => return none
    | some vs => convertFields descriptor t fields (afterTurn descriptor fd v vs set)

end Convert

/-- `luaTableToProtobuf`, at most `depth` calls deep. -/
def luaTableToProtobuf (lua : LuaNumbers F) (pool : DescriptorPool F) (heap : LuaHeap T F) :
    Nat → String → TValue T F → Except Stop (Option (Value F))
  | 0, _, _ => .error .deep
  | depth + 1, name, v =>
    match v, pool.findMessageTypeByName name with
    | .table t, some descriptor => do
      let set ← convertFields lua pool heap (luaTableToProtobuf lua pool heap depth) descriptor t
        descriptor.fields noneSet
      return set.map (.message name)
    | _, _ => .ok none

end LibuvServer.Mylua.Proto
