import LibuvServer.Protobuf.UnknownFields
import Mathlib.Tactic.Common

/-!
# Generated messages

What `protoc` generates for a message type, as functions of its fields: the
same switch, the same writes in the order of the numbers and the same sums for
every type. A message has its fields, each set or not, and the fields it does
not know.
-/

namespace LibuvServer.Protobuf

/-- The fields of a type in the order of their numbers. -/
inductive Schema where
  | nil
  | int32 (number : Nat) (required : Bool) (rest : Schema)
  | string (number : Nat) (required : Bool) (rest : Schema)
  | message (number : Nat) (required : Bool) (type : Schema) (rest : Schema)
  deriving DecidableEq

/-- `static_cast<int32>` of what `ReadVarint` gives. -/
def toInt32 (value : Nat) : Int := Int.bmod value (2 ^ 32)

/-- `ParseContext::ParseMessage`, with `depth_` as it is before. The fields of
the message are up to the limit. -/
def ParseMessage {M : Type} (depth : Nat) (field : Nat → M → List UInt8 → Read M) (m : M)
    (p : List UInt8) : Read M :=
  (ReadSize p).bind fun (size, p) =>
    if depth = 0 ∨ p.length < size then none
    else (parse field m (p.take size)).bind fun e =>
      -- `PopLimit`
      if e.last_tag_minus_1 = 0 then some (e.msg, p.drop size) else none

namespace Schema

/-- A message of the type. -/
@[reducible] def Msg : Schema → Type
  | nil => UnknownFieldSet
  | int32 _ _ rest => Option Int × rest.Msg
  | string _ _ rest => Option (List UInt8) × rest.Msg
  | message _ _ type rest => Option type.Msg × rest.Msg

instance Msg.decEq : (s : Schema) → DecidableEq s.Msg
  | nil => inferInstanceAs (DecidableEq UnknownFieldSet)
  | int32 _ _ rest =>
    have := Msg.decEq rest
    inferInstanceAs (DecidableEq (Option Int × rest.Msg))
  | string _ _ rest =>
    have := Msg.decEq rest
    inferInstanceAs (DecidableEq (Option (List UInt8) × rest.Msg))
  | message _ _ type rest =>
    have := Msg.decEq type
    have := Msg.decEq rest
    inferInstanceAs (DecidableEq (Option type.Msg × rest.Msg))

/-- `Clear`, and a new message. -/
def Clear : (s : Schema) → s.Msg
  | nil => .nil
  | int32 _ _ rest => (none, rest.Clear)
  | string _ _ rest => (none, rest.Clear)
  | message _ _ _ rest => (none, rest.Clear)

/-- The switch of `_InternalParse`. A tag that is no field's is unusual. -/
def parseField (depth : Nat) : (s : Schema) → Nat → s.Msg → List UInt8 → Read s.Msg
  | nil, tag, unknown, p => UnknownFieldParse depth tag unknown p
  | int32 number _ rest, tag, (v, m), p =>
    if tag = MakeTag number WireType.VARINT then
      (VarintParse p).map fun (value, p) => ((some (toInt32 value), m), p)
    else (rest.parseField depth tag m p).map fun (m, p) => ((v, m), p)
  | string number _ rest, tag, (v, m), p =>
    if tag = MakeTag number WireType.LENGTH_DELIMITED then
      (InlineGreedyStringParser p).map fun (s, p) => ((some s, m), p)
    else (rest.parseField depth tag m p).map fun (m, p) => ((v, m), p)
  | message number _ type rest, tag, (v, m), p =>
    if tag = MakeTag number WireType.LENGTH_DELIMITED then
      (ParseMessage depth (type.parseField (depth - 1)) (v.getD type.Clear) p).map
        fun (sub, p) => ((some sub, m), p)
    else (rest.parseField depth tag m p).map fun (m, p) => ((v, m), p)

/-- `_InternalParse`. -/
def InternalParse (s : Schema) (depth : Nat) (m : s.Msg) (p : List UInt8) : Option (Ended s.Msg) :=
  parse (s.parseField depth) m p

def ByteSizeLong : (s : Schema) → s.Msg → Nat
  | nil, unknown => ComputeUnknownFieldsSize unknown
  | int32 number _ rest, (v, m) =>
    v.elim 0 (fun v => TagSize number WireType.VARINT + Int32Size v) + rest.ByteSizeLong m
  | string number _ rest, (v, m) =>
    v.elim 0 (fun s => TagSize number WireType.LENGTH_DELIMITED + LengthDelimitedSize s.length) +
      rest.ByteSizeLong m
  | message number _ type rest, (v, m) =>
    v.elim 0 (fun sub => TagSize number WireType.LENGTH_DELIMITED +
      LengthDelimitedSize (type.ByteSizeLong sub)) + rest.ByteSizeLong m

/-- `InternalSerializeWithCachedSizesToArray`: the size of a message inside is
the one `ByteSizeLong` has left there. -/
def InternalSerialize : (s : Schema) → s.Msg → List UInt8
  | nil, unknown => InternalSerializeUnknownFieldsToArray unknown
  | int32 number _ rest, (v, m) => v.elim [] (WriteInt32ToArray number) ++ rest.InternalSerialize m
  | string number _ rest, (v, m) => v.elim [] (WriteString number) ++ rest.InternalSerialize m
  | message number _ type rest, (v, m) =>
    v.elim [] (fun sub => WriteTagToArray number WireType.LENGTH_DELIMITED ++
      UnsafeVarint (type.ByteSizeLong sub % 2 ^ 32) ++ type.InternalSerialize sub) ++
      rest.InternalSerialize m

def MergeFrom : (s : Schema) → s.Msg → s.Msg → s.Msg
  | nil, unknown, unknown' => unknown.append unknown'
  | int32 _ _ rest, (v, m), (v', m') => (v'.or v, rest.MergeFrom m m')
  | string _ _ rest, (v, m), (v', m') => (v'.or v, rest.MergeFrom m m')
  | message _ _ type rest, (v, m), (v', m') =>
    (v'.elim v fun sub' => some (type.MergeFrom (v.getD type.Clear) sub'), rest.MergeFrom m m')

/-- Every required field is set, also in the messages inside. -/
def IsInitialized : (s : Schema) → s.Msg → Bool
  | nil, _ => true
  | int32 _ required rest, (v, m) => (v.isSome || !required) && rest.IsInitialized m
  | string _ required rest, (v, m) => (v.isSome || !required) && rest.IsInitialized m
  | message _ required type rest, (v, m) =>
    (v.isSome || !required) && v.elim true type.IsInitialized && rest.IsInitialized m

/-! ## Arrays -/

/-- `CodedInputStream::GetDefaultRecursionLimit`. -/
def defaultRecursionLimit : Nat := 100

/-- `MergePartialFromImpl` of an array. -/
def MergePartialFromArray (s : Schema) (m : s.Msg) (data : List UInt8) : Option s.Msg :=
  (s.InternalParse defaultRecursionLimit m data).bind fun e =>
    if e.last_tag_minus_1 = 0 then some e.msg else none

def ParsePartialFromArray (s : Schema) (data : List UInt8) : Option s.Msg :=
  s.MergePartialFromArray s.Clear data

def ParseFromArray (s : Schema) (data : List UInt8) : Option s.Msg :=
  (s.ParsePartialFromArray data).bind fun m => if s.IsInitialized m then some m else none

/-- `SerializePartialToArray`: the bytes it writes into so large an array. -/
def SerializePartialToArray (s : Schema) (m : s.Msg) (size : Nat) : Option (List UInt8) :=
  if INT_MAX < s.ByteSizeLong m then none
  else if size < s.ByteSizeLong m then none
  else some (s.InternalSerialize m)

end Schema

end LibuvServer.Protobuf
