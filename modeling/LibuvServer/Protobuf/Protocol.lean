import LibuvServer.Netbus.CommandCodec
import LibuvServer.Protobuf.RoundTrips
import Mathlib.Tactic.Common

/-!
# The messages of `protocol.proto`

The types of `main/protocol/protocol.pb.cc`, and what `protocolManager` does
with them: a command that carries one of them is the same after it was encoded
and decoded, if its fields can be read at all and it fits with its head.
-/

namespace LibuvServer.Protobuf

open LibuvServer.Netbus

/-! ## Types -/

inductive MessageType where
  | GuestInfo
  | GuestLoginReq
  | GuestLoginRes
  | LoginReq
  | LoginRes
  | GuestUpgradeReq
  | GuestUpgradeRes
  deriving DecidableEq

namespace MessageType

def full_name : MessageType → String
  | GuestInfo => "GuestInfo"
  | GuestLoginReq => "GuestLoginReq"
  | GuestLoginRes => "GuestLoginRes"
  | LoginReq => "LoginReq"
  | LoginRes => "LoginRes"
  | GuestUpgradeReq => "GuestUpgradeReq"
  | GuestUpgradeRes => "GuestUpgradeRes"

/-- `nick`, `faceImage`, `vip`, `status` and `guestId`. -/
def guestInfo : Schema :=
  .string 1 true (.int32 2 true (.int32 3 true (.int32 4 true (.int32 5 true .nil))))

/-- `RandKey`. -/
def guestLoginReq : Schema := .string 1 true .nil

/-- `guestError` and `info`. -/
def guestLoginRes : Schema := .int32 1 true (.message 2 false guestInfo .nil)

/-- `username` and `password`. -/
def account : Schema := .string 1 true (.string 2 true .nil)

/-- `status`. -/
def outcome : Schema := .int32 1 true .nil

def schema : MessageType → Schema
  | GuestInfo => guestInfo
  | GuestLoginReq => guestLoginReq
  | GuestLoginRes => guestLoginRes
  | LoginReq | GuestUpgradeReq => account
  | LoginRes | GuestUpgradeRes => outcome

theorem schema_ok (type : MessageType) : type.schema.Ok := by
  cases type <;> decide

/-- `FindMessageTypeByName`, of the types of this file. -/
def ofName (name : String) : Option MessageType :=
  [GuestInfo, GuestLoginReq, GuestLoginRes, LoginReq, LoginRes, GuestUpgradeReq,
    GuestUpgradeRes].find? (·.full_name = name)

theorem ofName_full_name (type : MessageType) : ofName type.full_name = some type := by
  cases type <;> rfl

end MessageType

/-- A message and the type it was made of. -/
structure Message where
  type : MessageType
  fields : type.schema.Msg
  deriving DecidableEq

/-- `protocolManager::createMessage` and `ParseFromArray`. -/
def protocolLib : ProtoLib Message where
  createMessage name := (MessageType.ofName name).map fun type => ⟨type, type.schema.Clear⟩
  parseFromArray pM data := (pM.type.schema.ParseFromArray data).map fun fields => ⟨pM.type, fields⟩

def protocolWriter : ProtoWriter Message where
  typeName m := m.type.full_name
  isInitialized m := m.type.schema.IsInitialized m.fields
  serialized m := m.type.schema.InternalSerialize m.fields

/-! ## Commands -/

namespace Schema

/-- What is written and complete is read. -/
theorem ParseFromArray_write {s : Schema} (hok : s.Ok) {m : s.Msg}
    (hm : s.Fits defaultRecursionLimit m) (hinit : s.IsInitialized m = true) :
    s.ParseFromArray (s.InternalSerialize m) = some m := by
  rw [ParseFromArray, ParsePartialFromArray_write hok hm, Option.bind_some, if_pos hinit]

/-- A field that must be there takes bytes. -/
theorem ByteSizeLong_pos {type : MessageType} {m : type.schema.Msg}
    (hinit : type.schema.IsInitialized m = true) : 0 < type.schema.ByteSizeLong m := by
  have htag : ∀ number type, 0 < TagSize number type := fun number type => by
    rw [TagSize_eq]
    exact List.length_pos_of_ne_nil (WriteTagToArray_ne_nil number type)
  have hstring : ∀ (number : Nat) (rest : Schema) (m : (string number true rest).Msg),
      (string number true rest).IsInitialized m = true →
        0 < (string number true rest).ByteSizeLong m := by
    rintro number rest ⟨v, m⟩ hinit
    cases v with
    | none => cases hinit
    | some t =>
      have hpos := htag number WireType.LENGTH_DELIMITED
      rw [ByteSizeLong, Option.elim_some]
      omega
  have hint32 : ∀ (number : Nat) (rest : Schema) (m : (int32 number true rest).Msg),
      (int32 number true rest).IsInitialized m = true →
        0 < (int32 number true rest).ByteSizeLong m := by
    rintro number rest ⟨v, m⟩ hinit
    cases v with
    | none => cases hinit
    | some n =>
      have hpos := htag number WireType.VARINT
      rw [ByteSizeLong, Option.elim_some]
      omega
  cases type with
  | GuestInfo => exact hstring _ _ m hinit
  | GuestLoginReq => exact hstring _ _ m hinit
  | GuestLoginRes => exact hint32 _ _ m hinit
  | LoginReq => exact hstring _ _ m hinit
  | LoginRes => exact hint32 _ _ m hinit
  | GuestUpgradeReq => exact hstring _ _ m hinit
  | GuestUpgradeRes => exact hint32 _ _ m hinit

end Schema

/-- **A command comes back** with its message. Whatever the type, if it is the
one registered for the command, all required fields are set and the fields are
ones that can be read, the command is encoded inside its block and decoded as
it was whenever head and message have fewer than 2^31 bytes. -/
theorem command_comes_back {pm : ProtocolManager Message} (hbuf : pm.gProtocolType = .PROTOCOL_BUF)
    (hproto : pm.proto = protocolLib) {msg : CommandMessage Message} (h : HeadFits msg)
    {m : Message} (hbody : msg.body = some (.message m))
    (htype : pm.gProtoMap msg.commandType = m.type.full_name)
    (hinit : m.type.schema.IsInitialized m.fields = true)
    (hm : m.type.schema.Fits Schema.defaultRecursionLimit m.fields)
    (hsize : COMMAND_HEAD + m.type.schema.ByteSizeLong m.fields < 2 ^ 31) :
    RoundTrips pm protocolWriter msg := by
  have hlen : m.type.schema.ByteSizeLong m.fields =
      (m.type.schema.InternalSerialize m.fields).length := Schema.ByteSizeLong_eq hm
  -- the writer of this one message
  let w : ProtoWriter Message := { protocolWriter with isInitialized := fun m' => decide (m' = m) }
  have hparse : ParsesBack pm.proto w := by
    intro m' size bytes hone hser
    obtain rfl := of_decide_eq_true hone
    have hbytes : bytes = m'.type.schema.InternalSerialize m'.fields := by
      rw [ProtoWriter.serializePartialToArray] at hser
      obtain ⟨-, hser⟩ := Option.ite_none_left_eq_some.mp hser
      obtain ⟨-, hser⟩ := Option.ite_none_left_eq_some.mp hser
      exact (Option.some.inj hser).symm
    refine ⟨⟨m'.type, m'.type.schema.Clear⟩, ?_, ?_⟩
    · rw [hproto]
      exact congrArg (Option.map _) (MessageType.ofName_full_name m'.type)
    · rw [hproto, hbytes]
      exact congrArg (Option.map _) (Schema.ParseFromArray_write m'.type.schema_ok hm hinit)
  rw [hlen] at hsize
  have hpos := Schema.ByteSizeLong_pos hinit
  rw [hlen] at hpos
  exact roundTrips_message (w := w) hbuf hparse h hbody htype.symm (decide_eq_true rfl) hpos hsize

/-- A guest's answer under tag 7. -/
theorem command_comes_back_guest :
    RoundTrips ⟨.PROTOCOL_BUF, fun commandType => if commandType = 2 then "GuestLoginRes" else "",
        protocolLib⟩ protocolWriter
      ⟨1, 2, 7, some (.message ⟨.GuestLoginRes,
        some 1, some (some [0x6b], some 3, some 0, some 0, some 77, .nil), .nil⟩)⟩ := by
  refine command_comes_back rfl rfl ⟨by decide, by decide, by decide⟩ rfl rfl rfl ?_ (by decide)
  refine ⟨fun n hn => ?_, fun sub hsub => ?_, trivial, trivial⟩
  · cases hn
    exact ⟨by decide, by decide⟩
  · cases hsub
    refine ⟨by decide, ⟨fun t ht => ?_, fun n hn => ?_, fun n hn => ?_, fun n hn => ?_,
      fun n hn => ?_, trivial, trivial⟩, by decide⟩
    · cases ht
      decide
    all_goals
      cases hn
      exact ⟨by decide, by decide⟩

end LibuvServer.Protobuf
