import LibuvServer.Netbus.TcpProtocol
import Mathlib.Tactic.Common

/-!
# Commands

`netbus/protocolmanager.cc`: a command is an eight-byte head, with the
service, the command and the tag, and a body that is JSON text or a protobuf
message. Protobuf is vendored under `package/` and enters as `ProtoLib`.
-/

namespace LibuvServer.Netbus

/-- The size of a command's head. -/
def COMMAND_HEAD : Nat := 8

inductive ProtocolType where
  | PROTOCOL_JSON
  | PROTOCOL_BUF
  deriving DecidableEq

/-- What decoding takes from protobuf. -/
structure ProtoLib (Message : Type) where
  /-- A new message of the named type, when there is such a type. -/
  createMessage : String → Option Message
  parseFromArray : Message → Bytes → Option Message

/-- The file-level statics of `protocolmanager.cc`. A command without an
entry in the map has the empty name. -/
structure ProtocolManager (Message : Type) where
  gProtocolType : ProtocolType
  gProtoMap : Nat → String
  proto : ProtoLib Message

inductive Body (Message : Type) where
  | json (text : Bytes)
  | message (pM : Message)

/-- `commandMessage`. -/
structure CommandMessage (Message : Type) where
  serverType : Nat
  commandType : Nat
  tags : Nat
  body : Option (Body Message)

/-- A command as it is forwarded: the head decoded, the bytes as they came. -/
structure Gateway2Server where
  serverType : Nat
  commandType : Nat
  tags : Nat
  rawCmd : Bytes
  rawLen : Int
  deriving DecidableEq

/-! ## The head -/

def cmdServerType (cmd : Bytes) : Nat := byteAt cmd 0 ||| byteAt cmd 1 <<< 8

def cmdCommandType (cmd : Bytes) : Nat := byteAt cmd 2 ||| byteAt cmd 3 <<< 8

def cmdTags (cmd : Bytes) : Nat :=
  byteAt cmd 4 ||| byteAt cmd 5 <<< 8 ||| byteAt cmd 6 <<< 16 ||| byteAt cmd 7 <<< 24

/-- `protocolManager::decodeMsgHead`. -/
def decodeMsgHead (cmd : Bytes) (cmdLen : Int) : Option Gateway2Server :=
  if cmdLen < COMMAND_HEAD then none
  else some
    { serverType := cmdServerType cmd
      commandType := cmdCommandType cmd
      tags := cmdTags cmd
      rawCmd := cmd
      rawLen := cmdLen }

theorem decodeMsgHead_tags {cmd : Bytes} {raw : Gateway2Server}
    (h : decodeMsgHead cmd cmd.length = some raw) : raw.tags = cmdTags cmd := by
  unfold decodeMsgHead at h
  split at h
  · cases h
  · cases h
    rfl

theorem decodeMsgHead_rawCmd {cmd : Bytes} {raw : Gateway2Server}
    (h : decodeMsgHead cmd cmd.length = some raw) :
    COMMAND_HEAD ≤ cmd.length ∧ raw.rawCmd = cmd := by
  unfold decodeMsgHead at h
  split at h
  · cases h
  · cases h
    exact ⟨by omega, rfl⟩

/-- `protocolManager::decodeCmdMsg`. -/
def decodeCmdMsg {Message : Type} (pm : ProtocolManager Message) (cmd : Bytes) (cmdLen : Int) :
    Option (CommandMessage Message) :=
  if cmdLen < COMMAND_HEAD then none
  else
    let msg : CommandMessage Message :=
      { serverType := cmdServerType cmd
        commandType := cmdCommandType cmd
        tags := cmdTags cmd
        body := none }
    if cmdLen = COMMAND_HEAD then some msg
    else
      match pm.gProtocolType with
      | .PROTOCOL_JSON => some { msg with body := some (.json (cmd.drop COMMAND_HEAD)) }
      | .PROTOCOL_BUF =>
        match pm.proto.createMessage (pm.gProtoMap msg.commandType) with
        | none => none
        | some pM =>
          match pm.proto.parseFromArray pM (cmd.drop COMMAND_HEAD) with
          | none => none
          | some pM => some { msg with body := some (.message pM) }

/-- Both decoders read the same head. -/
theorem decodeCmdMsg_head {Message : Type} {pm : ProtocolManager Message} {cmd : Bytes}
    {cmdLen : Int} {msg : CommandMessage Message} {raw : Gateway2Server}
    (h : decodeCmdMsg pm cmd cmdLen = some msg) (hraw : decodeMsgHead cmd cmdLen = some raw) :
    msg.serverType = raw.serverType ∧ msg.commandType = raw.commandType ∧
      msg.tags = raw.tags := by
  unfold decodeMsgHead at hraw
  unfold decodeCmdMsg at h
  split at hraw
  · cases hraw
  · rename_i hlen
    cases hraw
    rw [if_neg hlen] at h
    simp only at h
    repeat' split at h
    all_goals cases h
    all_goals exact ⟨rfl, rfl, rfl⟩

/-- Four bytes, low byte first, make a number. -/
theorem cmdTags_eq (cmd : Bytes) :
    cmdTags cmd = byteAt cmd 4 + 2 ^ 8 * byteAt cmd 5 + 2 ^ 16 * byteAt cmd 6 +
      2 ^ 24 * byteAt cmd 7 := by
  have h4 := byteAt_lt cmd 4
  have h5 := byteAt_lt cmd 5
  have h6 := byteAt_lt cmd 6
  rw [cmdTags, or_shiftLeft (k := 8) (by omega), or_shiftLeft (k := 16) (by omega),
    or_shiftLeft (k := 24) (by omega)]

/-- `memcpy` of an `unsigned int`: the low byte comes first. -/
def uintBytes (n : Nat) : Bytes :=
  [UInt8.ofNat n, UInt8.ofNat (n >>> 8), UInt8.ofNat (n >>> 16), UInt8.ofNat (n >>> 24)]

/-- The head `protocolManager::encodeCmdMsg` writes. -/
def encodeHead (serverType commandType tags : Nat) : Bytes :=
  [UInt8.ofNat (serverType &&& 0x000000ff), UInt8.ofNat ((serverType &&& 0x0000ff00) >>> 8),
    UInt8.ofNat (commandType &&& 0x000000ff), UInt8.ofNat ((commandType &&& 0x0000ff00) >>> 8)]
    ++ uintBytes tags

theorem length_encodeHead (serverType commandType tags : Nat) :
    (encodeHead serverType commandType tags).length = COMMAND_HEAD := rfl

/-- **The tag of an encoded command** is the one it was given. -/
theorem cmdTags_encodeHead (serverType commandType tags : Nat) (body : Bytes) :
    cmdTags (encodeHead serverType commandType tags ++ body) = tags % 2 ^ 32 := by
  have hbyte : ∀ k, k < 4 → byteAt (encodeHead serverType commandType tags ++ body) (4 + k)
      = byteAt (uintBytes tags) k := by
    intro k hk
    rw [byteAt_append (by rw [length_encodeHead]; exact Nat.add_lt_add_left hk 4), encodeHead]
    exact byteAt_append_right _ rfl
  have hdigit : byteAt (uintBytes tags) 0 = tags % 256 ∧
      byteAt (uintBytes tags) 1 = tags / 2 ^ 8 % 256 ∧
      byteAt (uintBytes tags) 2 = tags / 2 ^ 16 % 256 ∧
      byteAt (uintBytes tags) 3 = tags / 2 ^ 24 % 256 := by
    simp only [byteAt, uintBytes, List.getD_cons_zero, List.getD_cons_succ, UInt8.toNat_ofNat',
      Nat.shiftRight_eq_div_pow, and_self]
  obtain ⟨h0, h1, h2, h3⟩ := hdigit
  rw [cmdTags_eq, hbyte 0 (by decide), hbyte 1 (by decide), hbyte 2 (by decide),
    hbyte 3 (by decide), h0, h1, h2, h3]
  omega

end LibuvServer.Netbus
