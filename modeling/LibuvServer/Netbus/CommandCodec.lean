import LibuvServer.Lib.CInt
import LibuvServer.Lib.RawBlock
import LibuvServer.Netbus.ProtocolManager
import LibuvServer.Netbus.WebProtocol
import Mathlib.Data.List.TakeWhile
import Mathlib.Tactic.Common

/-!
# Encoding a command and decoding it again

`protocolManager::encodeCmdMsg` against `protocolManager::decodeCmdMsg`, for
both kinds of body. Sizes are counted in `int`, and the block that is written
is one of its own, so that a write outside it shows.
-/

namespace LibuvServer.Netbus

open LibuvServer.Lib

/-- What encoding takes from protobuf. -/
structure ProtoWriter (Message : Type) where
  /-- The full name of a message's type. -/
  typeName : Message → String
  /-- Every required field is set. -/
  isInitialized : Message → Bool
  /-- The wire bytes of the fields that are set. -/
  serialized : Message → Bytes

variable {Message : Type}

namespace ProtoWriter

def byteSizeLong (w : ProtoWriter Message) (m : Message) : Nat := (w.serialized m).length

/-- `MessageLite::SerializePartialToArray`: what it writes. -/
def serializePartialToArray (w : ProtoWriter Message) (m : Message) (size : Int) : Option Bytes :=
  let byte_size := w.byteSizeLong m
  if 2 ^ 31 - 1 < byte_size then none
  else if size % 2 ^ 64 < byte_size then none
  else some (w.serialized m)

end ProtoWriter

/-- The body part of `protocolManager::encodeCmdMsg` and the length it puts
into `outLen`. A body of the other protocol is read as something it is not;
there is no outcome for that. -/
def encodeBody (pm : ProtocolManager Message) (w : ProtoWriter Message)
    (body : Option (Body Message)) : Option (RawBlock UInt8 × Int) :=
  match pm.gProtocolType, body with
  | _, none => some (.malloc COMMAND_HEAD, COMMAND_HEAD)
  | .PROTOCOL_JSON, some (.json json_str) =>
    let len := toInt (WebProtocol.cString json_str).length
    let rawData := RawBlock.malloc (toInt (COMMAND_HEAD + len))
    let rawData := rawData.memcpy COMMAND_HEAD json_str (toInt (len - 1))
    some (rawData.write (toInt (COMMAND_HEAD + len)) [0], toInt (len + COMMAND_HEAD))
  | .PROTOCOL_BUF, some (.message p_m) =>
    let pf_len := toInt (w.byteSizeLong p_m)
    let rawData := RawBlock.malloc (toInt (COMMAND_HEAD + pf_len))
    match w.serializePartialToArray p_m pf_len with
    | none => none
    | some bytes => some (rawData.write COMMAND_HEAD bytes, toInt (pf_len + COMMAND_HEAD))
  | _, some _ => none

/-- `protocolManager::encodeCmdMsg`: the block and `outLen`. -/
def encodeCmdMsg (pm : ProtocolManager Message) (w : ProtoWriter Message)
    (cmdmsg : CommandMessage Message) : Option (RawBlock UInt8 × Int) :=
  (encodeBody pm w cmdmsg.body).map fun (rawData, outLen) =>
    (rawData.write 0 (encodeHead cmdmsg.serverType cmdmsg.commandType cmdmsg.tags), outLen)

/-- A command whose fields fit the head. -/
structure HeadFits (msg : CommandMessage Message) : Prop where
  serverType : msg.serverType ≤ 65535
  commandType : msg.commandType ≤ 65535
  tags : msg.tags < 2 ^ 32

/-- Encoding stays in its block, every byte handed out was written, and
decoding them gives the command back. -/
def RoundTrips (pm : ProtocolManager Message) (w : ProtoWriter Message)
    (msg : CommandMessage Message) : Prop :=
  ∃ rawData outLen bytes, encodeCmdMsg pm w msg = some (rawData, outLen) ∧
    rawData.inside = true ∧ rawData.Holds outLen bytes ∧ decodeCmdMsg pm bytes outLen = some msg

/-! ## The head -/

section Head

variable (serverType commandType tags : Nat) (body : Bytes)

theorem byteAt_encodeHead {i : Nat} (hi : i < COMMAND_HEAD) :
    byteAt (encodeHead serverType commandType tags ++ body) i =
      byteAt (encodeHead serverType commandType tags) i :=
  byteAt_append (by rwa [length_encodeHead]) body

/-- Two bytes, low byte first, of a number. -/
theorem twoBytes (n : Nat) :
    (UInt8.ofNat (n &&& 0x000000ff)).toNat |||
      (UInt8.ofNat ((n &&& 0x0000ff00) >>> 8)).toNat <<< 8 = n % 65536 := by
  rw [or_shiftLeft_eight (UInt8.toNat_lt _), and_ff, and_ff00_shiftRight, UInt8.toNat_ofNat',
    UInt8.toNat_ofNat']
  omega

theorem cmdServerType_encodeHead :
    cmdServerType (encodeHead serverType commandType tags ++ body) = serverType % 65536 := by
  rw [cmdServerType, byteAt_encodeHead _ _ _ _ (by decide), byteAt_encodeHead _ _ _ _ (by decide)]
  exact twoBytes serverType

theorem cmdCommandType_encodeHead :
    cmdCommandType (encodeHead serverType commandType tags ++ body) = commandType % 65536 := by
  rw [cmdCommandType, byteAt_encodeHead _ _ _ _ (by decide), byteAt_encodeHead _ _ _ _ (by decide)]
  exact twoBytes commandType

end Head

/-- The head of a command. -/
def CommandMessage.head (msg : CommandMessage Message) : Bytes :=
  encodeHead msg.serverType msg.commandType msg.tags

/-- The head is decoded as it was encoded. -/
theorem HeadFits.decode {msg : CommandMessage Message} (h : HeadFits msg) (body : Bytes) :
    cmdServerType (msg.head ++ body) = msg.serverType ∧
      cmdCommandType (msg.head ++ body) = msg.commandType ∧
      cmdTags (msg.head ++ body) = msg.tags := by
  have hs := h.serverType
  have hc := h.commandType
  have ht := h.tags
  rw [CommandMessage.head, cmdServerType_encodeHead, cmdCommandType_encodeHead,
    cmdTags_encodeHead]
  exact ⟨by omega, by omega, by omega⟩

/-- A command without a body is its head. -/
theorem HeadFits.decode_head {pm : ProtocolManager Message} {msg : CommandMessage Message}
    (h : HeadFits msg) :
    decodeCmdMsg pm msg.head COMMAND_HEAD = some { msg with body := none } := by
  obtain ⟨hs, hc, ht⟩ := h.decode []
  rw [List.append_nil] at hs hc ht
  rw [decodeCmdMsg, if_neg (by omega), if_pos rfl, hs, hc, ht]

/-- What is eight bytes long has no body. -/
theorem decodeCmdMsg_no_body {pm : ProtocolManager Message} {cmd : Bytes}
    {msg : CommandMessage Message} (h : decodeCmdMsg pm cmd COMMAND_HEAD = some msg) :
    msg.body = none := by
  rw [decodeCmdMsg, if_neg (by omega), if_pos rfl, Option.some.injEq] at h
  rw [← h]

theorem encodeCmdMsg_of_body {pm : ProtocolManager Message} {w : ProtoWriter Message}
    {msg : CommandMessage Message} {rawData : RawBlock UInt8} {outLen : Int}
    (h : encodeBody pm w msg.body = some (rawData, outLen)) :
    encodeCmdMsg pm w msg = some (rawData.write 0 msg.head, outLen) := by
  rw [encodeCmdMsg, h]
  rfl

/-- What a command that comes back says about its body. -/
theorem RoundTrips.encodeBody {pm : ProtocolManager Message} {w : ProtoWriter Message}
    {msg : CommandMessage Message} (h : RoundTrips pm w msg) :
    ∃ rawData outLen bytes, encodeBody pm w msg.body = some (rawData, outLen) ∧
      rawData.inside = true ∧ decodeCmdMsg pm bytes outLen = some msg := by
  obtain ⟨rawData, outLen, bytes, henc, hin, -, hdec⟩ := h
  cases hb : Netbus.encodeBody pm w msg.body with
  | none =>
    rw [encodeCmdMsg, hb] at henc
    cases henc
  | some p =>
    rw [encodeCmdMsg_of_body hb] at henc
    cases henc
    exact ⟨p.1, p.2, bytes, rfl, (RawBlock.write_inside.mp hin).1, hdec⟩

section Codec

variable {pm : ProtocolManager Message} {w : ProtoWriter Message} {msg : CommandMessage Message}

/-- **A command without a body** comes back. -/
theorem roundTrips_of_no_body (h : HeadFits msg) (hb : msg.body = none) : RoundTrips pm w msg := by
  have hbody : encodeBody pm w msg.body =
      some (RawBlock.malloc COMMAND_HEAD, (COMMAND_HEAD : Int)) := by
    rw [hb, encodeBody]
  have hblock : (RawBlock.malloc COMMAND_HEAD).write 0 msg.head =
      (⟨msg.head.map some, true⟩ : RawBlock UInt8) := by
    have hcells : (RawBlock.malloc COMMAND_HEAD : RawBlock UInt8) =
        ⟨List.replicate COMMAND_HEAD none ++ [], true⟩ := rfl
    rw [hcells, RawBlock.write_front (by rw [List.length_replicate]; rfl), List.append_nil]
  have hdec : decodeCmdMsg pm msg.head COMMAND_HEAD = some { msg with body := none } :=
    h.decode_head
  refine ⟨_, _, msg.head, encodeCmdMsg_of_body hbody, ?_, ?_, ?_⟩
  · rw [hblock]
  · rw [hblock]
    exact RawBlock.holds_all rfl
  · rw [hdec, ← hb]

/-! ## Protobuf -/

/-- Parsing what was serialised gives an equal message, when its required
fields are set. -/
def ParsesBack (proto : ProtoLib Message) (w : ProtoWriter Message) : Prop :=
  ∀ m size bytes, w.isInitialized m = true → w.serializePartialToArray m size = some bytes →
    ∃ pM, proto.createMessage (w.typeName m) = some pM ∧ proto.parseFromArray pM bytes = some m

/-- A message of the type registered for the command, required fields set. -/
def Registered (pm : ProtocolManager Message) (w : ProtoWriter Message)
    (msg : CommandMessage Message) : Prop :=
  ∀ b, msg.body = some b → ∃ m, b = .message m ∧ w.typeName m = pm.gProtoMap msg.commandType ∧
    w.isInitialized m = true

/-- Nothing is refused below two gigabytes. -/
theorem serialize_byteSize (w : ProtoWriter Message) (m : Message) :
    w.serializePartialToArray m (toInt (w.byteSizeLong m)) =
      if w.byteSizeLong m < 2 ^ 31 then some (w.serialized m) else none := by
  rw [ProtoWriter.serializePartialToArray]
  split
  · rename_i hlarge
    rw [if_neg (by omega)]
  · rename_i hsmall
    have hsize : toInt (w.byteSizeLong m) = w.byteSizeLong m := toInt_of_range (by omega) (by omega)
    rw [hsize, if_neg (by omega), if_pos (by omega)]

theorem encodeBody_message (hbuf : pm.gProtocolType = .PROTOCOL_BUF) (m : Message) :
    encodeBody pm w (some (.message m)) =
      if w.byteSizeLong m < 2 ^ 31 then
        some ((RawBlock.malloc (toInt (COMMAND_HEAD + w.byteSizeLong m))).write COMMAND_HEAD
          (w.serialized m), toInt (COMMAND_HEAD + w.byteSizeLong m))
      else none := by
  simp only [encodeBody, hbuf, serialize_byteSize]
  by_cases hsmall : w.byteSizeLong m < 2 ^ 31
  · have hsize : toInt (w.byteSizeLong m) = w.byteSizeLong m := toInt_of_range (by omega) (by omega)
    simp only [if_pos hsmall, hsize, Int.add_comm _ (COMMAND_HEAD : Int)]
  · simp only [if_neg hsmall]

/-- A message whose bytes are some, and fit with the head, comes back. -/
theorem roundTrips_message (hbuf : pm.gProtocolType = .PROTOCOL_BUF)
    (hparse : ParsesBack pm.proto w) (h : HeadFits msg) {m : Message}
    (hb : msg.body = some (.message m)) (htype : w.typeName m = pm.gProtoMap msg.commandType)
    (hinit : w.isInitialized m = true) (hpos : 0 < w.byteSizeLong m)
    (hfits : COMMAND_HEAD + w.byteSizeLong m < 2 ^ 31) : RoundTrips pm w msg := by
  have hhead : COMMAND_HEAD = msg.head.length := rfl
  have hsum : toInt (COMMAND_HEAD + w.byteSizeLong m) = COMMAND_HEAD + w.byteSizeLong m :=
    toInt_of_range (by omega) (by omega)
  have hbody : encodeBody pm w msg.body =
      some ((RawBlock.malloc (COMMAND_HEAD + w.byteSizeLong m)).write COMMAND_HEAD
        (w.serialized m), (COMMAND_HEAD : Int) + w.byteSizeLong m) := by
    rw [hb, encodeBody_message hbuf, if_pos (by omega), hsum]
  -- the block is filled from the back to the front
  have hblock : ((RawBlock.malloc (COMMAND_HEAD + w.byteSizeLong m)).write COMMAND_HEAD
      (w.serialized m)).write 0 msg.head = ⟨(msg.head ++ w.serialized m).map some, true⟩ :=
    RawBlock.write_malloc rfl
  have hser := serialize_byteSize w m
  rw [if_pos (by omega)] at hser
  obtain ⟨pM, hcreate, hback⟩ := hparse m _ _ hinit hser
  obtain ⟨hs, hc, ht⟩ := h.decode (w.serialized m)
  refine ⟨_, _, msg.head ++ w.serialized m, encodeCmdMsg_of_body hbody, ?_, ?_, ?_⟩
  · rw [hblock]
  · rw [hblock]
    refine RawBlock.holds_all ?_
    rw [List.length_append, ← hhead]
    exact Int.natCast_add _ _
  · have hdrop : (msg.head ++ w.serialized m).drop COMMAND_HEAD = w.serialized m := by
      rw [hhead, List.drop_left]
    rw [decodeCmdMsg, if_neg (by omega), if_neg (by omega)]
    simp only [hbuf, hs, hc, ht, hdrop, ← htype, hcreate, hback, ← hb]

/-- What comes back had bytes, and fits. -/
theorem RoundTrips.message_fits (hround : RoundTrips pm w msg)
    (hbuf : pm.gProtocolType = .PROTOCOL_BUF) {m : Message}
    (hb : msg.body = some (.message m)) :
    0 < w.byteSizeLong m ∧ COMMAND_HEAD + w.byteSizeLong m < 2 ^ 31 := by
  obtain ⟨rawData, outLen, bytes, hbody, hin, hdec⟩ := hround.encodeBody
  rw [hb, encodeBody_message hbuf] at hbody
  split at hbody
  · rename_i hsmall
    rw [Option.some.injEq, Prod.mk.injEq] at hbody
    obtain ⟨rfl, rfl⟩ := hbody
    have hfits : COMMAND_HEAD + w.byteSizeLong m < 2 ^ 31 := by
      by_contra hlarge
      -- the sum is negative, and there is no such block
      have hhead : COMMAND_HEAD = 8 := rfl
      have hneg : toInt (COMMAND_HEAD + w.byteSizeLong m) < 0 := by
        rw [toInt, signed, Int.bmod_def]
        omega
      have hwrite := (RawBlock.write_inside.mp hin).2.2
      rw [RawBlock.length_malloc] at hwrite
      omega
    refine ⟨Nat.pos_of_ne_zero fun hzero => ?_, hfits⟩
    rw [hzero, show toInt ((COMMAND_HEAD : Int) + (0 : Nat)) = COMMAND_HEAD from rfl] at hdec
    have hnone := decodeCmdMsg_no_body hdec
    rw [hb] at hnone
    cases hnone
  · cases hbody

/-- **The protobuf codec round-trips** for a command without a body and for a
message that has at least one byte and fits, with the head, an `int`. -/
theorem protobuf_codec (hbuf : pm.gProtocolType = .PROTOCOL_BUF) (hparse : ParsesBack pm.proto w)
    (h : HeadFits msg) (hreg : Registered pm w msg) :
    RoundTrips pm w msg ↔
      ∀ m, msg.body = some (.message m) →
        0 < w.byteSizeLong m ∧ COMMAND_HEAD + w.byteSizeLong m < 2 ^ 31 := by
  constructor
  · intro hround m hb
    exact hround.message_fits hbuf hb
  · intro hsizes
    cases hb : msg.body with
    | none => exact roundTrips_of_no_body h hb
    | some b =>
      obtain ⟨m, rfl, htype, hinit⟩ := hreg b hb
      obtain ⟨hpos, hfits⟩ := hsizes m hb
      exact roundTrips_message hbuf hparse h hb htype hinit hpos hfits

end Codec

/-- Protobuf with messages that are their own bytes. -/
def plainProto : ProtoLib Bytes where
  createMessage name := if name = "Empty" then some [] else none
  parseFromArray _ bytes := some bytes

def plainWriter : ProtoWriter Bytes where
  typeName _ := "Empty"
  isInitialized _ := true
  serialized := id

/-- Command 1 carries such a message. -/
def plainManager (kind : ProtocolType) : ProtocolManager Bytes where
  gProtocolType := kind
  gProtoMap commandType := if commandType = 1 then "Empty" else ""
  proto := plainProto

theorem plain_parsesBack : ParsesBack plainProto plainWriter := by
  intro m size bytes _ hser
  refine ⟨[], rfl, ?_⟩
  rw [ProtoWriter.serializePartialToArray] at hser
  split at hser
  · cases hser
  · split at hser
    · cases hser
    · exact congrArg some (Option.some.inj hser).symm

theorem plain_registered {tags : Nat} {m : Bytes} :
    Registered (plainManager .PROTOCOL_BUF) plainWriter ⟨2, 1, tags, some (.message m)⟩ := by
  intro b hb
  cases hb
  exact ⟨m, rfl, rfl, rfl⟩

/-- A message of two bytes. -/
theorem protobuf_codec_two :
    RoundTrips (plainManager .PROTOCOL_BUF) plainWriter
      ⟨2, 1, 2 ^ 32 - 1, some (.message [8, 1])⟩ := by
  refine (protobuf_codec rfl plain_parsesBack ⟨?_, ?_, ?_⟩ plain_registered).mpr ?_
  · decide
  · decide
  · decide
  · intro m hm
    cases hm
    decide

/-- A message without bytes comes back as no message. -/
theorem protobuf_codec_empty :
    ParsesBack (plainManager .PROTOCOL_BUF).proto plainWriter ∧
      HeadFits (⟨2, 1, 7, some (.message [])⟩ : CommandMessage Bytes) ∧
      Registered (plainManager .PROTOCOL_BUF) plainWriter ⟨2, 1, 7, some (.message [])⟩ ∧
      ¬ RoundTrips (plainManager .PROTOCOL_BUF) plainWriter ⟨2, 1, 7, some (.message [])⟩ := by
  refine ⟨plain_parsesBack, ⟨by decide, by decide, by decide⟩, plain_registered, fun h => ?_⟩
  exact absurd (h.message_fits rfl rfl).1 (by decide)

/-! ## JSON -/

section Json

variable {pm : ProtocolManager Message} {w : ProtoWriter Message} {msg : CommandMessage Message}

theorem encodeBody_json (hjson : pm.gProtocolType = .PROTOCOL_JSON) (text : Bytes) :
    encodeBody pm w (some (.json text)) =
      let len := toInt (WebProtocol.cString text).length
      some ((((RawBlock.malloc (toInt (COMMAND_HEAD + len))).memcpy COMMAND_HEAD text
        (toInt (len - 1))).write (toInt (COMMAND_HEAD + len)) [0]),
        toInt (len + COMMAND_HEAD)) := by
  simp only [encodeBody, hjson]

/-- The terminator goes one byte past the block, however long the text is. -/
theorem encodeBody_json_outside (hjson : pm.gProtocolType = .PROTOCOL_JSON) {text : Bytes}
    {rawData : RawBlock UInt8} {outLen : Int}
    (h : encodeBody pm w (some (.json text)) = some (rawData, outLen)) :
    rawData.inside = false := by
  rw [encodeBody_json hjson] at h
  simp only [Option.some.injEq, Prod.mk.injEq] at h
  rw [← h.1, ← Bool.not_eq_true, RawBlock.write_inside]
  rintro ⟨-, hpos, hle⟩
  rw [RawBlock.length_memcpy, RawBlock.length_malloc, List.length_singleton] at hle
  omega

/-- The last byte of the text is not copied, and the byte meant for it is
handed out unwritten. -/
theorem encodeBody_json_last (hjson : pm.gProtocolType = .PROTOCOL_JSON) {text : Bytes} {c : UInt8}
    (hnul : (0 : UInt8) ∉ text ++ [c]) (hfits : COMMAND_HEAD + (text.length + 1) < 2 ^ 31)
    {rawData : RawBlock UInt8} {outLen : Int}
    (h : encodeBody pm w (some (.json (text ++ [c]))) = some (rawData, outLen)) :
    outLen = COMMAND_HEAD + (text.length + 1) ∧
      rawData.cells = List.replicate COMMAND_HEAD none ++ text.map some ++ [none] := by
  have hstr : WebProtocol.cString (text ++ [c]) = text ++ [c] := by
    refine List.takeWhile_eq_self_iff.mpr fun x hx => ?_
    exact decide_eq_true fun hzero => hnul (hzero ▸ hx)
  have hlen : ((text ++ [c]).length : Int) = text.length + 1 := by
    rw [List.length_append, List.length_singleton]
    rfl
  have hsum : toInt (COMMAND_HEAD + (text.length + 1)) = COMMAND_HEAD + (text.length + 1) :=
    toInt_of_range (by omega) (by omega)
  rw [encodeBody_json hjson] at h
  simp only [hstr, hlen, toInt_of_range (n := (text.length : Int) + 1) (by omega) (by omega),
    toInt_of_range (n := (text.length : Int) + 1 - 1) (by omega) (by omega), hsum,
    Int.add_comm _ (COMMAND_HEAD : Int), Option.some.injEq, Prod.mk.injEq] at h
  obtain ⟨rfl, rfl⟩ := h
  refine ⟨rfl, ?_⟩
  -- the copy leaves the last cell as it was, the terminator is past it
  have hnat : ((COMMAND_HEAD : Int) + (text.length + 1)).toNat =
      COMMAND_HEAD + ((text.map some).length + 1) := by
    rw [List.length_map]
    omega
  have hcopy : (((RawBlock.malloc (COMMAND_HEAD + (text.length + 1))).memcpy COMMAND_HEAD
      (text ++ [c]) (text.length + 1 - 1)) : RawBlock UInt8).cells =
        List.replicate COMMAND_HEAD none ++ text.map some ++ [none] := by
    rw [Int.add_sub_cancel, RawBlock.memcpy, if_neg (by rw [hlen]; omega), Int.toNat_natCast,
      List.take_left, RawBlock.write, RawBlock.malloc, hnat, Int.toNat_natCast]
    exact overwrite_replicate _ _ _ _
  rw [RawBlock.write, overwrite_of_length_le, hcopy]
  exact Nat.le_of_eq (RawBlock.length_memcpy.trans (RawBlock.length_malloc _))

/-- **The JSON codec round-trips** only for a command without a body. -/
theorem json_codec (hjson : pm.gProtocolType = .PROTOCOL_JSON) (h : HeadFits msg)
    (htext : ∀ b, msg.body = some b → ∃ text, b = .json text ∧ text ≠ [] ∧ (0 : UInt8) ∉ text) :
    RoundTrips pm w msg ↔ msg.body = none := by
  constructor
  · intro hround
    obtain ⟨rawData, outLen, bytes, hbody, hin, -⟩ := hround.encodeBody
    cases hb : msg.body with
    | none => rfl
    | some b =>
      obtain ⟨text, rfl, -⟩ := htext b hb
      rw [hb] at hbody
      rw [encodeBody_json_outside hjson hbody] at hin
      cases hin
  · exact roundTrips_of_no_body h

/-- A command without a body. -/
theorem json_codec_head :
    RoundTrips (plainManager .PROTOCOL_JSON) plainWriter ⟨1, 2, 9, none⟩ := by
  refine (json_codec rfl ⟨?_, ?_, ?_⟩ fun b hb => ?_).mpr rfl
  · decide
  · decide
  · decide
  · cases hb

/-- A command with the body `x`. -/
theorem json_codec_one :
    HeadFits (⟨1, 2, 9, some (.json [120])⟩ : CommandMessage Bytes) ∧
      ¬ RoundTrips (plainManager .PROTOCOL_JSON) plainWriter ⟨1, 2, 9, some (.json [120])⟩ := by
  refine ⟨⟨by decide, by decide, by decide⟩, fun h => ?_⟩
  obtain ⟨rawData, outLen, bytes, hbody, hin, -⟩ := h.encodeBody
  rw [encodeBody_json_outside rfl hbody] at hin
  cases hin

end Json

end LibuvServer.Netbus
