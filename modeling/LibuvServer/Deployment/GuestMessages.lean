import LibuvServer.Deployment.LoginService
import LibuvServer.Protobuf.Protocol
import Mathlib.Tactic.Common

/-!
# Guest logins on the wire

The two messages of a guest login as protobuf has them: how the auth service
reads a `GuestLoginReq`, how it writes a `GuestLoginRes`, and what the gateway
reads. An answer that fits into a command is read as it was meant; an info
that was not set is pushed all the same, with the defaults of its fields.
-/

namespace LibuvServer.Deployment

open LibuvServer.Lib LibuvServer.Netbus LibuvServer.Mylua LibuvServer.Protobuf
open LibuvServer.Protobuf.MessageType (guestInfo guestLoginReq guestLoginRes)

/-! ## Messages and tables -/

/-- `luaTableToProtobuf` of the info of an answer. -/
def infoMessage (i : Auth.GuestInfo) : guestInfo.Msg :=
  (some i.nick, some i.faceImage, some i.vip, some i.status, some i.guestId, .nil)

/-- `luaTableToProtobuf` of an answer. -/
def toGuestLoginRes (body : Auth.GuestLoginRes) : guestLoginRes.Msg :=
  (some body.guestError, body.info.map infoMessage, .nil)

/-- `push_proto_message_tolua` of a `GuestInfo`: what its getters give. -/
def pushedInfo : guestInfo.Msg → LuaInfo
  | (nick, faceImage, vip, status, guestId, _) =>
    { nick := some (nick.getD [])
      faceImage := some (faceImage.getD 0)
      vip := some (vip.getD 0)
      status := some (status.getD 0)
      guestId := some (guestId.getD 0) }

def pushedRes : guestLoginRes.Msg → LuaBody
  | (guestError, info, _) =>
    { guestError := some (guestError.getD 0)
      info := some (pushedInfo (info.getD guestInfo.Clear)) }

def pushedReq : guestLoginReq.Msg → LuaTable
  | (RandKey, _) => Auth.guestLoginReq (RandKey.getD [])

/-- What both processes take from protobuf for these messages, and that an
`int32_t` holds 32 bits. -/
structure OnWire {Number : Type} (lib : Libraries Number) : Prop where
  request : ∃ pM, lib.request.createMessage "GuestLoginReq" = some pM ∧
    ∀ data, lib.request.parseFromArray pM data =
      (guestLoginReq.ParseFromArray data).map pushedReq
  written : ∀ body, lib.written.serialized body =
    guestLoginRes.InternalSerialize (toGuestLoginRes body)
  answer : ∃ pM, lib.answer.createMessage "GuestLoginRes" = some pM ∧
    ∀ data, lib.answer.parseFromArray pM data =
      (guestLoginRes.ParseFromArray data).map pushedRes
  int32 : ∀ n, -2 ^ 31 ≤ lib.lua.toInt32 n ∧ lib.lua.toInt32 n < 2 ^ 31

/-! ## Answers that fit -/

/-- The numbers are ones an `int32` field holds. -/
structure Holds32 (body : Auth.GuestLoginRes) : Prop where
  guestError : -2 ^ 31 ≤ body.guestError ∧ body.guestError < 2 ^ 31
  info : ∀ i ∈ body.info, ∀ n ∈ [i.faceImage, i.vip, i.status, i.guestId], -2 ^ 31 ≤ n ∧ n < 2 ^ 31

section Sizes

theorem length_varint_pos (v : Nat) : 0 < (UnsafeVarint v).length :=
  List.length_pos_of_ne_nil (Varint.encode_ne_nil v)

/-- A large size takes five bytes. -/
theorem length_varint_large {v : Nat} (h : 2 ^ 28 ≤ v) : 5 ≤ (UnsafeVarint v).length := by
  have hlog : 28 ≤ v.log2 := (Nat.le_log2 (by omega)).mpr h
  rw [UnsafeVarint, Varint.length_encode]
  omega

theorem length_int32 (number : Nat) (n : Int) : 2 ≤ (WriteInt32ToArray number n).length := by
  have htag : 0 < (WriteTagToArray number WireType.VARINT).length := length_varint_pos _
  have hvalue := length_varint_pos (signExtended n)
  rw [WriteInt32ToArray, List.length_append]
  omega

theorem length_string (number : Nat) (s : Bytes) :
    s.length + 2 ≤ (WriteString number s).length := by
  have htag : 0 < (WriteTagToArray number WireType.LENGTH_DELIMITED).length := length_varint_pos _
  have hsize := length_varint_pos (s.length % 2 ^ 32)
  rw [WriteString, List.length_append, List.length_append]
  omega

end Sizes

section Fits

variable {body : Auth.GuestLoginRes}

/-- The bytes of a `GuestInfo` are more than those of its `nick`. -/
theorem length_guestInfo (i : Auth.GuestInfo) :
    i.nick.length + 10 ≤ (guestInfo.InternalSerialize (infoMessage i)).length := by
  have hnick := length_string 1 i.nick
  have hface := length_int32 2 i.faceImage
  have hvip := length_int32 3 i.vip
  have hstatus := length_int32 4 i.status
  have hid := length_int32 5 i.guestId
  simp only [guestInfo, infoMessage, Schema.InternalSerialize, Option.elim_some, List.length_append]
  omega

/-- The size of the info and the info come after the number. -/
theorem length_guestLoginRes (guestError : Int) (i : Auth.GuestInfo) :
    3 + (UnsafeVarint (guestInfo.ByteSizeLong (infoMessage i) % 2 ^ 32)).length +
      (guestInfo.InternalSerialize (infoMessage i)).length ≤
      (guestLoginRes.InternalSerialize (toGuestLoginRes ⟨guestError, some i⟩)).length := by
  have herror := length_int32 1 guestError
  have htag : 0 < (WriteTagToArray 2 WireType.LENGTH_DELIMITED).length := length_varint_pos _
  show _ ≤ (WriteInt32ToArray 1 guestError ++ (WriteTagToArray 2 WireType.LENGTH_DELIMITED ++
    UnsafeVarint (guestInfo.ByteSizeLong (infoMessage i) % 2 ^ 32) ++
      guestInfo.InternalSerialize (infoMessage i) ++ [])).length
  rw [List.append_nil, List.length_append, List.length_append, List.length_append]
  omega

/-- **An answer that fits into a command** has fields that can be read. -/
theorem fits_guestLoginRes (h : Holds32 body)
    (hsize :
      COMMAND_HEAD + (guestLoginRes.InternalSerialize (toGuestLoginRes body)).length < 2 ^ 31) :
    guestLoginRes.Fits Schema.defaultRecursionLimit (toGuestLoginRes body) := by
  have hhead : COMMAND_HEAD = 8 := rfl
  have hmax : INT_MAX - kSlopBytes = 2147483631 := rfl
  obtain ⟨guestError, info⟩ := body
  refine ⟨fun n hn => ?_, fun sub hsub => ?_, trivial, trivial⟩
  · rw [← Option.some.inj hn]
    exact h.guestError
  · cases info with
    | none => cases hsub
    | some i =>
      obtain rfl := Option.some.inj hsub
      have hints := h.info i rfl
      have hlen := length_guestInfo i
      have hall := length_guestLoginRes guestError i
      have hinside : guestInfo.FitsIn guestInfo.tags (Schema.defaultRecursionLimit - 1)
          (infoMessage i) := by
        refine ⟨fun t ht => ?_, fun n hn => ?_, fun n hn => ?_, fun n hn => ?_, fun n hn => ?_,
          trivial, trivial⟩
        · rw [← Option.some.inj ht]
          omega
        · rw [← Option.some.inj hn]
          exact hints _ (.head _)
        · rw [← Option.some.inj hn]
          exact hints _ (.tail _ (.head _))
        · rw [← Option.some.inj hn]
          exact hints _ (.tail _ (.tail _ (.head _)))
        · rw [← Option.some.inj hn]
          exact hints _ (.tail _ (.tail _ (.tail _ (.head _))))
      have hbytes := Schema.ByteSizeLong_eq hinside
      refine ⟨by decide, hinside, ?_⟩
      by_contra hlarge
      -- a size that large takes five bytes, and the head no longer fits
      have hword : guestInfo.ByteSizeLong (infoMessage i) % 2 ^ 32 =
          guestInfo.ByteSizeLong (infoMessage i) := Nat.mod_eq_of_lt (by omega)
      have hfive : 5 ≤ (UnsafeVarint (guestInfo.ByteSizeLong (infoMessage i) % 2 ^ 32)).length :=
        length_varint_large (by omega)
      omega

/-- Only numbers of 32 bits are answered. -/
theorem answer_holds32 {Number : Type} {lib : LuaLib Number}
    (hint : ∀ n, -2 ^ 31 ≤ lib.toInt32 n ∧ lib.toInt32 n < 2 ^ 31) {res : Auth.QueryRes}
    (h : Auth.answer lib res = some body) : Holds32 body := by
  have hcheck : ∀ s n, luaLCheckint32 lib s = some n → -2 ^ 31 ≤ n ∧ n < 2 ^ 31 := by
    intro s n hs
    obtain ⟨x, -, rfl⟩ := Option.map_eq_some_iff.mp hs
    exact hint x
  unfold Auth.answer at h
  split at h
  · split at h
    · cases h
      exact ⟨⟨by decide, by decide⟩, fun i hi => by cases hi⟩
    · obtain ⟨i, hi, rfl⟩ := Option.map_eq_some_iff.mp h
      obtain ⟨faceImage, hface, hi⟩ := Option.bind_eq_some_iff.mp hi
      obtain ⟨vip, hvip, hi⟩ := Option.bind_eq_some_iff.mp hi
      obtain ⟨status, hstatus, hi⟩ := Option.bind_eq_some_iff.mp hi
      obtain ⟨guestId, hid, rfl⟩ := Option.map_eq_some_iff.mp hi
      have hone : -2 ^ 31 ≤ (1 : Int) ∧ (1 : Int) < 2 ^ 31 := ⟨by decide, by decide⟩
      refine ⟨hone, fun i hi n hn => ?_⟩
      obtain rfl := Option.some.inj hi
      simp only [List.mem_cons, List.not_mem_nil, or_false] at hn
      rcases hn with rfl | rfl | rfl | rfl
      · exact hcheck _ _ hface
      · exact hcheck _ _ hvip
      · exact hcheck _ _ hstatus
      · exact hcheck _ _ hid
  all_goals cases h

end Fits

/-! ## Both ends -/

section Ends

variable {Number : Type} {lib : Libraries Number}

/-- **An answer is read as it was written**: what arrives at the gateway has
the head and the body of the auth service's reply. -/
theorem OnWire.reads (h : OnWire lib) {tags : Nat} (htags : tags < 2 ^ 32)
    {body : Auth.GuestLoginRes} (hbody : Holds32 body) {cmd : Bytes}
    (hcmd : Reply.bytes lib ⟨Gateway.Stype.Auth, Gateway.Ctype.eGuestLoginRes, tags, body⟩ =
      some cmd) :
    ∃ raw, decodeMsgHead cmd cmd.length = some raw ∧ raw.serverType = Gateway.Stype.Auth ∧
      raw.commandType = Gateway.Ctype.eGuestLoginRes ∧ raw.tags = tags ∧
      Raw.readBody lib.gateway raw = some (pushedRes (toGuestLoginRes body)) := by
  rw [Reply.bytes_eq] at hcmd
  obtain ⟨hsize, heq⟩ := Option.ite_none_right_eq_some.mp hcmd
  rw [ProtoWriter.byteSizeLong, h.written] at hsize
  rw [h.written] at heq
  have hfits := fits_guestLoginRes hbody hsize
  have hpos : 0 < (guestLoginRes.InternalSerialize (toGuestLoginRes body)).length := by
    have herror := length_int32 1 body.guestError
    simp only [guestLoginRes, toGuestLoginRes, Schema.InternalSerialize, Option.elim_some,
      List.length_append]
    omega
  have hparse : guestLoginRes.ParseFromArray
      (guestLoginRes.InternalSerialize (toGuestLoginRes body)) = some (toGuestLoginRes body) := by
    refine Schema.ParseFromArray_write (MessageType.schema_ok .GuestLoginRes) hfits ?_
    obtain ⟨guestError, info⟩ := body
    cases info <;> rfl
  let msg : CommandMessage Unit :=
    ⟨Gateway.Stype.Auth, Gateway.Ctype.eGuestLoginRes, tags, none⟩
  have htypes : Gateway.Stype.Auth ≤ 65535 ∧ Gateway.Ctype.eGuestLoginRes ≤ 65535 := by decide
  have hmsg : HeadFits msg := ⟨htypes.1, htypes.2, htags⟩
  obtain ⟨hs, hc, ht⟩ := hmsg.decode (guestLoginRes.InternalSerialize (toGuestLoginRes body))
  have heq' : msg.head ++ guestLoginRes.InternalSerialize (toGuestLoginRes body) = cmd :=
    Option.some.inj heq
  have hlen : cmd.length = COMMAND_HEAD +
      (guestLoginRes.InternalSerialize (toGuestLoginRes body)).length := by
    rw [← heq', List.length_append]
    rfl
  have hdrop : cmd.drop COMMAND_HEAD = guestLoginRes.InternalSerialize (toGuestLoginRes body) := by
    have hhead : COMMAND_HEAD = msg.head.length := rfl
    rw [← heq', hhead, List.drop_left]
  rw [heq'] at hs hc ht
  obtain ⟨pM, hcreate, hread⟩ := h.answer
  have hdecode : decodeCmdMsg lib.gateway cmd cmd.length = some
      ⟨Gateway.Stype.Auth, Gateway.Ctype.eGuestLoginRes, tags,
        some (.message (pushedRes (toGuestLoginRes body)))⟩ := by
    have hname : lib.gateway.gProtoMap Gateway.Ctype.eGuestLoginRes = "GuestLoginRes" := rfl
    have hbuf : lib.gateway.gProtocolType = .PROTOCOL_BUF := rfl
    have hproto : lib.gateway.proto = lib.answer := rfl
    rw [decodeCmdMsg, if_neg (by omega), if_neg (by omega)]
    simp only [hbuf, hs, hc, ht, hproto, msg, hname, hcreate, hread, hdrop, hparse, Option.map_some]
  refine ⟨⟨cmdServerType cmd, cmdCommandType cmd, cmdTags cmd, cmd, cmd.length⟩, ?_, hs, hc, ht, ?_⟩
  · rw [decodeMsgHead, if_neg (by omega)]
  · rw [Raw.readBody, hdecode]

/-- **A guest login is read** as the client's bytes say. -/
theorem OnWire.request_body (h : OnWire lib) {cmd : Bytes} {msg : CommandMessage LuaTable}
    (hdec : decodeCmdMsg lib.auth cmd cmd.length = some msg)
    (htype : msg.commandType = Gateway.Ctype.eGuestLoginReq) (hsome : (toLuaMsg msg).body.isSome) :
    (toLuaMsg msg).body = (guestLoginReq.ParseFromArray (cmd.drop COMMAND_HEAD)).map pushedReq := by
  obtain ⟨pM, hcreate, hread⟩ := h.request
  have hname : lib.auth.gProtoMap Gateway.Ctype.eGuestLoginReq = "GuestLoginReq" := rfl
  have hproto : lib.auth.proto = lib.request := rfl
  have hcommand : cmdCommandType cmd = Gateway.Ctype.eGuestLoginReq :=
    (decodeCmdMsg_fields hdec).2.1.symm.trans htype
  unfold decodeCmdMsg at hdec
  split at hdec
  · cases hdec
  split at hdec
  · cases hdec
    cases hsome
  · have hbuf : lib.auth.gProtocolType = .PROTOCOL_BUF := rfl
    simp only [hbuf, hproto, hcommand, hname, hcreate, hread] at hdec
    cases hparse : (guestLoginReq.ParseFromArray (cmd.drop COMMAND_HEAD)).map pushedReq with
    | none =>
      rw [hparse] at hdec
      cases hdec
    | some t =>
      rw [hparse] at hdec
      cases hdec
      rfl

end Ends

end LibuvServer.Deployment
