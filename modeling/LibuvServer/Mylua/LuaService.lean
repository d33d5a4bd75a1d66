import LibuvServer.Lib.Block
import LibuvServer.Netbus.ProtocolManager
import Mathlib.Tactic.Common

/-!
# Raw commands in Lua

`mylua/service/lua_service.cc`: what the gateway scripts read of a command
and the tag they write into it. `Retagged` is the purpose of `setTag`: bytes
4 to 7 carry the tag and nothing else changes. Protobuf messages are taken
as the tables `push_proto_message_tolua` makes of them.
-/

namespace LibuvServer.Mylua

open LibuvServer.Lib LibuvServer.Netbus

/-- `rawBody.info` with the fields of `GuestInfo`, and `userid`, which the
scripts read too. A field that is not there is `nil`. -/
structure LuaInfo where
  nick : Option Bytes := none
  faceImage : Option Int := none
  vip : Option Int := none
  status : Option Int := none
  guestId : Option Int := none
  userid : Option Int := none
  deriving DecidableEq

/-- A body as the scripts read it. -/
structure LuaBody where
  guestError : Option Int := none
  info : Option LuaInfo := none
  deriving DecidableEq

namespace Raw

/-- `Raw.readHead`. -/
def readHead (raw : Gateway2Server) : Nat × Nat × Nat :=
  (raw.serverType, raw.commandType, raw.tags)

/-- `Raw.readBody`. A JSON body is a string, on which every field is `nil`. -/
def readBody (pm : ProtocolManager LuaBody) (raw : Gateway2Server) : Option LuaBody :=
  match decodeCmdMsg pm raw.rawCmd raw.rawLen with
  | none => none
  | some msg =>
    match msg.body with
    | none => none
    | some (.json _) => some {}
    | some (.message pM) => some pM

/-- The four bytes `setTag` stores. -/
def tagBytes (utag : Nat) : Bytes :=
  [UInt8.ofNat (utag &&& 0x000000FF), UInt8.ofNat ((utag &&& 0x0000FF00) >>> 8),
    UInt8.ofNat ((utag &&& 0x00FF0000) >>> 16), UInt8.ofNat ((utag &&& 0xFF000000) >>> 24)]

/-- `Raw.setTag`. The number is made an `unsigned int`. -/
def setTag (raw : Gateway2Server) (utag : Nat) : Gateway2Server :=
  { raw with tags := utag % 2 ^ 32, rawCmd := overwrite raw.rawCmd 4 (tagBytes utag) }

end Raw

/-- `cmd'` is `cmd` with the tag `utag`. -/
structure Retagged (cmd : Bytes) (utag : Nat) (cmd' : Bytes) : Prop where
  length : cmd'.length = cmd.length
  front : cmd'.take 4 = cmd.take 4
  back : cmd'.drop 8 = cmd.drop 8
  tag : cmdTags cmd' = utag % 2 ^ 32

theorem byteAt_tagBytes (utag : Nat) :
    byteAt (Raw.tagBytes utag) 0 = utag % 256 ∧ byteAt (Raw.tagBytes utag) 1 = utag / 2 ^ 8 % 256 ∧
      byteAt (Raw.tagBytes utag) 2 = utag / 2 ^ 16 % 256 ∧
      byteAt (Raw.tagBytes utag) 3 = utag / 2 ^ 24 % 256 := by
  refine ⟨?_, ?_, ?_, ?_⟩
  · change (UInt8.ofNat (utag &&& 0x000000FF)).toNat = _
    rw [UInt8.toNat_ofNat', and_ff]
    omega
  · change (UInt8.ofNat ((utag &&& 0xff <<< 8) >>> 8)).toNat = _
    rw [UInt8.toNat_ofNat', and_shiftRight]
    omega
  · change (UInt8.ofNat ((utag &&& 0xff <<< 16) >>> 16)).toNat = _
    rw [UInt8.toNat_ofNat', and_shiftRight]
    omega
  · change (UInt8.ofNat ((utag &&& 0xff <<< 24) >>> 24)).toNat = _
    rw [UInt8.toNat_ofNat', and_shiftRight]
    omega

/-- **`setTag` writes the tag** and nothing else. -/
theorem setTag_retagged {raw : Gateway2Server} (h : COMMAND_HEAD ≤ raw.rawCmd.length)
    (utag : Nat) : Retagged raw.rawCmd utag (Raw.setTag raw utag).rawCmd := by
  have hlen : 8 ≤ raw.rawCmd.length := h
  have hfour : (raw.rawCmd.take 4).length = 4 := by
    rw [List.length_take]
    omega
  have hfit : 4 + (Raw.tagBytes utag).length ≤ raw.rawCmd.length := hlen
  have hcmd : (Raw.setTag raw utag).rawCmd =
      raw.rawCmd.take 4 ++ (Raw.tagBytes utag ++ raw.rawCmd.drop 8) := by
    rw [Raw.setTag, overwrite_eq hfit, List.append_assoc]
    rfl
  refine ⟨length_overwrite _ _ _, ?_, ?_, ?_⟩
  · rw [hcmd, List.take_append_of_le_length (by omega), List.take_of_length_le (by omega)]
  · exact drop_overwrite hfit (Nat.le_refl 8)
  · obtain ⟨h0, h1, h2, h3⟩ := byteAt_tagBytes utag
    have hbyte : ∀ k, k < 4 →
        byteAt (Raw.setTag raw utag).rawCmd (4 + k) = byteAt (Raw.tagBytes utag) k := by
      intro k hk
      rw [hcmd, byteAt_append_right _ (by rw [hfour]), byteAt_append hk]
    rw [cmdTags_eq, hbyte 0 (by decide), hbyte 1 (by decide), hbyte 2 (by decide),
      hbyte 3 (by decide), h0, h1, h2, h3]
    omega

end LibuvServer.Mylua
