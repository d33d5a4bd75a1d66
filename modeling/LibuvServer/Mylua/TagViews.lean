import LibuvServer.Mylua.LuaService
import Mathlib.Tactic.Common

/-!
# Views of a tag

The tag of a command is written by `Raw.setTag` and by `encodeCmdMsg`, read
by `decodeMsgHead` and by `decodeCmdMsg`, and kept in `Gateway2Server`. Here
is what all of them say after any number of `setTag` calls.
-/

namespace LibuvServer.Mylua

open LibuvServer.Lib LibuvServer.Netbus

variable {Message : Type}

/-- One `Raw.setTag` after the other. -/
def Raw.setTags (raw : Gateway2Server) (utags : List UInt32) : Gateway2Server :=
  utags.foldl (fun raw utag => Raw.setTag raw utag.toNat) raw

/-- The last tag that is set, or the one in the buffer. -/
def lastTag (cmd : Bytes) (utags : List UInt32) : Nat :=
  (utags.getLast?.map UInt32.toNat).getD (cmdTags cmd)

/-- The shifts as they are made, in `int`: the last one can reach the sign. -/
def intTags (cmd : Bytes) : BitVec 32 :=
  BitVec.ofNat 32 (byteAt cmd 4) ||| BitVec.ofNat 32 (byteAt cmd 5) <<< 8 |||
    BitVec.ofNat 32 (byteAt cmd 6) <<< 16 ||| BitVec.ofNat 32 (byteAt cmd 7) <<< 24

/-- Every view of a buffer that was `cmd` reports `tag`, and the rest of
`cmd`. -/
structure Views (pm : ProtocolManager Message) (cmd : Bytes) (tag : Nat)
    (raw : Gateway2Server) : Prop where
  buffer : Retagged cmd tag raw.rawCmd
  shifts : (intTags raw.rawCmd).toNat = tag
  readHead : Raw.readHead raw = (cmdServerType cmd, cmdCommandType cmd, tag)
  msgHead : ∃ fresh, decodeMsgHead raw.rawCmd raw.rawLen = some fresh ∧
    Raw.readHead fresh = (cmdServerType cmd, cmdCommandType cmd, tag)
  cmdMsg : ∀ msg, decodeCmdMsg pm raw.rawCmd raw.rawLen = some msg →
    msg.serverType = cmdServerType cmd ∧ msg.commandType = cmdCommandType cmd ∧ msg.tags = tag
  body : decodeCmdMsg pm raw.rawCmd raw.rawLen =
    (decodeCmdMsg pm cmd cmd.length).map fun msg => { msg with tags := tag }
  encoded : ∀ serverType commandType,
    slice raw.rawCmd 4 4 = slice (encodeHead serverType commandType tag) 4 4

/-! ## Four bytes -/

/-- The shifts in `int` make the same `unsigned int`. -/
theorem intTags_toNat (cmd : Bytes) : (intTags cmd).toNat = cmdTags cmd := by
  have h4 := byteAt_lt cmd 4
  have h5 := byteAt_lt cmd 5
  have h6 := byteAt_lt cmd 6
  have h7 := byteAt_lt cmd 7
  have hshift : ∀ n k, n < 256 → k ≤ 24 → (BitVec.ofNat 32 n <<< k).toNat = n <<< k := by
    intro n k hn hk
    have hlt : n <<< k < 2 ^ 32 := by
      rw [Nat.shiftLeft_eq]
      calc n * 2 ^ k < 256 * 2 ^ k := Nat.mul_lt_mul_of_pos_right hn (Nat.two_pow_pos k)
        _ ≤ 256 * 2 ^ 24 := Nat.mul_le_mul_left _ (Nat.pow_le_pow_right (by decide) hk)
    rw [BitVec.toNat_shiftLeft, BitVec.toNat_ofNat, Nat.mod_eq_of_lt (a := n) (by omega),
      Nat.mod_eq_of_lt hlt]
  rw [intTags, BitVec.toNat_or, BitVec.toNat_or, BitVec.toNat_or, hshift _ 8 h5 (by decide),
    hshift _ 16 h6 (by decide), hshift _ 24 h7 (by decide), BitVec.toNat_ofNat,
    Nat.mod_eq_of_lt (by omega), cmdTags]

theorem uint8_ofNat_eq {m n : Nat} (h : m % 256 = n % 256) : UInt8.ofNat m = UInt8.ofNat n := by
  apply UInt8.toNat_inj.mp
  rw [UInt8.toNat_ofNat', UInt8.toNat_ofNat']
  exact h

/-- `setTag` and `memcpy` store the same bytes. -/
theorem tagBytes_eq (utag : Nat) : Raw.tagBytes utag = uintBytes utag := by
  show [UInt8.ofNat (utag &&& 0x000000FF), UInt8.ofNat ((utag &&& 0xff <<< 8) >>> 8),
    UInt8.ofNat ((utag &&& 0xff <<< 16) >>> 16), UInt8.ofNat ((utag &&& 0xff <<< 24) >>> 24)] = _
  rw [and_ff, and_shiftRight, and_shiftRight, and_shiftRight, uintBytes,
    Nat.shiftRight_eq_div_pow, Nat.shiftRight_eq_div_pow, Nat.shiftRight_eq_div_pow]
  congr 1
  · exact uint8_ofNat_eq (Nat.mod_mod _ _)
  congr 1
  · exact uint8_ofNat_eq (Nat.mod_mod _ _)
  congr 1
  · exact uint8_ofNat_eq (Nat.mod_mod _ _)
  congr 1
  exact uint8_ofNat_eq (Nat.mod_mod _ _)

/-- The bytes of the tag that a buffer has. -/
theorem uintBytes_cmdTags {cmd : Bytes} (h : 8 ≤ cmd.length) :
    uintBytes (cmdTags cmd) = slice cmd 4 4 := by
  obtain ⟨b0, b1, b2, b3, b4, b5, b6, b7, rest, rfl⟩ :
      ∃ b0 b1 b2 b3 b4 b5 b6 b7 rest,
        cmd = b0 :: b1 :: b2 :: b3 :: b4 :: b5 :: b6 :: b7 :: rest := by
    match cmd, h with
    | b0 :: b1 :: b2 :: b3 :: b4 :: b5 :: b6 :: b7 :: rest, _ =>
      exact ⟨b0, b1, b2, b3, b4, b5, b6, b7, rest, rfl⟩
  have h4 := UInt8.toNat_lt b4
  have h5 := UInt8.toNat_lt b5
  have h6 := UInt8.toNat_lt b6
  have h7 := UInt8.toNat_lt b7
  have hsum := cmdTags_eq (b0 :: b1 :: b2 :: b3 :: b4 :: b5 :: b6 :: b7 :: rest)
  generalize cmdTags _ = n at hsum ⊢
  change n = b4.toNat + 2 ^ 8 * b5.toNat + 2 ^ 16 * b6.toNat + 2 ^ 24 * b7.toNat at hsum
  have hbyte : ∀ (k : Nat) (b : UInt8), n / 2 ^ k % 256 = b.toNat →
      UInt8.ofNat (n >>> k) = b := by
    intro k b heq
    apply UInt8.toNat_inj.mp
    rw [UInt8.toNat_ofNat', Nat.shiftRight_eq_div_pow]
    exact heq
  show [UInt8.ofNat (n >>> 0), UInt8.ofNat (n >>> 8), UInt8.ofNat (n >>> 16),
    UInt8.ofNat (n >>> 24)] = [b4, b5, b6, b7]
  rw [hbyte 0 b4 (by omega), hbyte 8 b5 (by omega), hbyte 16 b6 (by omega),
    hbyte 24 b7 (by omega)]

/-! ## The buffer with another tag -/

/-- `cmd` with the tag `tag`, and its view. -/
def withTag (cmd : Bytes) (tag : Nat) : Gateway2Server where
  serverType := cmdServerType cmd
  commandType := cmdCommandType cmd
  tags := tag
  rawCmd := cmd.take 4 ++ (uintBytes tag ++ cmd.drop 8)
  rawLen := cmd.length

/-- A buffer has its own tag. -/
theorem withTag_self {cmd : Bytes} (h : 8 ≤ cmd.length) :
    decodeMsgHead cmd cmd.length = some (withTag cmd (cmdTags cmd)) := by
  have hcmd : cmd.take 4 ++ (slice cmd 4 4 ++ cmd.drop 8) = cmd := by
    rw [slice, ← List.append_assoc, ← List.take_add, List.take_append_drop]
  have hlen : ¬ (cmd.length : Int) < COMMAND_HEAD := by
    rw [show COMMAND_HEAD = 8 from rfl]
    omega
  rw [decodeMsgHead, if_neg hlen, withTag, uintBytes_cmdTags h, hcmd]

/-- A tag over a tag. -/
theorem setTag_withTag {cmd : Bytes} (h : 8 ≤ cmd.length) (tag : Nat) (utag : UInt32) :
    Raw.setTag (withTag cmd tag) utag.toNat = withTag cmd utag.toNat := by
  have hfour : (cmd.take 4).length = 4 := by
    rw [List.length_take]
    omega
  have hfront : (withTag cmd tag).rawCmd.take 4 = cmd.take 4 := by
    rw [withTag, List.take_append_of_le_length (by omega), List.take_of_length_le (by omega)]
  have hback : (withTag cmd tag).rawCmd.drop 8 = cmd.drop 8 := by
    rw [withTag, ← List.append_assoc]
    exact List.drop_left' (by rw [List.length_append, hfour]; rfl)
  have hfit : 4 + (Raw.tagBytes utag.toNat).length ≤ (withTag cmd tag).rawCmd.length := by
    rw [withTag, List.length_append, hfour]
    exact Nat.add_le_add_left (by rw [List.length_append]; exact Nat.le_add_right _ _) 4
  have hwritten : overwrite (withTag cmd tag).rawCmd 4 (Raw.tagBytes utag.toNat) =
      (withTag cmd utag.toNat).rawCmd := by
    rw [overwrite_eq hfit, hfront, List.append_assoc]
    show cmd.take 4 ++ (_ ++ (withTag cmd tag).rawCmd.drop 8) = _
    rw [hback, tagBytes_eq]
    rfl
  rw [Raw.setTag, hwritten, Nat.mod_eq_of_lt (UInt32.toNat_lt utag)]
  rfl

/-- **After any number of `setTag` calls** the buffer has the last tag. -/
theorem setTags_withTag {cmd : Bytes} (h : 8 ≤ cmd.length) (tag : Nat) (utags : List UInt32) :
    Raw.setTags (withTag cmd tag) utags =
      withTag cmd ((utags.getLast?.map UInt32.toNat).getD tag) := by
  induction utags generalizing tag with
  | nil => rfl
  | cons utag utags ih =>
    rw [Raw.setTags, List.foldl_cons, setTag_withTag h]
    refine (ih utag.toNat).trans ?_
    rw [List.getLast?_cons]
    cases utags.getLast? with
    | none => rfl
    | some last => rfl

/-! ## The views -/

section Views

variable {cmd : Bytes} (h : 8 ≤ cmd.length) (tag : Nat)

include h

theorem withTag_eq_overwrite :
    (withTag cmd tag).rawCmd = overwrite cmd 4 (uintBytes tag) := by
  have hfit : 4 + (uintBytes tag).length ≤ cmd.length := h
  rw [overwrite_eq hfit, List.append_assoc]
  rfl

theorem byteAt_withTag {i : Nat} (hi : i < 4) :
    byteAt (withTag cmd tag).rawCmd i = byteAt cmd i := by
  have hfour : (cmd.take 4).length = 4 := by
    rw [List.length_take]
    omega
  have hcmd : byteAt (cmd.take 4 ++ cmd.drop 4) i = byteAt (cmd.take 4) i :=
    byteAt_append (by omega) _
  rw [List.take_append_drop] at hcmd
  rw [withTag, byteAt_append (by omega), hcmd]

theorem drop_withTag : (withTag cmd tag).rawCmd.drop COMMAND_HEAD = cmd.drop COMMAND_HEAD := by
  rw [withTag_eq_overwrite h]
  exact drop_overwrite h (Nat.le_refl 8)

theorem cmdServerType_withTag : cmdServerType (withTag cmd tag).rawCmd = cmdServerType cmd := by
  rw [cmdServerType, byteAt_withTag h tag (by decide), byteAt_withTag h tag (by decide)]
  rfl

theorem cmdCommandType_withTag : cmdCommandType (withTag cmd tag).rawCmd = cmdCommandType cmd := by
  rw [cmdCommandType, byteAt_withTag h tag (by decide), byteAt_withTag h tag (by decide)]
  rfl

theorem withTag_retagged : Retagged cmd tag (withTag cmd tag).rawCmd := by
  have hset := @setTag_retagged { withTag cmd tag with rawCmd := cmd } h tag
  rw [Raw.setTag, tagBytes_eq, ← withTag_eq_overwrite h] at hset
  exact hset

end Views

/-- Decoding sees the tag and passes it on. -/
theorem decodeCmdMsg_retag (pm : ProtocolManager Message) {cmd cmd' : Bytes} (cmdLen : Int)
    (hserver : cmdServerType cmd' = cmdServerType cmd)
    (hcommand : cmdCommandType cmd' = cmdCommandType cmd)
    (hdrop : cmd'.drop COMMAND_HEAD = cmd.drop COMMAND_HEAD) :
    decodeCmdMsg pm cmd' cmdLen =
      (decodeCmdMsg pm cmd cmdLen).map fun msg => { msg with tags := cmdTags cmd' } := by
  unfold decodeCmdMsg
  simp only [hserver, hcommand, hdrop]
  split
  · rfl
  split
  · rfl
  split
  · rfl
  cases pm.proto.createMessage (pm.gProtoMap (cmdCommandType cmd)) with
  | none => rfl
  | some pM =>
    simp only
    cases pm.proto.parseFromArray pM (cmd.drop COMMAND_HEAD) with
    | none => rfl
    | some pM => rfl

theorem withTag_views {cmd : Bytes} (h : 8 ≤ cmd.length) {tag : Nat} (htag : tag < 2 ^ 32)
    (pm : ProtocolManager Message) : Views pm cmd tag (withTag cmd tag) := by
  have hretagged := withTag_retagged h tag
  have htags : cmdTags (withTag cmd tag).rawCmd = tag := by
    rw [hretagged.tag, Nat.mod_eq_of_lt htag]
  have hdecode := decodeCmdMsg_retag pm (withTag cmd tag).rawLen
    (cmdServerType_withTag h tag) (cmdCommandType_withTag h tag) (drop_withTag h tag)
  rw [htags] at hdecode
  have hlen : ¬ (withTag cmd tag).rawLen < COMMAND_HEAD := by
    show ¬ (cmd.length : Int) < (8 : Nat)
    omega
  have hfresh : decodeMsgHead (withTag cmd tag).rawCmd (withTag cmd tag).rawLen =
      some (withTag cmd tag) := by
    rw [decodeMsgHead, if_neg hlen, cmdServerType_withTag h, cmdCommandType_withTag h, htags]
    rfl
  constructor
  · exact hretagged
  · rw [intTags_toNat, htags]
  · rfl
  · exact ⟨_, hfresh, rfl⟩
  · intro msg hmsg
    exact decodeCmdMsg_head hmsg hfresh
  · exact hdecode
  · intro serverType commandType
    have hfour : (cmd.take 4).length = 4 := by
      rw [List.length_take]
      omega
    rw [slice, withTag, List.drop_left' hfour]
    rfl

/-- **Every view of a command** agrees after any number of `setTag` calls: all
report the last tag, and the rest as it was received. -/
theorem setTags_views (pm : ProtocolManager Message) {cmd : Bytes} {raw : Gateway2Server}
    (h : decodeMsgHead cmd cmd.length = some raw) (utags : List UInt32) :
    Views pm cmd (lastTag cmd utags) (Raw.setTags raw utags) := by
  have hlen : 8 ≤ cmd.length := (decodeMsgHead_rawCmd h).1
  have hlast : lastTag cmd utags < 2 ^ 32 := by
    unfold lastTag
    cases utags.getLast? with
    | none =>
      rw [← intTags_toNat]
      exact BitVec.isLt _
    | some utag => exact UInt32.toNat_lt utag
  rw [withTag_self hlen, Option.some.injEq] at h
  rw [← h, setTags_withTag hlen]
  exact withTag_views hlen hlast pm

/-- A JSON command is given a tag that reaches the sign, and then tag 1. -/
theorem setTags_views_twice :
    @Views Unit ⟨.PROTOCOL_JSON, fun _ => "", ⟨fun _ => none, fun _ _ => none⟩⟩
      [1, 0, 2, 0, 9, 9, 9, 9, 123, 125] 1
      (Raw.setTags ⟨1, 2, 151587081, [1, 0, 2, 0, 9, 9, 9, 9, 123, 125], 10⟩ [4294967295, 1]) := by
  have h : decodeMsgHead [1, 0, 2, 0, 9, 9, 9, 9, 123, 125] 10 =
      some ⟨1, 2, 151587081, [1, 0, 2, 0, 9, 9, 9, 9, 123, 125], 10⟩ := by decide
  exact setTags_views _ h [4294967295, 1]

end LibuvServer.Mylua
