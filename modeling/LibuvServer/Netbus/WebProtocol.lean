import LibuvServer.Netbus.TcpProtocol
import LibuvServer.Lib.Block
import Mathlib.Tactic.Common

/-!
# WebSocket framing

`netbus/webprotocol.cc`: the handshake, the header of a client frame, the
masking of its payload and the frames the server sends. The HTTP parser,
SHA-1 and Base64 are vendored under `package/` and enter as `HttpLib`.
-/

namespace LibuvServer.Netbus

open LibuvServer.Lib

/-- The callbacks `http_parser_execute` makes, with the bytes each gets. -/
inductive HttpEvent where
  | headerField (at' : Bytes)
  | headerValue (at' : Bytes)
  | messageComplete

/-- What the handshake takes from the vendored packages. -/
structure HttpLib where
  /-- The callbacks of one `http_parser_execute` on a buffer, in order. -/
  execute : Bytes → List HttpEvent
  cryptSha1 : Bytes → Bytes
  base64Encode : Bytes → Bytes

def strBytes (s : String) : Bytes := s.toUTF8.toList

namespace WebProtocol

def webMagic : Bytes := strBytes "258EAFA5-E914-47DA-95CA-C5AB0DC85B11"

/-- `webAccept` with `%s` filled in. -/
def webAccept (key : Bytes) : Bytes :=
  strBytes "HTTP/1.1 101 Switching Protocols\r\nUpgrade:websocket\r\nConnection: Upgrade\r\nSec-WebSocket-Accept:"
    ++ key ++ strBytes "\r\nWebSocket-Protocol:chat\r\n\r\n"

/-- The parse flags and the key, all file-level statics of the source. -/
structure ShakeFlags where
  isSecKey : Bool := false
  hasSecKey : Bool := false
  isShakeEnd : Bool := false
  valueSecKey : Bytes := []

/-- `strncmp(at, s, at.length) == 0` for a name `at` without NUL bytes. -/
def strncmpEq (at' s : Bytes) : Bool := at' = s.take at'.length

/-- A C string ends at its first NUL. -/
def cString (b : Bytes) : Bytes := b.takeWhile (· ≠ 0)

/-- `onWebHeaderFiled`, `onWebHeaderValue` and `onWebMessageEnd`. -/
def onWebEvent (f : ShakeFlags) : HttpEvent → ShakeFlags
  | .headerField at' => { f with isSecKey := strncmpEq at' (strBytes "Sec-WebSocket-Key") }
  | .headerValue at' =>
      if f.isSecKey then { f with valueSecKey := cString at', hasSecKey := true } else f
  | .messageComplete => { f with isShakeEnd := true }

/-- `webProtocol::webserShakeHand`: the reply sent when the buffer holds a
complete request with a key. The flags are reset at every call, so nothing
of an earlier call is read. -/
def webserShakeHand (lib : HttpLib) (body : Bytes) : Option Bytes :=
  let flags := (lib.execute body).foldl onWebEvent {}
  if flags.hasSecKey && flags.isShakeEnd then
    let keyMagic := flags.valueSecKey ++ webMagic
    some (webAccept (lib.base64Encode (lib.cryptSha1 keyMagic)))
  else none

/-- An `unsigned int` stored into an `int`. -/
def toInt32 (n : Nat) : Int := (n : Int).bmod (2 ^ 32)

theorem toInt32_of_lt {n : Nat} (h : n < 2 ^ 31) : toInt32 n = n :=
  Int.bmod_eq_of_le_mul_two (by omega) (by omega)

/-- The end of `readWebHeader`: the mask is counted and the sizes are set. -/
def headerSizes (dataLen headSize : Nat) : Int × Nat :=
  (toInt32 ((dataLen + (headSize + 4)) % 2 ^ 32), headSize + 4)

/-- `webProtocol::readWebHeader`: the package size and the header size. The
second half of a 64-bit length is read by the source and not used. -/
def readWebHeader (pkgData : Bytes) (pkgLen : Nat) : Option (Int × Nat) :=
  if byteAt pkgData 0 ≠ 0x81 ∧ byteAt pkgData 0 ≠ 0x82 then none
  else if pkgLen < 2 then none
  else
    let dataLen := byteAt pkgData 1 &&& 0x0000007f
    if dataLen = 126 then
      if pkgLen < 2 + 2 then none
      else some (headerSizes (byteAt pkgData 3 ||| byteAt pkgData 2 <<< 8) (2 + 2))
    else if dataLen = 127 then
      if pkgLen < 2 + 8 then none
      else
        let low := byteAt pkgData 5 ||| byteAt pkgData 4 <<< 8 ||| byteAt pkgData 3 <<< 16 |||
          byteAt pkgData 2 <<< 24
        some (headerSizes low (2 + 8))
    else some (headerSizes dataLen 2)

/-- `webProtocol::parserRecvData`: the payload with the mask taken off. -/
def parserRecvData (rawData mask : Bytes) : Bytes :=
  rawData.mapIdx fun i b => b ^^^ mask.getD (i % 4) 0

/-- `webProtocol::sendPackageData`: the frame that carries `rawData`, or
`nullptr` for a payload the source refuses to frame. -/
def sendPackageData (rawData : Bytes) : Option Bytes :=
  let len := rawData.length
  if len ≤ 0x7d then some (0x82 :: UInt8.ofNat len :: rawData)
  else if len < 0x10000 then
    some (0x82 :: 0x7e :: UInt8.ofNat ((len &&& 0xff00) >>> 8) :: UInt8.ofNat (len &&& 0xff)
      :: rawData)
  else none

@[simp] theorem length_parserRecvData (rawData mask : Bytes) :
    (parserRecvData rawData mask).length = rawData.length := by
  simp [parserRecvData]

/-- Masking twice gives the payload back. -/
theorem parserRecvData_twice (rawData mask : Bytes) :
    parserRecvData (parserRecvData rawData mask) mask = rawData := by
  apply List.ext_getElem
  · simp
  · intro i h₁ h₂
    simp only [parserRecvData, List.getElem_mapIdx]
    rw [UInt8.xor_assoc, UInt8.xor_self, UInt8.xor_zero]

/-! ## Reading a header as an announcement -/

/-- More of the stream does not change a header that has been read. -/
theorem readWebHeader_append {v : Bytes} {p : Int × Nat}
    (h : readWebHeader v v.length = some p) (w : Bytes) :
    readWebHeader (v ++ w) (v ++ w).length = some p := by
  have hlen : 2 ≤ v.length := by
    by_contra hlt
    simp [readWebHeader, show v.length < 2 by omega] at h
  have hb : ∀ i, i < v.length → byteAt (v ++ w) i = byteAt v i := fun i hi => byteAt_append hi w
  simp only [readWebHeader, hb 0 (by omega), hb 1 (by omega), List.length_append] at h ⊢
  split at h
  · cases h
  rename_i hop
  rw [if_neg hop]
  rw [if_neg (by omega)] at h ⊢
  split at h
  · rename_i h126
    split at h
    · cases h
    rename_i hge
    rw [if_pos h126, if_neg (by omega), hb 2 (by omega), hb 3 (by omega), h]
  · rename_i h126
    split at h
    · rename_i h127
      split at h
      · cases h
      rename_i hge
      rw [if_neg h126, if_pos h127, if_neg (by omega), hb 2 (by omega), hb 3 (by omega),
        hb 4 (by omega), hb 5 (by omega), h]
    · rename_i h127
      rw [if_neg h126, if_neg h127, h]

/-- Only the bytes within `pkgLen` are read. -/
theorem readWebHeader_take {data : Bytes} {len : Nat} (hpos : 0 < len)
    (hle : len ≤ data.length) :
    readWebHeader data len = readWebHeader (data.take len) (data.take len).length := by
  have hlen : (data.take len).length = len := by
    rw [List.length_take]
    omega
  have hb : ∀ i, i < len → byteAt (data.take len) i = byteAt data i := by
    intro i hi
    simp [byteAt, List.getD_eq_getElem?_getD, List.getElem?_take_of_lt hi]
  rw [hlen]
  simp only [readWebHeader, hb 0 hpos]
  by_cases h2 : len < 2
  · simp only [h2, if_true]
  · simp only [h2, if_false, hb 1 (by omega)]
    by_cases h4 : len < 2 + 2
    · have h10 : len < 2 + 8 := by omega
      simp only [h4, h10, if_true]
    · simp only [h4, if_false, hb 2 (by omega), hb 3 (by omega)]
      by_cases h10 : len < 2 + 8
      · simp only [h10, if_true]
      · simp only [h10, if_false, hb 4 (by omega), hb 5 (by omega)]

/-- Ten bytes are enough to read any header that is accepted. -/
theorem readWebHeader_enough {v : Bytes} (h : 10 ≤ v.length) (w : Bytes) :
    readWebHeader v v.length = readWebHeader (v ++ w) (v ++ w).length := by
  have hb : ∀ i, i < v.length → byteAt (v ++ w) i = byteAt v i := fun i hi => byteAt_append hi w
  simp only [readWebHeader, hb 0 (by omega), hb 1 (by omega), hb 2 (by omega), hb 3 (by omega),
    hb 4 (by omega), hb 5 (by omega), List.length_append,
    show ¬ v.length < 2 by omega, show ¬ v.length < 2 + 2 by omega,
    show ¬ v.length < 2 + 8 by omega, show ¬ v.length + w.length < 2 by omega,
    show ¬ v.length + w.length < 2 + 2 by omega, show ¬ v.length + w.length < 2 + 8 by omega,
    if_false]

/-- A header that is accepted starts with a data opcode. -/
theorem readWebHeader_opcode {data : Bytes} {len : Nat} {p : Int × Nat}
    (h : readWebHeader data len = some p) : byteAt data 0 = 0x81 ∨ byteAt data 0 = 0x82 := by
  unfold readWebHeader at h
  split at h
  · cases h
  · omega

/-- The length of the first frame of `v`, when its header is there and
announces a positive number of bytes. -/
def frameSize? (v : Bytes) : Option Nat :=
  match readWebHeader v v.length with
  | some (pkgSize, _) => if 0 < pkgSize then some pkgSize.toNat else none
  | none => none

theorem frameSize?_eq_some {v : Bytes} {n : Nat} :
    frameSize? v = some n ↔
      0 < n ∧ ∃ headSize, readWebHeader v v.length = some ((n : Int), headSize) := by
  unfold frameSize?
  split
  · rename_i pkgSize headSize h
    split
    · rename_i hpos
      simp only [Option.some.injEq, h, Prod.mk.injEq]
      constructor
      · rintro rfl
        exact ⟨by omega, headSize, by omega, rfl⟩
      · rintro ⟨-, -, hn, -⟩
        omega
    · rename_i hpos
      simp only [reduceCtorEq, h, Option.some.injEq, Prod.mk.injEq, false_iff, not_and,
        not_exists]
      omega
  · rename_i h
    simp [h]

/-- Reading the WebSocket header is a framing. -/
def webFraming : Framing UInt8 where
  size? := frameSize?
  pos h := (frameSize?_eq_some.mp h).1
  stable w h := by
    obtain ⟨hpos, headSize, hr⟩ := frameSize?_eq_some.mp h
    exact frameSize?_eq_some.mpr ⟨hpos, headSize, readWebHeader_append hr w⟩

/-! ## Client frames -/

/-- The length field `sendPackageData` writes, for the lengths it accepts. -/
def lengthField (len : Nat) : Bytes :=
  if len ≤ 0x7d then [UInt8.ofNat len]
  else [0x7e, UInt8.ofNat ((len &&& 0xff00) >>> 8), UInt8.ofNat (len &&& 0xff)]

theorem sendPackageData_eq {rawData : Bytes} (h : rawData.length < 0x10000) :
    sendPackageData rawData = some (0x82 :: lengthField rawData.length ++ rawData) := by
  unfold sendPackageData lengthField
  by_cases h7 : rawData.length ≤ 0x7d
  · simp [h7]
  · simp [h7, h]

theorem length_lt_of_sendPackageData {rawData pkg : Bytes}
    (h : sendPackageData rawData = some pkg) : rawData.length < 0x10000 := by
  unfold sendPackageData at h
  simp only at h
  split at h
  · omega
  · split at h
    · assumption
    · cases h

/-- One masked client frame: the opcode byte, the mask and the payload, whose
length the 7-bit or the 16-bit form can carry. -/
structure ClientFrame where
  opcode : UInt8
  mask : Bytes
  payload : Bytes
  opcode_data : opcode = 0x81 ∨ opcode = 0x82
  mask_size : mask.length = 4
  payload_size : payload.length ≤ 65535

namespace ClientFrame

/-- The length field with the mask bit set. -/
def maskedLength (len : Nat) : Bytes :=
  match lengthField len with
  | b :: rest => (b ||| 0x80) :: rest
  | [] => []

/-- The bytes of the frame: what `sendPackageData` writes, with the mask bit
set, the mask inserted after the length and the payload masked. -/
def encode (f : ClientFrame) : Bytes :=
  f.opcode :: maskedLength f.payload.length ++ f.mask ++ parserRecvData f.payload f.mask

/-- The size of the header, mask included. -/
def headSize (f : ClientFrame) : Nat := if f.payload.length ≤ 0x7d then 6 else 8

theorem length_maskedLength (len : Nat) :
    (maskedLength len).length = if len ≤ 0x7d then 1 else 3 := by
  by_cases h : len ≤ 0x7d <;> simp [maskedLength, lengthField, h]

theorem length_encode (f : ClientFrame) :
    f.encode.length = f.headSize + f.payload.length := by
  simp only [encode, List.length_append, List.length_cons, length_maskedLength, f.mask_size,
    length_parserRecvData, headSize]
  split <;> omega

theorem opcode_toNat (f : ClientFrame) : f.opcode.toNat = 0x81 ∨ f.opcode.toNat = 0x82 := by
  rcases f.opcode_data with h | h <;> rw [h]
  · exact .inl rfl
  · exact .inr rfl

/-- The mask bit does not reach the seven length bits. -/
theorem and_or_mask_bit (b : UInt8) (h : b.toNat < 128) :
    (b ||| 0x80).toNat &&& 0x7f = b.toNat := by
  rw [UInt8.toNat_or, Nat.and_or_distrib_right,
    show (0x80 : UInt8).toNat &&& 0x7f = 0 from rfl, Nat.or_zero]
  exact (Nat.and_two_pow_sub_one_eq_mod b.toNat 7).trans (Nat.mod_eq_of_lt h)

theorem headerSizes_of_lt {dataLen headSize : Nat} (h : dataLen + headSize + 4 < 2 ^ 31) :
    headerSizes dataLen headSize = (((headSize + 4 + dataLen : Nat) : Int), headSize + 4) := by
  have hmod : (dataLen + (headSize + 4)) % 2 ^ 32 = headSize + 4 + dataLen := by omega
  rw [headerSizes, hmod, toInt32_of_lt (by omega)]

/-- **The header of a client frame is read back.** -/
theorem readWebHeader_encode (f : ClientFrame) :
    readWebHeader f.encode f.encode.length = some ((f.encode.length : Int), f.headSize) := by
  have hsize := f.payload_size
  have hlen := f.length_encode
  have hop : ¬ (f.opcode.toNat ≠ 0x81 ∧ f.opcode.toNat ≠ 0x82) := by
    rcases f.opcode_toNat with h | h <;> omega
  by_cases h7 : f.payload.length ≤ 0x7d
  · -- the 7-bit form
    have hhead : f.headSize = 6 := by simp [headSize, h7]
    have hb0 : byteAt f.encode 0 = f.opcode.toNat := rfl
    have hb1 : byteAt f.encode 1 &&& 0x0000007f = f.payload.length := by
      have h1 : byteAt f.encode 1 = (UInt8.ofNat f.payload.length ||| 0x80).toNat := by
        simp [byteAt, encode, maskedLength, lengthField, h7]
      have hn : (UInt8.ofNat f.payload.length).toNat = f.payload.length := by
        rw [UInt8.toNat_ofNat']
        omega
      rw [h1, and_or_mask_bit _ (by omega), hn]
    simp only [readWebHeader, hb0, hb1, if_neg hop]
    rw [if_neg (by omega), if_neg (by omega), if_neg (by omega), headerSizes_of_lt (by omega), hlen,
      hhead]
  · -- the 16-bit form
    have hhead : f.headSize = 8 := by simp [headSize, h7]
    have hb0 : byteAt f.encode 0 = f.opcode.toNat := rfl
    have hb1 : byteAt f.encode 1 &&& 0x0000007f = 126 := by
      have h1 : byteAt f.encode 1 = ((0x7e : UInt8) ||| 0x80).toNat := by
        simp [byteAt, encode, maskedLength, lengthField, h7]
      rw [h1]
      rfl
    have hb2 : byteAt f.encode 2 = f.payload.length / 256 := by
      have h2 : byteAt f.encode 2
          = (UInt8.ofNat ((f.payload.length &&& 0x0000ff00) >>> 8)).toNat := by
        simp [byteAt, encode, maskedLength, lengthField, h7]
      rw [h2, and_ff00_shiftRight, UInt8.toNat_ofNat']
      omega
    have hb3 : byteAt f.encode 3 = f.payload.length % 256 := by
      have h3 : byteAt f.encode 3 = (UInt8.ofNat (f.payload.length &&& 0x000000ff)).toNat := by
        simp [byteAt, encode, maskedLength, lengthField, h7]
      rw [h3, and_ff, UInt8.toNat_ofNat']
      omega
    have hdata : byteAt f.encode 3 ||| byteAt f.encode 2 <<< 8 = f.payload.length := by
      rw [or_shiftLeft_eight (byteAt_lt _ _), hb2, hb3]
      omega
    simp only [readWebHeader, hb0, hb1, hdata, if_neg hop]
    rw [if_neg (by omega), if_pos trivial, if_neg (by omega), headerSizes_of_lt (by omega), hlen,
      hhead]

theorem encode_isFrame (f : ClientFrame) : webFraming.IsFrame f.encode := by
  refine frameSize?_eq_some.mpr ⟨?_, f.headSize, f.readWebHeader_encode⟩
  rw [f.length_encode, headSize]
  split <;> omega

theorem drop_headSize_encode (f : ClientFrame) :
    f.encode.drop f.headSize = parserRecvData f.payload f.mask := by
  have hlen : (f.opcode :: maskedLength f.payload.length ++ f.mask).length = f.headSize := by
    simp only [List.length_append, List.length_cons, length_maskedLength, f.mask_size, headSize]
    split <;> rfl
  rw [encode, ← hlen, List.drop_left]

theorem mask_encode (f : ClientFrame) :
    slice f.encode (f.headSize - 4) 4 = f.mask := by
  have hlen : (f.opcode :: maskedLength f.payload.length).length = f.headSize - 4 := by
    simp only [List.length_cons, length_maskedLength, headSize]
    split <;> rfl
  rw [slice, encode, List.append_assoc, ← hlen, List.drop_left, ← f.mask_size, List.take_left]

end ClientFrame

end WebProtocol

end LibuvServer.Netbus
