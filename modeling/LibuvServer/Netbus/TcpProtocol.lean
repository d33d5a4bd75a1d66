import LibuvServer.Lib.Framing
import Mathlib.Algebra.Group.Nat.Defs
import Mathlib.Tactic.Common

/-!
# TCP framing

`netbus/tcpprotocol.cc`: a frame is a two-byte little-endian length, which
counts itself, and the payload. `tcpFraming` is the reading of a header as
an announcement of a frame length, and `parserRecvData_isFrame` says which
payloads the two bytes can announce.
-/

namespace LibuvServer.Netbus

open LibuvServer.Lib

abbrev Bytes := List UInt8

/-- `data[i]`, promoted to an integer. -/
def byteAt (data : Bytes) (i : Nat) : Nat := (data.getD i 0).toNat

theorem byteAt_lt (data : Bytes) (i : Nat) : byteAt data i < 256 :=
  UInt8.toNat_lt _

theorem byteAt_append {data : Bytes} {i : Nat} (h : i < data.length) (w : Bytes) :
    byteAt (data ++ w) i = byteAt data i := by
  simp [byteAt, List.getD_eq_getElem?_getD, List.getElem?_append_left h]

theorem byteAt_append_right (v : Bytes) {w : Bytes} {i k : Nat} (h : i = v.length + k) :
    byteAt (v ++ w) i = byteAt w k := by
  subst h
  simp [byteAt, List.getD_eq_getElem?_getD, List.getElem?_append_right]

/-- Digits put together by shift and or make a number. -/
theorem or_shiftLeft {a k : Nat} (ha : a < 2 ^ k) (b : Nat) : a ||| b <<< k = a + 2 ^ k * b := by
  rw [Nat.or_comm, ← Nat.shiftLeft_add_eq_or_of_lt ha, Nat.shiftLeft_eq]
  rw [Nat.mul_comm, Nat.add_comm]

theorem or_shiftLeft_eight {a : Nat} (ha : a < 256) (b : Nat) :
    a ||| b <<< 8 = a + 256 * b := or_shiftLeft (k := 8) ha b

theorem and_ff (n : Nat) : n &&& 0x000000ff = n % 256 :=
  Nat.and_two_pow_sub_one_eq_mod n 8

/-- A byte masked out and shifted down. -/
theorem and_shiftRight (n k : Nat) : (n &&& 0xff <<< k) >>> k = n / 2 ^ k % 256 := by
  rw [Nat.shiftRight_and_distrib, Nat.shiftRight_eq_div_pow, Nat.shiftLeft_shiftRight]
  exact Nat.and_two_pow_sub_one_eq_mod (n / 2 ^ k) 8

theorem and_ff00_shiftRight (n : Nat) : (n &&& 0x0000ff00) >>> 8 = n / 256 % 256 :=
  and_shiftRight n 8

namespace TcpProtocol

/-- `tcpProtocol::readTcpHeader`: the package size and the header size. -/
def readTcpHeader (data : Bytes) (dataLen : Nat) : Option (Nat × Nat) :=
  if dataLen < 2 then none
  else some (byteAt data 0 ||| byteAt data 1 <<< 8, 2)

/-- `tcpProtocol::parserRecvData`: the package that carries `rawData`. Only
the low sixteen bits of its length fit the header. -/
def parserRecvData (rawData : Bytes) : Bytes :=
  let headSize := 2
  let pkgLen := headSize + rawData.length
  UInt8.ofNat (pkgLen &&& 0x000000ff) ::
    UInt8.ofNat ((pkgLen &&& 0x0000ff00) >>> 8) :: rawData

@[simp] theorem length_parserRecvData (rawData : Bytes) :
    (parserRecvData rawData).length = rawData.length + 2 := by
  simp [parserRecvData]

/-- The length a header announces. -/
def header (data : Bytes) : Nat := byteAt data 0 + 256 * byteAt data 1

theorem header_lt (data : Bytes) : header data < 65536 := by
  have := byteAt_lt data 0
  have := byteAt_lt data 1
  unfold header
  omega

theorem header_append {data : Bytes} (h : 2 ≤ data.length) (w : Bytes) :
    header (data ++ w) = header data := by
  simp only [header, byteAt_append (show 0 < data.length by omega),
    byteAt_append (show 1 < data.length by omega)]

theorem readTcpHeader_eq (data : Bytes) (dataLen : Nat) :
    readTcpHeader data dataLen =
      if dataLen < 2 then none else some (header data, 2) := by
  simp only [readTcpHeader, header, or_shiftLeft_eight (byteAt_lt data 0)]

theorem header_parserRecvData (rawData : Bytes) :
    header (parserRecvData rawData) = (rawData.length + 2) % 65536 := by
  have hlo : (UInt8.ofNat ((2 + rawData.length) &&& 0x000000ff)).toNat
      = (2 + rawData.length) % 256 := by
    rw [and_ff, UInt8.toNat_ofNat']
    omega
  have hhi : (UInt8.ofNat (((2 + rawData.length) &&& 0x0000ff00) >>> 8)).toNat
      = (2 + rawData.length) / 256 % 256 := by
    rw [and_ff00_shiftRight, UInt8.toNat_ofNat']
    omega
  simp only [header, byteAt, parserRecvData, List.getD_cons_zero, List.getD_cons_succ, hlo, hhi]
  omega

/-- The length of the first frame of `v`. A header of zero announces
nothing: a frame has to take something off the stream. -/
def frameSize? (v : Bytes) : Option Nat :=
  if v.length < 2 ∨ header v = 0 then none else some (header v)

theorem frameSize?_eq_some {v : Bytes} {n : Nat} :
    frameSize? v = some n ↔ 2 ≤ v.length ∧ header v = n ∧ 0 < n := by
  unfold frameSize?
  split
  · rename_i h
    simp only [reduceCtorEq, false_iff, not_and]
    omega
  · rename_i h
    simp only [Option.some.injEq]
    omega

/-- Reading the TCP header is a framing. -/
def tcpFraming : Framing UInt8 where
  size? := frameSize?
  pos h := (frameSize?_eq_some.mp h).2.2
  stable {v n} w h := by
    obtain ⟨hlen, hn, hpos⟩ := frameSize?_eq_some.mp h
    refine frameSize?_eq_some.mpr ⟨?_, ?_, hpos⟩
    · rw [List.length_append]
      omega
    · rw [header_append hlen, hn]

/-- A package is a frame as long as its length fits sixteen bits. -/
theorem parserRecvData_isFrame {rawData : Bytes} (h : rawData.length ≤ 65533) :
    tcpFraming.IsFrame (parserRecvData rawData) := by
  refine frameSize?_eq_some.mpr ⟨?_, ?_, ?_⟩
  · simp
  · rw [header_parserRecvData, length_parserRecvData]
    omega
  · simp

/-- The payload of a package. -/
theorem drop_parserRecvData (rawData : Bytes) :
    (parserRecvData rawData).drop 2 = rawData := rfl

end TcpProtocol

end LibuvServer.Netbus
