import LibuvServer.Lib.Base64
import LibuvServer.Lib.CInt
import LibuvServer.Lib.RawBlock
import LibuvServer.Netbus.WebProtocol
import Mathlib.Tactic.Common

/-!
# Base64 as it is computed

`package/encryption/base64_encoder.c` and `base64_decoder.c`: both work out the
size of their block first and then write to it group by group. The decoder
passes over what is not in its table, and takes padding wherever a group ends.
-/

namespace LibuvServer.Encryption

open LibuvServer.Lib LibuvServer.Netbus

def SMALL_CHUNK : Int := 256

/-! ## Encoding -/

def encoding : Bytes :=
  strBytes "ABCDEFGHIJKLMNOPQRSTUVWXYZabcdefghijklmnopqrstuvwxyz0123456789+/"

def digitAt (v : Nat) : UInt8 := encoding.getD v 0

/-- The loop of `base64_encode`: the block, `i` and `j` after it. -/
def encodeGroups (text : Bytes) (buffer : RawBlock UInt8) (i j : Nat) :
    RawBlock UInt8 × Nat × Nat :=
  if i + 2 < text.length then
    let v := byteAt text i <<< 16 ||| byteAt text (i + 1) <<< 8 ||| byteAt text (i + 2)
    encodeGroups text (buffer.write j [digitAt (v >>> 18), digitAt (v >>> 12 &&& 0x3f),
      digitAt (v >>> 6 &&& 0x3f), digitAt (v &&& 0x3f)]) (i + 3) (j + 4)
  else (buffer, i, j)
termination_by text.length - i

/-- The `switch` behind it. -/
def encodePadding (text : Bytes) (buffer : RawBlock UInt8) (i j : Nat) : RawBlock UInt8 :=
  if text.length - i = 1 then
    let v := byteAt text i
    buffer.write j [digitAt (v >>> 2), digitAt ((v &&& 3) <<< 4), 0x3d, 0x3d]
  else if text.length - i = 2 then
    let v := byteAt text i <<< 8 ||| byteAt text (i + 1)
    buffer.write j
      [digitAt (v >>> 10), digitAt (v >>> 4 &&& 0x3f), digitAt ((v &&& 0xf) <<< 2), 0x3d]
  else buffer

/-- `base64_encode`: the block and `*out_esz`. -/
def base64Encode (text : Bytes) : RawBlock UInt8 × Int :=
  let encode_sz := toInt (toInt (toInt (text.length + 2) / 3) * 4)
  let buffer :=
    RawBlock.malloc (if encode_sz ≥ SMALL_CHUNK then toInt (encode_sz + 1) else SMALL_CHUNK)
  let (buffer, i, j) := encodeGroups text buffer 0 0
  ((encodePadding text buffer i j).write encode_sz [0], encode_sz)

/-! ## Decoding -/

def decoding : List Int :=
  [62, -1, -1, -1, 63, 52, 53, 54, 55, 56, 57, 58, 59, 60, 61, -1, -1, -1, -2, -1, -1, -1, 0, 1,
    2, 3, 4, 5, 6, 7, 8, 9, 10, 11, 12, 13, 14, 15, 16, 17, 18, 19, 20, 21, 22, 23, 24, 25, -1,
    -1, -1, -1, -1, -1, 26, 27, 28, 29, 30, 31, 32, 33, 34, 35, 36, 37, 38, 39, 40, 41, 42, 43,
    44, 45, 46, 47, 48, 49, 50, 51]

def b64index (c : UInt8) : Int :=
  if c < 43 then -1
  else if (c - 43).toNat ≥ decoding.length then -1
  else decoding.getD (c - 43).toNat (-1)

/-- The inner loop of `base64_decode` from `i` on, with the `c[j]` and the
padding it has so far; `none` where it goes to `failed`. -/
def readFour (text : Bytes) (sz : Int) (i : Nat) (c : List Int) (padding : Nat) :
    Option (Nat × List Int × Nat) :=
  if c.length < 4 then
    if sz ≤ i then none
    else
      let x := b64index (text.getD i 0)
      if x = -1 then readFour text sz (i + 1) c padding
      else readFour text sz (i + 1) (c ++ [x]) (if x = -2 then padding + 1 else padding)
  else some (i, c, padding)
termination_by (sz - i).toNat

/-- The `switch` on the padding: the bytes that are written. Where the values
are used they are not negative. -/
def decodeFour (c : List Int) (padding : Nat) : Option Bytes :=
  let at' (j : Nat) : Nat := (c.getD j 0).toNat
  match padding with
  | 0 =>
    let v := at' 0 <<< 18 ||| at' 1 <<< 12 ||| at' 2 <<< 6 ||| at' 3
    some [UInt8.ofNat (v >>> 16), UInt8.ofNat (v >>> 8 &&& 0xff), UInt8.ofNat (v &&& 0xff)]
  | 1 =>
    if c.getD 3 0 ≠ -2 ∨ at' 2 &&& 3 ≠ 0 then none
    else
      let v := at' 0 <<< 10 ||| at' 1 <<< 4 ||| at' 2 >>> 2
      some [UInt8.ofNat (v >>> 8), UInt8.ofNat (v &&& 0xff)]
  | 2 =>
    if c.getD 3 0 ≠ -2 ∨ c.getD 2 0 ≠ -2 ∨ at' 1 &&& 0xf ≠ 0 then none
    else some [UInt8.ofNat (at' 0 <<< 2 ||| at' 1 >>> 4)]
  | _ => none

/-- Something is read. -/
theorem readFour_lt {text : Bytes} {sz : Int} {i padding : Nat} {c : List Int}
    {done : Nat × List Int × Nat} (h : readFour text sz i c padding = some done) :
    i ≤ done.1 ∧ (c.length < 4 → i < done.1) := by
  fun_induction readFour text sz i c padding with
  | case1 i c padding _ hend => cases h
  | case2 i c padding _ hmore x hskip ih =>
    have hle := (ih h).1
    omega
  | case3 i c padding _ hmore x hkeep ih =>
    have hle := (ih h).1
    omega
  | case4 i c padding hfull =>
    cases h
    exact ⟨Nat.le_refl i, fun hc => absurd hc hfull⟩

/-- The loop of `base64_decode`: the block, and the size if it did not fail. -/
def decodeGroups (text : Bytes) (sz : Int) (buffer : RawBlock UInt8) (i output : Nat) :
    RawBlock UInt8 × Option Nat :=
  if (i : Int) < sz then
    match hread : readFour text sz i [] 0 with
    | none => (buffer, none)
    | some (i', c, padding) =>
      match decodeFour c padding with
      | none => (buffer, none)
      | some bytes =>
        have _hlt := (readFour_lt hread).2 (Nat.zero_lt_succ 3)
        decodeGroups text sz (buffer.write output bytes) i' (output + bytes.length)
  else (buffer, some output)
termination_by (sz - i).toNat
decreasing_by omega

/-- The end of `base64_decode`: the terminator, or `failed`. -/
def terminate : RawBlock UInt8 × Option Nat → RawBlock UInt8 × Option Nat
  | (buffer, some output) => (buffer.write output [0], some output)
  | (buffer, none) => (buffer, none)

/-- `base64_decode`: the block and `*out_size`, unless `nullptr` is returned. -/
def base64Decode (text : Bytes) : RawBlock UInt8 × Option Nat :=
  let decode_sz := toInt ((text.length + 3) / 4 * 3 + 1 : Nat)
  let buffer := RawBlock.malloc (if decode_sz > SMALL_CHUNK then decode_sz else SMALL_CHUNK)
  terminate (decodeGroups text (toInt text.length) buffer 0 0)

end LibuvServer.Encryption
