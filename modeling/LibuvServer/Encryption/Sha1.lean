import LibuvServer.Lib.Block
import LibuvServer.Lib.Sha1
import LibuvServer.Netbus.TcpProtocol
import Mathlib.Tactic.Common

/-!
# SHA-1 as it is computed

`package/encryption/sha1.c` on a machine with the low byte first and a 64-bit
`size_t`. The eighty operations are written out with the registers renamed
instead of moved, the schedule is expanded inside the sixteen words of the
block, and data is buffered until a block is full. None of it shows in the
digest (`cryptSha1_digest`).
-/

namespace LibuvServer.Encryption

open LibuvServer.Lib LibuvServer.Netbus
open LibuvServer.Lib.Sha1 (Vars Word)

/-! ## One block -/

def rol (value : Word) (bits : Nat) : Word := value <<< bits ||| value >>> (32 - bits)

/-- `blk0(i)`, the word `i` of a block the other way round. -/
def blk0 (l : List Word) (i : Nat) : List Word :=
  l.set i (rol (l.getD i 0) 24 &&& 0xFF00FF00 ||| rol (l.getD i 0) 8 &&& 0x00FF00FF)

def blk (l : List Word) (i : Nat) : List Word :=
  l.set (i &&& 15) (rol (l.getD ((i + 13) &&& 15) 0 ^^^ l.getD ((i + 8) &&& 15) 0 ^^^
    l.getD ((i + 2) &&& 15) 0 ^^^ l.getD (i &&& 15) 0) 1)

/-- The working variables. -/
inductive Reg where
  | a | b | c | d | e
  deriving DecidableEq

namespace Reg

def get (s : Vars) : Reg → Word
  | a => s.a
  | b => s.b
  | c => s.c
  | d => s.d
  | e => s.e

def set (s : Vars) (x : Word) : Reg → Vars
  | a => { s with a := x }
  | b => { s with b := x }
  | c => { s with c := x }
  | d => { s with d := x }
  | e => { s with e := x }

end Reg

inductive Operation where
  | R0 | R1 | R2 | R3 | R4
  deriving DecidableEq

namespace Operation

/-- What the operation takes from the block. -/
def expand : Operation → List Word → Nat → List Word
  | R0 => blk0
  | R1 | R2 | R3 | R4 => blk

def function : Operation → Word → Word → Word → Word
  | R0, w, x, y | R1, w, x, y => (w &&& (x ^^^ y)) ^^^ y
  | R2, w, x, y | R4, w, x, y => w ^^^ x ^^^ y
  | R3, w, x, y => ((w ||| x) &&& y) ||| (w &&& x)

def constant : Operation → Word
  | R0 | R1 => 0x5A827999
  | R2 => 0x6ED9EBA1
  | R3 => 0x8F1BBCDC
  | R4 => 0xCA62C1D6

end Operation

/-- A use of one of the macros. -/
structure Round where
  operation : Operation
  v : Reg
  w : Reg
  x : Reg
  y : Reg
  z : Reg
  i : Nat
  deriving DecidableEq

/-- `z += f(w, x, y) + blk(i) + k + rol(v, 5); w = rol(w, 30);` -/
def Round.perform (s : Vars × List Word) (r : Round) : Vars × List Word :=
  let l := r.operation.expand s.2 r.i
  let z := r.z.get s.1 + (r.operation.function (r.w.get s.1) (r.x.get s.1) (r.y.get s.1) +
    l.getD (r.i &&& 15) 0 + r.operation.constant + rol (r.v.get s.1) 5)
  let s' := r.z.set s.1 z
  (r.w.set s' (rol (r.w.get s') 30), l)

section Unrolled

open Reg

def R0 (v w x y z : Reg) (i : Nat) : Round := ⟨.R0, v, w, x, y, z, i⟩

def R1 (v w x y z : Reg) (i : Nat) : Round := ⟨.R1, v, w, x, y, z, i⟩

def R2 (v w x y z : Reg) (i : Nat) : Round := ⟨.R2, v, w, x, y, z, i⟩

def R3 (v w x y z : Reg) (i : Nat) : Round := ⟨.R3, v, w, x, y, z, i⟩

def R4 (v w x y z : Reg) (i : Nat) : Round := ⟨.R4, v, w, x, y, z, i⟩

/-- The operations in their order. -/
def rounds : List Round := [
  R0 a b c d e 0, R0 e a b c d 1, R0 d e a b c 2, R0 c d e a b 3,
  R0 b c d e a 4, R0 a b c d e 5, R0 e a b c d 6, R0 d e a b c 7,
  R0 c d e a b 8, R0 b c d e a 9, R0 a b c d e 10, R0 e a b c d 11,
  R0 d e a b c 12, R0 c d e a b 13, R0 b c d e a 14, R0 a b c d e 15,
  R1 e a b c d 16, R1 d e a b c 17, R1 c d e a b 18, R1 b c d e a 19,
  R2 a b c d e 20, R2 e a b c d 21, R2 d e a b c 22, R2 c d e a b 23,
  R2 b c d e a 24, R2 a b c d e 25, R2 e a b c d 26, R2 d e a b c 27,
  R2 c d e a b 28, R2 b c d e a 29, R2 a b c d e 30, R2 e a b c d 31,
  R2 d e a b c 32, R2 c d e a b 33, R2 b c d e a 34, R2 a b c d e 35,
  R2 e a b c d 36, R2 d e a b c 37, R2 c d e a b 38, R2 b c d e a 39,
  R3 a b c d e 40, R3 e a b c d 41, R3 d e a b c 42, R3 c d e a b 43,
  R3 b c d e a 44, R3 a b c d e 45, R3 e a b c d 46, R3 d e a b c 47,
  R3 c d e a b 48, R3 b c d e a 49, R3 a b c d e 50, R3 e a b c d 51,
  R3 d e a b c 52, R3 c d e a b 53, R3 b c d e a 54, R3 a b c d e 55,
  R3 e a b c d 56, R3 d e a b c 57, R3 c d e a b 58, R3 b c d e a 59,
  R4 a b c d e 60, R4 e a b c d 61, R4 d e a b c 62, R4 c d e a b 63,
  R4 b c d e a 64, R4 a b c d e 65, R4 e a b c d 66, R4 d e a b c 67,
  R4 c d e a b 68, R4 b c d e a 69, R4 a b c d e 70, R4 e a b c d 71,
  R4 d e a b c 72, R4 c d e a b 73, R4 b c d e a 74, R4 a b c d e 75,
  R4 e a b c d 76, R4 d e a b c 77, R4 c d e a b 78, R4 b c d e a 79]

end Unrolled

/-- The bytes of a block as `uint32_t` with the low byte first. -/
def loadWords (buffer : Bytes) : List Word :=
  (List.range 16).map fun i =>
    Sha1.ofBytes (buffer.getD (4 * i + 3) 0) (buffer.getD (4 * i + 2) 0)
      (buffer.getD (4 * i + 1) 0) (buffer.getD (4 * i) 0)

/-- `SHA1_Transform`. -/
def sha1Transform (state : Vars) (buffer : Bytes) : Vars :=
  state.add (rounds.foldl Round.perform (state, loadWords buffer)).1

/-! ## A context -/

structure SHA1_CTX where
  state : Vars
  count0 : Word
  count1 : Word
  buffer : Bytes
  full : buffer.length = 64

/-- `sat_SHA1_Init`: the buffer stays what it was. -/
def satSha1Init (context : SHA1_CTX) : SHA1_CTX :=
  { context with
    state := ⟨0x67452301, 0xEFCDAB89, 0x98BADCFE, 0x10325476, 0xC3D2E1F0⟩
    count0 := 0
    count1 := 0 }

/-- The blocks that lie whole in `data`: the state after them, and where the
first begins that does not. -/
def transformBlocks (state : Vars) (data : Bytes) (i : Nat) : Vars × Nat :=
  if i + 63 < data.length then
    transformBlocks (sha1Transform state (slice data i 64)) data (i + 64)
  else (state, i)
termination_by data.length - i
decreasing_by omega

/-- `sat_SHA1_Update`. -/
def satSha1Update (context : SHA1_CTX) (data : Bytes) : SHA1_CTX :=
  let len := data.length
  let j := (context.count0 >>> 3 &&& 63).toNat
  let count0 := context.count0 + BitVec.ofNat 32 (len <<< 3)
  -- the sum is cut to 32 bits, `len << 3` is not
  let carry : Word := if count0.toNat < len <<< 3 then 1 else 0
  let count1 := context.count1 + carry + BitVec.ofNat 32 (len >>> 29)
  if j + len > 63 then
    let buffer := overwrite context.buffer j (data.take (64 - j))
    let (state, i) := transformBlocks (sha1Transform context.state buffer) data (64 - j)
    { state := state
      count0 := count0
      count1 := count1
      buffer := overwrite buffer 0 (data.drop i)
      full := by rw [length_overwrite, length_overwrite, context.full] }
  else
    { state := context.state
      count0 := count0
      count1 := count1
      buffer := overwrite context.buffer j data
      full := by rw [length_overwrite, context.full] }

/-- `finalcount`. -/
def finalcount (context : SHA1_CTX) : Bytes :=
  (List.range 8).map fun i =>
    let count := if i ≥ 4 then context.count0 else context.count1
    UInt8.ofBitVec ((count >>> ((3 - (i &&& 3)) * 8) &&& 255).setWidth 8)

/-- `504` keeps six bits. -/
theorem land_504 (n : Nat) : n &&& 504 = n % 512 / 8 * 8 := by
  have hmask : 504 = (2 ^ 6 - 1) <<< 3 := rfl
  have hbits : n % 512 / 8 * 8 = (n >>> 3 % 2 ^ 6) <<< 3 := by
    rw [Nat.shiftRight_eq_div_pow, Nat.shiftLeft_eq]
    omega
  rw [hbits, ← Nat.and_two_pow_sub_one_eq_mod, Nat.shiftLeft_and_distrib, ← hmask]
  apply Nat.eq_of_testBit_eq
  intro i
  simp only [Nat.testBit_and, Nat.testBit_shiftLeft, Nat.testBit_shiftRight]
  by_cases hi : 3 ≤ i
  · simp [hi]
  · -- the mask has no bit there
    have hlow : i = 0 ∨ i = 1 ∨ i = 2 := by omega
    rcases hlow with rfl | rfl | rfl <;> simp [Nat.testBit, Nat.shiftRight_eq_div_pow]

/-- The loop of `sat_SHA1_Final` goes on. -/
theorem count_ne_iff (count : Word) :
    count &&& 504 ≠ 448 ↔ ¬ (448 ≤ count.toNat % 512 ∧ count.toNat % 512 < 456) := by
  have hand : (count &&& 504).toNat = count.toNat % 512 / 8 * 8 := land_504 count.toNat
  have hnat : count &&& 504 = 448 ↔ count.toNat % 512 / 8 * 8 = 448 := by
    rw [← hand]
    exact ⟨fun h => by rw [h]; rfl, fun h => BitVec.eq_of_toNat_eq h⟩
  rw [Ne, hnat]
  omega

theorem count0_update (context : SHA1_CTX) (data : Bytes) :
    (satSha1Update context data).count0 = context.count0 + BitVec.ofNat 32 (data.length <<< 3) := by
  unfold satSha1Update
  simp only
  split <;> rfl

/-- The loop of `sat_SHA1_Final` that puts zeros behind the message. -/
def padZeros (context : SHA1_CTX) : SHA1_CTX :=
  if context.count0 &&& 504 ≠ 448 then padZeros (satSha1Update context [0]) else context
termination_by (967 - context.count0.toNat % 512) % 512
decreasing_by
  rename_i hgo
  have hrange := (count_ne_iff context.count0).mp hgo
  have hnext : (satSha1Update context [0]).count0.toNat = (context.count0.toNat + 8) % 2 ^ 32 := by
    rw [count0_update, BitVec.toNat_add]
    rfl
  rw [hnext]
  omega

/-- `sat_SHA1_Final`: the digest. -/
def satSha1Final (context : SHA1_CTX) : Bytes :=
  let final := finalcount context
  let context := padZeros (satSha1Update context [0x80])
  let context := satSha1Update context final
  (List.range 20).map fun i =>
    let word := context.state.toList.getD (i >>> 2) 0
    UInt8.ofBitVec ((word >>> ((3 - (i &&& 3)) * 8) &&& 255).setWidth 8)

/-- `crypt_sha1`, with a context on the stack that holds anything. -/
def cryptSha1 (buffer : Bytes) (stack : SHA1_CTX) : Bytes :=
  satSha1Final (satSha1Update (satSha1Init stack) buffer)

end LibuvServer.Encryption
