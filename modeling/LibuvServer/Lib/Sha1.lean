import LibuvServer.Lib.BlockHash
import Mathlib.Algebra.Group.Nat.Defs
import Mathlib.Tactic.Common

/-!
# SHA-1

The hash as the standard writes it: a schedule of eighty words, eighty steps
on five working variables, and a message padded to whole blocks of 64 bytes.
Words are read and written with the highest byte first.
-/

namespace LibuvServer.Lib.Sha1

abbrev Word := BitVec 32

/-- A hash value, or the working variables. -/
structure Vars where
  a : Word
  b : Word
  c : Word
  d : Word
  e : Word
  deriving DecidableEq

/-! ## Functions and constants -/

def Ch (x y z : Word) : Word := (x &&& y) ^^^ (~~~x &&& z)

def Parity (x y z : Word) : Word := x ^^^ y ^^^ z

def Maj (x y z : Word) : Word := (x &&& y) ^^^ (x &&& z) ^^^ (y &&& z)

def f (t : Nat) : Word → Word → Word → Word :=
  if t < 20 then Ch else if t < 40 then Parity else if t < 60 then Maj else Parity

def K (t : Nat) : Word :=
  if t < 20 then 0x5a827999
  else if t < 40 then 0x6ed9eba1
  else if t < 60 then 0x8f1bbcdc
  else 0xca62c1d6

/-! ## Blocks -/

/-- The word of four bytes, the highest first. -/
def ofBytes (p q r s : UInt8) : Word :=
  p.toBitVec.setWidth 32 <<< 24 ||| q.toBitVec.setWidth 32 <<< 16 |||
    r.toBitVec.setWidth 32 <<< 8 ||| s.toBitVec.setWidth 32

/-- Word `t` of a block. -/
def word (block : List UInt8) (t : Nat) : Word :=
  ofBytes (block.getD (4 * t) 0) (block.getD (4 * t + 1) 0) (block.getD (4 * t + 2) 0)
    (block.getD (4 * t + 3) 0)

/-- The message schedule. -/
def W (block : List UInt8) (t : Nat) : Word :=
  if t < 16 then word block t
  else (W block (t - 3) ^^^ W block (t - 8) ^^^ W block (t - 14) ^^^ W block (t - 16)).rotateLeft 1

def step (block : List UInt8) (v : Vars) (t : Nat) : Vars where
  a := v.a.rotateLeft 5 + f t v.b v.c v.d + v.e + K t + W block t
  b := v.a
  c := v.b.rotateLeft 30
  d := v.c
  e := v.d

def Vars.add (v w : Vars) : Vars := ⟨v.a + w.a, v.b + w.b, v.c + w.c, v.d + w.d, v.e + w.e⟩

def compress (h : Vars) (block : List UInt8) : Vars :=
  h.add ((List.range 80).foldl (step block) h)

/-! ## Messages -/

def init : Vars := ⟨0x67452301, 0xefcdab89, 0x98badcfe, 0x10325476, 0xc3d2e1f0⟩

/-- The last `k` bytes of a number, the highest first. -/
def bytes : Nat → Nat → List UInt8
  | 0, _ => []
  | k + 1, n => UInt8.ofNat (n / 256 ^ k) :: bytes k n

/-- The bit that is set, and then the length in bits at the end of a block. -/
def padding (n : Nat) : List UInt8 :=
  0x80 :: List.replicate ((119 - n % 64) % 64) 0 ++ bytes 8 (8 * n)

theorem length_bytes (k n : Nat) : (bytes k n).length = k := by
  induction k with
  | zero => rfl
  | succ k ih => rw [bytes, List.length_cons, ih]

theorem length_padding (n : Nat) : (padding n).length = 9 + (119 - n % 64) % 64 := by
  rw [padding, List.length_append, List.length_cons, List.length_replicate, length_bytes]
  omega

def sha1 : BlockHash Vars UInt8 where
  size := 64
  pos := by decide
  init := init
  compress := compress
  padding := padding
  whole n := by
    rw [length_padding]
    omega

def Vars.toList (v : Vars) : List Word := [v.a, v.b, v.c, v.d, v.e]

/-- The digest of a message. -/
def digest (m : List UInt8) : List UInt8 :=
  (sha1.hash m).toList.flatMap fun w => bytes 4 w.toNat

theorem length_digest (m : List UInt8) : (digest m).length = 20 := by
  simp only [digest, Vars.toList, List.flatMap_cons, List.flatMap_nil, List.length_append,
    length_bytes, List.length_nil]

end LibuvServer.Lib.Sha1
