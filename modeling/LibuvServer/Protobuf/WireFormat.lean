import LibuvServer.Lib.Varint
import Mathlib.Tactic.Common

/-!
# The wire format

What generated messages use of the protobuf runtime: `parse_context.h` and
`parse_context.cc` for reading, `io/coded_stream.h` and `wire_format.cc` for
writing and for sizes, and `unknown_field_set.cc`. What is still to be read is
the bytes up to the limit; a read over it ends in an error at the next `Done`
at the latest, and is one at once here.
-/

namespace LibuvServer.Protobuf

open LibuvServer.Lib

/-! ## Wire types -/

namespace WireType

def VARINT : Nat := 0

def FIXED64 : Nat := 1

def LENGTH_DELIMITED : Nat := 2

def START_GROUP : Nat := 3

def END_GROUP : Nat := 4

def FIXED32 : Nat := 5

end WireType

/-- `WireFormatLite::MakeTag`. -/
def MakeTag (field_number type : Nat) : Nat := (field_number * 8 + type) % 2 ^ 32

def INT_MAX : Nat := 2 ^ 31 - 1

def kSlopBytes : Nat := 16

/-- A value that was read, and what is left. -/
abbrev Read (α : Type) := Option (α × List UInt8)

/-! ## Reading numbers -/

/-- The loops of the `Slow` and `Fallback` functions: `k` bytes from byte `i`
on, in `w` bits. `res` has the high bit of the byte before, which the next
byte takes out again; `more` is what comes after byte `i + k - 1`. -/
def readBytes (w : Nat) (more : Nat → List UInt8 → Read Nat) :
    Nat → Nat → Nat → List UInt8 → Read Nat
  | 0, _, res, p => more res p
  | _ + 1, _, _, [] => none
  | k + 1, i, res, byte :: p =>
    let res := (res + (byte.toNat + (2 ^ w - 1)) * 2 ^ (7 * i)) % 2 ^ w
    if byte.toNat < 128 then some (res, p) else readBytes w more k (i + 1) res p

def VarintParseSlow64 (res : Nat) (p : List UInt8) : Read Nat :=
  readBytes 64 (fun _ _ => none) 8 2 res p

/-- `VarintParse<uint64>`, with `res` in 32 bits up to the second byte. -/
def VarintParse : List UInt8 → Read Nat
  | [] => none
  | byte :: p =>
    if byte.toNat < 128 then some (byte.toNat, p)
    else readBytes 32 VarintParseSlow64 1 1 byte.toNat p

def ReadTagFallback (res : Nat) (p : List UInt8) : Read Nat :=
  readBytes 32 (fun _ _ => none) 3 2 res p

def ReadTag : List UInt8 → Read Nat
  | [] => none
  | byte :: p =>
    if byte.toNat < 128 then some (byte.toNat, p)
    else readBytes 32 ReadTagFallback 1 1 byte.toNat p

/-- The fifth byte of a size, and the limit for sizes. -/
def lastSizeByte (res : Nat) : List UInt8 → Read Nat
  | [] => none
  | byte :: p =>
    if 8 ≤ byte.toNat then none
    else
      let res := (res + (byte.toNat + (2 ^ 32 - 1)) * 2 ^ 28) % 2 ^ 32
      if INT_MAX - kSlopBytes < res then none else some (res, p)

def ReadSizeFallback (res : Nat) (p : List UInt8) : Read Nat := readBytes 32 lastSizeByte 3 1 res p

def ReadSize : List UInt8 → Read Nat
  | [] => none
  | byte :: p =>
    if byte.toNat < 128 then some (byte.toNat, p) else ReadSizeFallback byte.toNat p

/-- `EpsCopyInputStream::ReadString`. -/
def ReadString (size : Nat) (p : List UInt8) : Read (List UInt8) :=
  if size ≤ p.length then some (p.take size, p.drop size) else none

/-- `InlineGreedyStringParser`, and what `ParseLengthDelimited` does. -/
def InlineGreedyStringParser (p : List UInt8) : Read (List UInt8) :=
  (ReadSize p).bind fun (size, p) => ReadString size p

/-- `UnalignedLoad` of `n` bytes. -/
def UnalignedLoad (n : Nat) (p : List UInt8) : Read Nat :=
  if n ≤ p.length then some ((p.take n).foldr (fun b v => b.toNat + 256 * v) 0, p.drop n) else none

/-! ## Writing -/

/-- `WriteFixed32ToArray` and `WriteFixed64ToArray`, the number alone. -/
def littleEndian : Nat → Nat → List UInt8
  | 0, _ => []
  | n + 1, v => UInt8.ofNat (v % 256) :: littleEndian n (v / 256)

/-- `EpsCopyOutputStream::UnsafeVarint` and `UnsafeWriteSize`. -/
def UnsafeVarint (value : Nat) : List UInt8 := Varint.encode value

def WriteTagToArray (field_number type : Nat) : List UInt8 :=
  UnsafeVarint (MakeTag field_number type)

/-- `EpsCopyOutputStream::WriteString`, and `WriteStringMaybeAliased`. -/
def WriteString (num : Nat) (s : List UInt8) : List UInt8 :=
  WriteTagToArray num WireType.LENGTH_DELIMITED ++ UnsafeVarint (s.length % 2 ^ 32) ++ s

/-- An `int32` as the 64 bits it is written as. -/
def signExtended (value : Int) : Nat := (value % 2 ^ 64).toNat

def WriteInt32ToArray (field_number : Nat) (value : Int) : List UInt8 :=
  WriteTagToArray field_number WireType.VARINT ++ UnsafeVarint (signExtended value)

/-! ## Sizes -/

/-- `CodedOutputStream::VarintSize32` and `VarintSize64`. -/
def VarintSize (value : Nat) : Nat := ((value ||| 1).log2 * 9 + 73) / 64

def TagSize (field_number type : Nat) : Nat := VarintSize (MakeTag field_number type)

/-- `WireFormatLite::Int32Size`. -/
def Int32Size (value : Int) : Nat := if value < 0 then 10 else VarintSize value.toNat

def LengthDelimitedSize (length : Nat) : Nat := length + VarintSize (length % 2 ^ 32)

section Numbers

variable {w k i j v : Nat} {p : List UInt8}

/-- **The loop** reads the number that is there, if what comes after it does. -/
theorem readBytes_eq {more : Nat → List UInt8 → Read Nat} {f : Nat → List UInt8 → Read Nat}
    (hv : v < 2 ^ (7 * i))
    (hmore : ∀ v p, v < 2 ^ (7 * (i + k)) → more ((v + 2 ^ (7 * (i + k))) % 2 ^ w) p =
      (Varint.decode j p).bind fun r => f (v + 2 ^ (7 * (i + k)) * r.1) r.2)
    (hf : ∀ v p, v < 2 ^ (7 * (i + k)) → f v p = some (v % 2 ^ w, p)) :
    readBytes w more k i ((v + 2 ^ (7 * i)) % 2 ^ w) p =
      (Varint.decode (k + j) p).bind fun r => f (v + 2 ^ (7 * i) * r.1) r.2 := by
  induction k generalizing i v p with
  | zero =>
    rw [readBytes, Nat.zero_add]
    exact hmore v p hv
  | succ k ih =>
    have hnext : i + (k + 1) = i + 1 + k := by omega
    have hpow : 2 ^ (7 * (i + 1)) = 2 ^ (7 * i) * 128 := by rw [Nat.mul_add, Nat.pow_add]
    rw [hnext] at hmore hf
    rw [Nat.add_right_comm k 1 j]
    cases p with
    | nil => rfl
    | cons b p =>
      have hb := b.toNat_lt
      rw [readBytes, Varint.carry (Nat.two_pow_pos w), Varint.decode]
      by_cases hlast : b.toNat < 128
      · have hlt : v + 2 ^ (7 * i) * b.toNat < 2 ^ (7 * (i + 1)) := by
          calc v + 2 ^ (7 * i) * b.toNat
              < 2 ^ (7 * i) + 2 ^ (7 * i) * b.toNat := Nat.add_lt_add_right hv _
            _ = 2 ^ (7 * i) * (1 + b.toNat) := by rw [Nat.mul_add, Nat.mul_one]
            _ ≤ 2 ^ (7 * (i + 1)) := by
              rw [hpow]
              exact Nat.mul_le_mul_left _ (by omega)
        have hall : v + 2 ^ (7 * i) * b.toNat < 2 ^ (7 * (i + 1 + k)) :=
          Nat.lt_of_lt_of_le hlt (Nat.pow_le_pow_right (by omega) (by omega))
        rw [if_pos hlast, if_pos hlast, Option.bind_some, hf _ _ hall, Nat.mul_comm b.toNat]
      · -- the high bit is the one the next byte takes out
        obtain ⟨low, hlow⟩ := Nat.exists_eq_add_of_le (Nat.not_lt.mp hlast)
        have hlt : v + 2 ^ (7 * i) * low < 2 ^ (7 * (i + 1)) := by
          calc v + 2 ^ (7 * i) * low
              < 2 ^ (7 * i) + 2 ^ (7 * i) * low := Nat.add_lt_add_right hv _
            _ = 2 ^ (7 * i) * (1 + low) := by rw [Nat.mul_add, Nat.mul_one]
            _ ≤ 2 ^ (7 * (i + 1)) := by
              rw [hpow]
              exact Nat.mul_le_mul_left _ (by omega)
        have hsum : v + b.toNat * 2 ^ (7 * i) = v + 2 ^ (7 * i) * low + 2 ^ (7 * (i + 1)) := by
          rw [hlow, hpow, Nat.add_mul, Nat.mul_comm low, Nat.mul_comm 128]
          omega
        rw [if_neg hlast, if_neg hlast, hsum, ih hlt hmore hf, Option.bind_map]
        congr 1
        funext r
        have hvalue : v + 2 ^ (7 * i) * low + 2 ^ (7 * (i + 1)) * r.1 =
            v + 2 ^ (7 * i) * (b.toNat - 128 + 128 * r.1) := by
          rw [hlow, hpow, Nat.add_sub_cancel_left, Nat.mul_add, Nat.mul_assoc, Nat.add_assoc]
        exact congrArg (fun v => f v r.2) hvalue

/-- **From the first byte on.** -/
theorem firstByte_eq {more : Nat → List UInt8 → Read Nat} {f : Nat → List UInt8 → Read Nat}
    (hw : 8 ≤ w)
    (hmore : ∀ v p, v < 2 ^ (7 * (1 + k)) → more ((v + 2 ^ (7 * (1 + k))) % 2 ^ w) p =
      (Varint.decode j p).bind fun r => f (v + 2 ^ (7 * (1 + k)) * r.1) r.2)
    (hf : ∀ v p, v < 2 ^ (7 * (1 + k)) → f v p = some (v % 2 ^ w, p)) (b : UInt8) :
    (if b.toNat < 128 then some (b.toNat, p) else readBytes w more k 1 b.toNat p) =
      (Varint.decode (k + j + 1) (b :: p)).bind fun r => f r.1 r.2 := by
  have hb := b.toNat_lt
  have hword : 2 ^ 8 ≤ 2 ^ w := Nat.pow_le_pow_right (by omega) hw
  rw [Varint.decode]
  by_cases hlast : b.toNat < 128
  · have hseven : 2 ^ 7 ≤ 2 ^ (7 * (1 + k)) := Nat.pow_le_pow_right (by omega) (by omega)
    have hall : b.toNat < 2 ^ (7 * (1 + k)) := by omega
    rw [if_pos hlast, if_pos hlast, Option.bind_some, hf _ _ hall, Nat.mod_eq_of_lt (by omega)]
  · obtain ⟨low, hlow⟩ := Nat.exists_eq_add_of_le (Nat.not_lt.mp hlast)
    have hres : b.toNat = (low + 2 ^ (7 * 1)) % 2 ^ w := by
      rw [Nat.mod_eq_of_lt (by omega)]
      omega
    have hloop : readBytes w more k 1 b.toNat p =
        (Varint.decode (k + j) p).bind fun r => f (low + 2 ^ (7 * 1) * r.1) r.2 :=
      (congrArg (readBytes w more k 1 · p) hres).trans (readBytes_eq (by omega) hmore hf)
    rw [if_neg hlast, if_neg hlast, Option.bind_map]
    refine hloop.trans (congrArg _ ?_)
    funext r
    have hvalue : low + 2 ^ (7 * 1) * r.1 = b.toNat - 128 + 128 * r.1 := by omega
    exact congrArg (fun v => f v r.2) hvalue

/-- **A varint** is a number in at most ten bytes, of which 64 bits count. -/
theorem VarintParse_eq (p : List UInt8) :
    VarintParse p = (Varint.decode 10 p).bind fun r => some (r.1 % 2 ^ 64, r.2) := by
  cases p with
  | nil => rfl
  | cons b p =>
    refine firstByte_eq (j := 8) (f := fun v p => some (v % 2 ^ 64, p)) (by omega) ?_ ?_ b
    · intro v p hv
      have hlt : v < 2 ^ 14 := hv
      have hsmall : (v + 2 ^ (7 * (1 + 1))) % 2 ^ 32 = (v + 2 ^ (7 * 2)) % 2 ^ 64 := by omega
      rw [hsmall]
      exact readBytes_eq (j := 0) (f := fun v p => some (v % 2 ^ 64, p)) hv (fun _ _ _ => rfl)
        fun _ _ _ => rfl
    · intro v p hv
      have hlt : v < 2 ^ 14 := hv
      rw [Nat.mod_eq_of_lt (by omega), Nat.mod_eq_of_lt (by omega)]

/-- **A tag** is a number in at most five bytes, of which 32 bits count. -/
theorem ReadTag_eq (p : List UInt8) :
    ReadTag p = (Varint.decode 5 p).bind fun r => some (r.1 % 2 ^ 32, r.2) := by
  cases p with
  | nil => rfl
  | cons b p =>
    refine firstByte_eq (j := 3) (f := fun v p => some (v % 2 ^ 32, p)) (by omega) ?_
      (fun _ _ _ => rfl) b
    intro v p hv
    exact readBytes_eq (j := 0) (f := fun v p => some (v % 2 ^ 32, p)) hv (fun _ _ _ => rfl)
      fun _ _ _ => rfl

/-- **A size** is a number in at most five bytes that is not too large. -/
theorem ReadSize_eq (p : List UInt8) : ReadSize p = (Varint.decode 5 p).bind fun r =>
    if r.1 ≤ INT_MAX - kSlopBytes then some r else none := by
  have hmax : INT_MAX - kSlopBytes = 2147483631 := rfl
  cases p with
  | nil => rfl
  | cons b p =>
    refine firstByte_eq (j := 1)
      (f := fun v p => if v ≤ INT_MAX - kSlopBytes then some (v, p) else none) (by omega) ?_ ?_ b
    · intro v p hv
      have hlt : v < 2 ^ 28 := hv
      cases p with
      | nil => rfl
      | cons b p =>
        have hsum :
            ((v + 2 ^ (7 * (1 + 3))) % 2 ^ 32 + (b.toNat + (2 ^ 32 - 1)) * 2 ^ 28) % 2 ^ 32 =
              (v + b.toNat * 2 ^ 28) % 2 ^ 32 :=
          Varint.carry (m := 2 ^ 32) (by omega) v b.toNat (2 ^ 28)
        simp only [lastSizeByte, hsum, Varint.decode]
        by_cases hbig : 8 ≤ b.toNat
        · rw [if_pos hbig]
          by_cases hlast : b.toNat < 128
          · rw [if_pos hlast, Option.bind_some, if_neg (by omega)]
          · rw [if_neg hlast]
            rfl
        · have hlast : b.toNat < 128 := by omega
          rw [if_neg hbig, if_pos hlast, Option.bind_some, Nat.mod_eq_of_lt (by omega),
            Nat.mul_comm b.toNat]
          show (if _ then _ else _) = if v + 2 ^ 28 * b.toNat ≤ _ then _ else _
          by_cases hmax' : v + 2 ^ 28 * b.toNat ≤ INT_MAX - kSlopBytes
          · rw [if_neg (by omega), if_pos hmax']
          · rw [if_pos (by omega), if_neg hmax']
    · intro v p hv
      have hlt : v < 2 ^ 28 := hv
      rw [if_pos (by omega), Nat.mod_eq_of_lt (by omega)]

/-- What is written as a varint is read as one. -/
theorem VarintParse_write (hv : v < 2 ^ 64) (p : List UInt8) :
    VarintParse (UnsafeVarint v ++ p) = some (v, p) := by
  have hbits : v < 2 ^ (7 * 10) := by omega
  rw [VarintParse_eq, UnsafeVarint, Varint.decode_encode hbits (by omega), Option.bind_some,
    Nat.mod_eq_of_lt hv]

theorem ReadTag_write {num type : Nat} (p : List UInt8) :
    ReadTag (WriteTagToArray num type ++ p) = some (MakeTag num type, p) := by
  have htag : MakeTag num type < 2 ^ 32 := Nat.mod_lt _ (Nat.two_pow_pos 32)
  have hbits : MakeTag num type < 2 ^ (7 * 5) := by omega
  rw [ReadTag_eq, WriteTagToArray, UnsafeVarint, Varint.decode_encode hbits (by omega),
    Option.bind_some, Nat.mod_eq_of_lt htag]

theorem ReadSize_write (hv : v ≤ INT_MAX - kSlopBytes) (p : List UInt8) :
    ReadSize (UnsafeVarint v ++ p) = some (v, p) := by
  have hmax : INT_MAX - kSlopBytes = 2147483631 := rfl
  have hbits : v < 2 ^ (7 * 5) := by omega
  rw [ReadSize_eq, UnsafeVarint, Varint.decode_encode hbits (by omega), Option.bind_some, if_pos hv]

/-- A string is read as it was written, if it is not too long. -/
theorem InlineGreedyStringParser_write {s : List UInt8} (hs : s.length ≤ INT_MAX - kSlopBytes)
    (p : List UInt8) :
    InlineGreedyStringParser (UnsafeVarint (s.length % 2 ^ 32) ++ (s ++ p)) = some (s, p) := by
  have hmax : INT_MAX - kSlopBytes = 2147483631 := rfl
  rw [InlineGreedyStringParser, Nat.mod_eq_of_lt (by omega), ReadSize_write hs, Option.bind_some]
  show ReadString s.length (s ++ p) = _
  rw [ReadString, if_pos (by rw [List.length_append]; omega), List.take_left, List.drop_left]

theorem length_littleEndian (n v : Nat) : (littleEndian n v).length = n := by
  induction n generalizing v with
  | zero => rfl
  | succ n ih => exact congrArg (· + 1) (ih _)

theorem UnalignedLoad_write {n v : Nat} (hv : v < 256 ^ n) (p : List UInt8) :
    UnalignedLoad n (littleEndian n v ++ p) = some (v, p) := by
  have hlen := length_littleEndian
  have hvalue : ∀ n v, v < 256 ^ n →
      (littleEndian n v).foldr (fun b v => b.toNat + 256 * v) 0 = v := by
    intro n
    induction n with
    | zero =>
      intro v hv
      exact (Nat.lt_one_iff.mp hv).symm
    | succ n ih =>
      intro v hv
      rw [Nat.pow_succ] at hv
      rw [littleEndian, List.foldr_cons, ih _ (by omega), Varint.toNat_byte (by omega)]
      omega
  have htake : (littleEndian n v ++ p).take n = littleEndian n v := by
    rw [List.take_append_of_le_length (by rw [hlen]), List.take_of_length_le (by rw [hlen])]
  have hdrop : (littleEndian n v ++ p).drop n = p := by
    rw [List.drop_append_of_le_length (by rw [hlen]), List.drop_of_length_le (by rw [hlen]),
      List.nil_append]
  rw [UnalignedLoad, if_pos (by rw [List.length_append, hlen]; omega), htake, hdrop, hvalue n v hv]

/-! ## What reading leaves -/

theorem VarintParse_shorter {q : List UInt8} (h : VarintParse p = some (v, q)) :
    q.length < p.length := by
  rw [VarintParse_eq] at h
  obtain ⟨r, hr, heq⟩ := Option.bind_eq_some_iff.mp h
  cases heq
  exact Varint.decode_shorter hr

theorem ReadTag_shorter {q : List UInt8} (h : ReadTag p = some (v, q)) : q.length < p.length := by
  rw [ReadTag_eq] at h
  obtain ⟨r, hr, heq⟩ := Option.bind_eq_some_iff.mp h
  cases heq
  exact Varint.decode_shorter hr

theorem InlineGreedyStringParser_shorter {s q : List UInt8}
    (h : InlineGreedyStringParser p = some (s, q)) : q.length < p.length := by
  obtain ⟨⟨size, p'⟩, hsize, hs⟩ := Option.bind_eq_some_iff.mp h
  rw [ReadSize_eq] at hsize
  obtain ⟨r, hr, heq⟩ := Option.bind_eq_some_iff.mp hsize
  split at heq
  · cases heq
    have hlt := Varint.decode_shorter hr
    obtain ⟨-, hread⟩ := Option.ite_none_right_eq_some.mp hs
    cases hread
    rw [List.length_drop]
    omega
  · cases heq

theorem UnalignedLoad_shorter {n : Nat} {q : List UInt8} (h : UnalignedLoad n p = some (v, q)) :
    q.length ≤ p.length := by
  obtain ⟨-, heq⟩ := Option.ite_none_right_eq_some.mp h
  cases heq
  rw [List.length_drop]
  omega

end Numbers

end LibuvServer.Protobuf
