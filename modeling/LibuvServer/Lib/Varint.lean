import Mathlib.Tactic.Common
import Mathlib.Tactic.IntervalCases
import Mathlib.Tactic.Ring

/-!
# Numbers in groups of seven bits

A number is written low bits first, seven to a byte; the high bit of a byte
says that more follow. `decode k` reads at most `k` bytes and gives the number
they stand for, whether or not it was written in as few as it could be.
-/

namespace LibuvServer.Lib.Varint

/-! ## Writing and reading -/

def encode (n : Nat) : List UInt8 :=
  if n < 128 then [UInt8.ofNat n] else UInt8.ofNat (n % 128 + 128) :: encode (n / 128)
termination_by n
decreasing_by omega

def decode : Nat → List UInt8 → Option (Nat × List UInt8)
  | 0, _ => none
  | _ + 1, [] => none
  | k + 1, b :: p =>
    if b.toNat < 128 then some (b.toNat, p)
    else (decode k p).map fun r => (b.toNat - 128 + 128 * r.1, r.2)

theorem encode_small {n : Nat} (h : n < 128) : encode n = [UInt8.ofNat n] := by
  rw [encode, if_pos h]

theorem encode_large {n : Nat} (h : ¬ n < 128) :
    encode n = UInt8.ofNat (n % 128 + 128) :: encode (n / 128) := by
  rw [encode, if_neg h]

theorem toNat_byte {n : Nat} (h : n < 256) : (UInt8.ofNat n).toNat = n := by
  rw [UInt8.toNat_ofNat']
  exact Nat.mod_eq_of_lt h

theorem encode_ne_nil (n : Nat) : encode n ≠ [] := by
  rw [encode]
  split <;> exact List.cons_ne_nil _ _

/-- **What is written is read back**, whatever follows it. -/
theorem decode_encode {k n : Nat} (h : n < 2 ^ (7 * k)) (hk : 0 < k) (rest : List UInt8) :
    decode k (encode n ++ rest) = some (n, rest) := by
  induction k generalizing n with
  | zero => exact absurd hk (Nat.lt_irrefl 0)
  | succ k ih =>
    by_cases hn : n < 128
    · rw [encode_small hn, List.singleton_append, decode, toNat_byte (by omega), if_pos hn]
    · have hpow : 2 ^ (7 * (k + 1)) = 128 * 2 ^ (7 * k) := by
        rw [Nat.mul_add, Nat.pow_add, Nat.mul_comm]
      have hk : 0 < k := by
        refine Nat.pos_of_ne_zero fun hzero => hn ?_
        rw [hzero] at h
        exact h
      rw [encode_large hn, List.cons_append, decode, toNat_byte (by omega), if_neg (by omega),
        ih (by omega) hk, Option.map_some]
      simp only [Option.some.injEq, Prod.mk.injEq, and_true]
      omega

/-- Reading takes bytes off the front. -/
theorem decode_shorter {k n : Nat} {p rest : List UInt8} (h : decode k p = some (n, rest)) :
    rest.length < p.length := by
  induction k generalizing n p with
  | zero => cases h
  | succ k ih =>
    cases p with
    | nil => cases h
    | cons b p =>
      rw [decode] at h
      split at h
      · cases h
        exact Nat.lt_succ_self _
      · obtain ⟨⟨m, rest'⟩, hrest, heq⟩ := Option.map_eq_some_iff.mp h
        cases heq
        exact Nat.lt_succ_of_lt (ih hrest)

/-- What follows a number makes no difference to it. -/
theorem decode_append {k n : Nat} {p rest : List UInt8} (h : decode k p = some (n, rest))
    (more : List UInt8) : decode k (p ++ more) = some (n, rest ++ more) := by
  induction k generalizing n p with
  | zero => cases h
  | succ k ih =>
    cases p with
    | nil => cases h
    | cons b p =>
      rw [decode] at h
      rw [List.cons_append, decode]
      split at h
      · rename_i hb
        cases h
        rw [if_pos hb]
      · rename_i hb
        obtain ⟨⟨m, rest'⟩, hrest, heq⟩ := Option.map_eq_some_iff.mp h
        cases heq
        rw [if_neg hb, ih hrest]
        rfl

/-! ## Sizes -/

/-- One byte for every seven bits. -/
theorem length_encode (n : Nat) : (encode n).length = n.log2 / 7 + 1 := by
  induction n using Nat.strongRecOn with
  | ind n ih =>
    by_cases hn : n < 128
    · have hlog : n.log2 < 7 := by
        by_cases hzero : n = 0
        · rw [hzero]
          decide
        · exact (Nat.log2_lt hzero).mpr hn
      rw [encode_small hn, Nat.div_eq_of_lt hlog]
      rfl
    · have hge : 7 ≤ n.log2 := (Nat.le_log2 (by omega)).mpr (by omega)
      have hlog : (n / 128).log2 = n.log2 - 7 := by
        obtain ⟨hlow, hhigh⟩ := (Nat.log2_eq_iff (n := n) (by omega)).mp rfl
        have hsplit : n.log2 = n.log2 - 7 + 7 := by omega
        rw [hsplit, Nat.pow_add] at hlow
        rw [hsplit, Nat.pow_succ, Nat.pow_add] at hhigh
        rw [Nat.log2_eq_iff (by omega), Nat.pow_succ]
        omega
      rw [encode_large hn, List.length_cons, ih _ (by omega), hlog]
      omega

/-- The number of bytes as one multiplication, for as many bits as there are. -/
theorem length_encode_eq {n : Nat} (h : n < 2 ^ 64) :
    (encode n).length = ((n ||| 1).log2 * 9 + 73) / 64 := by
  have hor : (n ||| 1).log2 = n.log2 := by
    by_cases hn : n < 2
    · interval_cases n <;> decide
    · have hhalf : (n ||| 1) / 2 = n / 2 := by
        rw [← Nat.shiftRight_one, ← Nat.shiftRight_one, Nat.shiftRight_or_distrib]
        exact Nat.or_zero _
      have hge : n ≤ n ||| 1 := Nat.left_le_or
      rw [Nat.log2_def n, Nat.log2_def (n ||| 1), hhalf, if_pos (by omega), if_pos (by omega)]
  have hbits : n.log2 < 64 := by
    by_cases hzero : n = 0
    · rw [hzero]
      decide
    · exact (Nat.log2_lt hzero).mpr h
  have hgroups : ∀ bits, bits < 64 → bits / 7 + 1 = (bits * 9 + 73) / 64 := by decide
  rw [length_encode, hor, hgroups _ hbits]

/-! ## Modular reading -/

/-- Adding a byte with its predecessor's high bit still in the sum takes that
bit out again. -/
theorem carry {m : Nat} (hm : 0 < m) (v b e : Nat) :
    ((v + e) % m + (b + (m - 1)) * e) % m = (v + b * e) % m := by
  have hsum : v + e + (b + (m - 1)) * e = v + b * e + m * e := by
    obtain ⟨m, rfl⟩ := Nat.exists_eq_succ_of_ne_zero (Nat.pos_iff_ne_zero.mp hm)
    rw [Nat.succ_eq_add_one, Nat.add_sub_cancel]
    ring
  rw [Nat.mod_add_mod, hsum, Nat.add_mul_mod_self_left]

end LibuvServer.Lib.Varint
