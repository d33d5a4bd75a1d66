import Mathlib.Algebra.Group.Int.Defs
import Mathlib.Algebra.Group.Nat.Defs
import Mathlib.Tactic.Common

/-!
# Integers as doubles

A double has 53 significant bits. An integer that needs more is rounded to
the nearest that does not, from the middle to the one that is even in the
last place. Integers too large for a double do not come up.
-/

namespace LibuvServer.Lib

/-- The last place a double of this size has. -/
def ulp (n : Nat) : Nat := 2 ^ (n.log2 + 1 - 53)

def roundNat (n : Nat) : Nat :=
  let q := n / ulp n
  let r := n % ulp n
  if 2 * r < ulp n ∨ 2 * r = ulp n ∧ q % 2 = 0 then q * ulp n else (q + 1) * ulp n

/-- The double nearest to an integer. -/
def toDouble (n : Int) : Int := n.sign * roundNat n.natAbs

/-- The integer is a double. -/
def IsDouble (n : Int) : Prop := ∃ m e : Nat, n.natAbs = m * 2 ^ e ∧ m < 2 ^ 53

theorem ulp_pos (n : Nat) : 0 < ulp n := Nat.two_pow_pos _

/-- Whatever is rounded ends on the last place. -/
theorem ulp_dvd_roundNat (n : Nat) : ulp n ∣ roundNat n := by
  simp only [roundNat]
  split
  · exact Nat.dvd_mul_left _ _
  · exact Nat.dvd_mul_left _ _

theorem roundNat_eq_iff {n : Nat} : roundNat n = n ↔ ulp n ∣ n := by
  constructor
  · intro h
    rw [← h]
    nth_rewrite 1 [h]
    exact ulp_dvd_roundNat n
  · intro h
    have hrest : n % ulp n = 0 := Nat.mod_eq_zero_of_dvd h
    have hpos := ulp_pos n
    simp only [roundNat, hrest]
    rw [if_pos (.inl (by omega))]
    exact Nat.div_mul_cancel h

/-- A number ends on the last place exactly when 53 bits are enough. -/
theorem ulp_dvd_iff {n : Nat} : ulp n ∣ n ↔ ∃ m e : Nat, n = m * 2 ^ e ∧ m < 2 ^ 53 := by
  constructor
  · rintro ⟨m, hm⟩
    refine ⟨m, n.log2 + 1 - 53, by rw [Nat.mul_comm]; exact hm, ?_⟩
    have hlt : n < 2 ^ (n.log2 + 1) := Nat.lt_log2_self
    by_cases hsmall : n.log2 + 1 ≤ 53
    · have hone : ulp n = 1 := by rw [ulp, Nat.sub_eq_zero_of_le hsmall]; rfl
      rw [hone, Nat.one_mul] at hm
      rw [← hm]
      exact Nat.lt_of_lt_of_le hlt (Nat.pow_le_pow_right (by decide) hsmall)
    · have hsplit : 2 ^ (n.log2 + 1) = ulp n * 2 ^ 53 := by
        rw [ulp, ← Nat.pow_add]
        congr 1
        omega
      rw [hsplit] at hlt
      nth_rewrite 1 [hm] at hlt
      exact Nat.lt_of_mul_lt_mul_left hlt
  · rintro ⟨m, e, hn, hm⟩
    by_cases hzero : n = 0
    · rw [hzero]
      exact Nat.dvd_zero _
    · have hlt : n < 2 ^ (53 + e) := by
        rw [hn, Nat.pow_add]
        exact Nat.mul_lt_mul_of_pos_right hm (Nat.two_pow_pos e)
      have hlog : n.log2 < 53 + e := (Nat.log2_lt hzero).mpr hlt
      have hle : ulp n ∣ 2 ^ e := Nat.pow_dvd_pow 2 (by omega)
      exact Nat.dvd_trans hle ⟨m, by rw [Nat.mul_comm]; exact hn⟩

/-- **Rounding keeps exactly the doubles.** -/
theorem toDouble_eq_iff {n : Int} : toDouble n = n ↔ IsDouble n := by
  have hround : toDouble n = n ↔ roundNat n.natAbs = n.natAbs := by
    have hn := Int.sign_mul_natAbs n
    constructor
    · intro h
      by_cases hzero : n = 0
      · rw [hzero]
        decide
      · rw [toDouble] at h
        nth_rewrite 3 [← hn] at h
        have hsign : n.sign ≠ 0 := fun heq => hzero (Int.sign_eq_zero_iff_zero.mp heq)
        exact Int.ofNat.inj (Int.eq_of_mul_eq_mul_left hsign h)
    · intro h
      rw [toDouble, h, hn]
  rw [hround, roundNat_eq_iff, ulp_dvd_iff, IsDouble]

instance (n : Int) : Decidable (IsDouble n) := decidable_of_iff _ toDouble_eq_iff

theorem isDouble_of_lt {n : Int} (h : n.natAbs < 2 ^ 53) : IsDouble n :=
  ⟨n.natAbs, 0, by rw [Nat.pow_zero, Nat.mul_one], h⟩

example : toDouble (2 ^ 53 + 1) = 2 ^ 53 ∧ toDouble (-2 ^ 63) = -2 ^ 63 := by decide

end LibuvServer.Lib
