import Mathlib.Algebra.Group.Int.Defs
import Mathlib.Algebra.Group.Nat.Defs
import Mathlib.Tactic.Common

/-!
# Machine integers

What is left of an integer in so many bits. Arithmetic on machine integers is
arithmetic on integers, cut down to the type after every operation.
-/

namespace LibuvServer.Lib

/-- What is left of an integer in a signed type of `w` bits. -/
def signed (w : Nat) (n : Int) : Int := n.bmod (2 ^ w)

/-- What is left of an integer in an `int`. -/
def toInt (n : Int) : Int := signed 32 n

variable {n : Int}

theorem toInt_of_range (hlow : -2 ^ 31 ≤ n) (hhigh : n < 2 ^ 31) : toInt n = n :=
  Int.bmod_eq_of_le (by omega) (by omega)

theorem toInt_range (n : Int) : -2 ^ 31 ≤ toInt n ∧ toInt n < 2 ^ 31 := by
  rw [toInt, signed, Int.bmod_def]
  omega

/-- One less, where it does not fall off the low end. -/
theorem toInt_pred (hlow : -2 ^ 31 < n) (hhigh : n ≤ 2 ^ 31) : toInt (n - 1) = n - 1 :=
  toInt_of_range (by omega) (by omega)

/-- The lowest `int` wraps to the highest. -/
theorem toInt_pred_lowest : toInt (-2 ^ 31 - 1) = 2 ^ 31 - 1 := by decide

end LibuvServer.Lib
