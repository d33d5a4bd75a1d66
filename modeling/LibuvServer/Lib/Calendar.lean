import Mathlib.Algebra.GroupWithZero.Nat
import Mathlib.Tactic.Common

/-!
# Calendar

The date of a day by its number, with the years and the months counted off one
after the other. The numbers of a date say which day it is.
-/

namespace LibuvServer.Lib.Calendar

/-! ## Counting off -/

/-- Units of the lengths `len i`, `len (i + 1)` and so on are counted off `n`:
the unit it ends in, and what is left. -/
def spend (len : Nat → Nat) : Nat → Nat → Nat → Nat × Nat
  | 0, i, n => (i, n)
  | fuel + 1, i, n => if n < len i then (i, n) else spend len fuel (i + 1) (n - len i)

/-- The length of the units from `i` up to `j`. -/
def total (len : Nat → Nat) (i j : Nat) : Nat := ((List.range' i (j - i)).map len).sum

section Total

variable {len : Nat → Nat} {i j k n fuel : Nat}

theorem total_self (len : Nat → Nat) (i : Nat) : total len i i = 0 := by
  rw [total, Nat.sub_self]
  rfl

theorem total_cons (h : i < j) : total len i j = len i + total len (i + 1) j := by
  have hsub : j - i = j - (i + 1) + 1 := by omega
  rw [total, hsub, List.range'_succ, List.map_cons, List.sum_cons, total]

theorem total_mono (len : Nat → Nat) (i : Nat) (h : j ≤ k) : total len i j ≤ total len i k := by
  have hsplit : k - i = (j - i) + (k - i - (j - i)) := by omega
  rw [total, total, hsplit, ← List.range'_append_1, List.map_append, List.sum_append]
  exact Nat.le_add_right _ _

/-- What is counted off and what is left make up the whole. -/
theorem spend_spec (hpos : ∀ i, 0 < len i) (hfuel : n ≤ fuel) :
    i ≤ (spend len fuel i n).1 ∧ (spend len fuel i n).2 < len (spend len fuel i n).1 ∧
      total len i (spend len fuel i n).1 + (spend len fuel i n).2 = n := by
  induction fuel generalizing i n with
  | zero =>
    have hn : n = 0 := by omega
    rw [spend, hn]
    exact ⟨Nat.le_refl i, hpos i, by rw [total_self, Nat.zero_add]⟩
  | succ fuel ih =>
    rw [spend]
    split
    · rename_i hlt
      exact ⟨Nat.le_refl i, hlt, by rw [total_self, Nat.zero_add]⟩
    · rename_i hge
      have hlen := hpos i
      obtain ⟨hle, hlt, hsum⟩ := ih (i := i + 1) (n := n - len i) (by omega)
      refine ⟨by omega, hlt, ?_⟩
      rw [total_cons (by omega)]
      omega

end Total

/-! ## Dates -/

def leap (year : Nat) : Bool := year % 4 = 0 ∧ (year % 100 ≠ 0 ∨ year % 400 = 0)

def yearDays (year : Nat) : Nat := if leap year then 366 else 365

def monthDays (year : Nat) : Nat → Nat
  | 2 => if leap year then 29 else 28
  | 4 | 6 | 9 | 11 => 30
  | _ => 31

theorem yearDays_pos (year : Nat) : 0 < yearDays year := by
  rw [yearDays]
  split <;> decide

theorem monthDays_bounds (year month : Nat) :
    0 < monthDays year month ∧ monthDays year month ≤ 31 := by
  unfold monthDays
  split <;> (try split) <;> decide

/-- Twelve months make a year. -/
theorem total_monthDays (year : Nat) : total (monthDays year) 1 13 = yearDays year := by
  show ((List.range' 1 12).map (monthDays year)).sum = _
  cases hleap : leap year <;> simp [List.range'_succ, monthDays, yearDays, hleap]

/-- A date of the calendar. -/
structure Date where
  year : Nat
  month : Nat
  day : Nat
  month_pos : 0 < month
  month_le : month ≤ 12
  day_pos : 0 < day
  day_le : day ≤ monthDays year month
  deriving DecidableEq

theorem Date.day_le_31 (d : Date) : d.day ≤ 31 :=
  Nat.le_trans d.day_le (monthDays_bounds d.year d.month).2

/-- A date is its three numbers. -/
theorem Date.eq_of_numbers {d e : Date} (hyear : d.year = e.year) (hmonth : d.month = e.month)
    (hday : d.day = e.day) : d = e := by
  cases d
  cases e
  cases hyear
  cases hmonth
  cases hday
  rfl

/-- The year of a day, from 1970 on, and the number of the day in it. -/
def yearOf (days : Nat) : Nat × Nat := spend yearDays days 1970 days

theorem yearOf_spec (days : Nat) :
    (yearOf days).2 < yearDays (yearOf days).1 ∧
      total yearDays 1970 (yearOf days).1 + (yearOf days).2 = days :=
  (spend_spec yearDays_pos (Nat.le_refl days)).2

/-- The month of a day in its year, and the number of the day in it. -/
def monthOf (year yday : Nat) : Nat × Nat := spend (monthDays year) yday 1 yday

theorem monthOf_spec (year yday : Nat) :
    1 ≤ (monthOf year yday).1 ∧ (monthOf year yday).2 < monthDays year (monthOf year yday).1 ∧
      total (monthDays year) 1 (monthOf year yday).1 + (monthOf year yday).2 = yday :=
  spend_spec (fun month => (monthDays_bounds year month).1) (Nat.le_refl yday)

/-- A day of the year is in one of its twelve months. -/
theorem monthOf_le {year yday : Nat} (h : yday < yearDays year) : (monthOf year yday).1 ≤ 12 := by
  obtain ⟨-, -, hsum⟩ := monthOf_spec year yday
  by_contra hlarge
  have hmono := total_mono (monthDays year) 1 (j := 13) (k := (monthOf year yday).1) (by omega)
  rw [total_monthDays] at hmono
  omega

/-- The date of a day, when day 0 is the first of January 1970. -/
def date (days : Nat) : Date where
  year := (yearOf days).1
  month := (monthOf (yearOf days).1 (yearOf days).2).1
  day := (monthOf (yearOf days).1 (yearOf days).2).2 + 1
  month_pos := (monthOf_spec _ _).1
  month_le := monthOf_le (yearOf_spec days).1
  day_pos := Nat.succ_pos _
  day_le := (monthOf_spec _ _).2.1

example : (date 19782).month = 2 ∧ (date 19782).day = 29 := by decide +kernel

end LibuvServer.Lib.Calendar
