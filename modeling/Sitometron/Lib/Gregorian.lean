import Mathlib.Algebra.BigOperators.Group.List.Basic
import Mathlib.Data.Nat.ModEq
import Mathlib.Tactic.Common

/-!
# The proleptic Gregorian calendar

Days are counted from 1 January of the year 0.
-/

namespace Sitometron.Gregorian

def isLeap (y : Nat) : Bool := (y % 4 = 0 && y % 100 ≠ 0) || y % 400 = 0

def monthLength (y m : Nat) : Nat :=
  if m = 2 then (if isLeap y then 29 else 28) else if m = 4 ∨ m = 6 ∨ m = 9 ∨ m = 11 then 30 else 31

def yearLength (y : Nat) : Nat := if isLeap y then 366 else 365

def yearStart (y : Nat) : Nat := 365 * y + (y + 3) / 4 + (y + 399) / 400 - (y + 99) / 100

def monthStart (y m : Nat) : Nat := ((List.range (m - 1)).map fun k => monthLength y (k + 1)).sum

structure IsDate (y m d : Nat) : Prop where
  month : 1 ≤ m ∧ m ≤ 12
  day : 1 ≤ d ∧ d ≤ monthLength y m

def dayNumber (y m d : Nat) : Nat := yearStart y + monthStart y m + (d - 1)

variable {y z m d : Nat}

theorem ceil_succ (y k : Nat) : (y + 1 + k) / (k + 1) = (y + k) / (k + 1) + if y % (k + 1) = 0 then 1 else 0 := by
  rw [Nat.add_right_comm, Nat.succ_div]
  congr 1
  have moved : k + 1 ∣ y + k + 1 ↔ y % (k + 1) = 0 := by
    rw [Nat.add_assoc, Nat.dvd_add_self_right, Nat.dvd_iff_mod_eq_zero]
  simp only [moved]

theorem yearStart_succ (y : Nat) : yearStart (y + 1) = yearStart y + yearLength y := by
  have fourth := ceil_succ y 3
  have century := ceil_succ y 99
  have fourCenturies := ceil_succ y 399
  have even : y % 100 = 0 → y % 4 = 0 := by omega
  have round : y % 400 = 0 → y % 100 = 0 := by omega
  have few : (y + 99) / 100 ≤ y := by omega
  unfold yearStart yearLength isLeap
  rw [fourth, century, fourCenturies]
  generalize (y + 3) / 4 = a
  generalize (y + 399) / 400 = b
  generalize (y + 99) / 100 = c at few ⊢
  by_cases common : y % 4 = 0
  · by_cases hundred : y % 100 = 0
    · by_cases all : y % 400 = 0
      · simp [common, hundred, all]
        omega
      · simp [common, hundred, all]
        omega
    · have all : y % 400 ≠ 0 := fun zero => hundred (round zero)
      simp [common, hundred, all]
      omega
  · have hundred : y % 100 ≠ 0 := fun zero => common (even zero)
    have all : y % 400 ≠ 0 := fun zero => hundred (round zero)
    simp [common, hundred, all]
    omega

theorem yearStart_mono (ordered : y ≤ z) : yearStart y ≤ yearStart z := by
  induction ordered with
  | refl => exact Nat.le_refl _
  | @step z _ ih =>
      apply Nat.le_trans ih
      rw [Nat.succ_eq_add_one, yearStart_succ]
      exact Nat.le_add_right _ _

theorem monthStart_succ (later : 1 ≤ m) : monthStart y (m + 1) = monthStart y m + monthLength y m := by
  obtain ⟨k, rfl⟩ := Nat.exists_eq_add_of_le' later
  simp [monthStart, List.range_succ]

theorem monthStart_end (y : Nat) : monthStart y 13 = yearLength y := by
  cases leap : isLeap y <;> simp [monthStart, List.range_succ, monthLength, yearLength, leap]

theorem monthStart_mono {k : Nat} (ordered : m ≤ k) : monthStart y m ≤ monthStart y k := by
  induction ordered with
  | refl => exact Nat.le_refl _
  | @step k _ ih =>
      cases k with
      | zero => exact ih
      | succ k =>
          apply Nat.le_trans ih
          rw [Nat.succ_eq_add_one, monthStart_succ (Nat.le_add_left 1 k)]
          exact Nat.le_add_right _ _

namespace IsDate

theorem within (valid : IsDate y m d) : yearStart y ≤ dayNumber y m d ∧ dayNumber y m d < yearStart (y + 1) := by
  obtain ⟨⟨first, last⟩, begins, ends⟩ := valid
  have whole : monthStart y (m + 1) ≤ monthStart y 13 := monthStart_mono (by omega)
  rw [monthStart_succ first, monthStart_end] at whole
  rw [yearStart_succ, dayNumber]
  omega

theorem year_lt (valid : IsDate y m d) (before : dayNumber y m d < yearStart z) : y < z := by
  by_contra beyond
  have starts := yearStart_mono (Nat.not_lt.1 beyond)
  exact absurd (Nat.le_trans starts valid.within.1) (Nat.not_le.2 before)

theorem le_year (valid : IsDate y m d) (after : yearStart z ≤ dayNumber y m d) : z ≤ y := by
  by_contra earlier
  have ends : yearStart (y + 1) ≤ yearStart z := yearStart_mono (Nat.not_le.1 earlier)
  exact absurd (Nat.le_trans ends after) (Nat.not_le.2 valid.within.2)

end IsDate

def nextDay (date : Nat × Nat × Nat) : Nat × Nat × Nat :=
  let (y, m, d) := date
  if d < monthLength y m then (y, m, d + 1) else if m < 12 then (y, m + 1, 1) else (y + 1, 1, 1)

theorem one_le_monthLength (y m : Nat) : 1 ≤ monthLength y m := by
  unfold monthLength
  repeat' split
  all_goals decide

theorem IsDate.nextDay (valid : IsDate y m d) :
    let next := Gregorian.nextDay (y, m, d)
    IsDate next.1 next.2.1 next.2.2 ∧ dayNumber next.1 next.2.1 next.2.2 = dayNumber y m d + 1 := by
  obtain ⟨⟨first, last⟩, begins, ends⟩ := valid
  unfold Gregorian.nextDay
  dsimp only
  split
  next inside =>
    refine ⟨⟨⟨first, last⟩, by dsimp only; omega, inside⟩, ?_⟩
    unfold dayNumber
    dsimp only
    omega
  next done =>
  split
  next early =>
    refine ⟨⟨⟨by dsimp only; omega, early⟩, Nat.le_refl 1, one_le_monthLength _ _⟩, ?_⟩
    have length := @monthStart_succ y m first
    unfold dayNumber
    dsimp only
    omega
  next late =>
    refine ⟨⟨⟨Nat.le_refl 1, Nat.le_add_left 1 11⟩, Nat.le_refl 1, one_le_monthLength _ _⟩, ?_⟩
    obtain rfl : m = 12 := by omega
    have length : monthStart y 13 = monthStart y 12 + monthLength y 12 := monthStart_succ first
    have whole := monthStart_end y
    have year := yearStart_succ y
    have start : monthStart (y + 1) 1 = 0 := rfl
    unfold dayNumber
    dsimp only
    omega

def dateOf (n : Nat) : Nat × Nat × Nat := nextDay^[n] (0, 1, 1)

theorem dateOf_isDate (n : Nat) :
    IsDate (dateOf n).1 (dateOf n).2.1 (dateOf n).2.2 ∧ dayNumber (dateOf n).1 (dateOf n).2.1 (dateOf n).2.2 = n := by
  induction n with
  | zero => exact ⟨⟨by decide, by decide⟩, rfl⟩
  | succ n ih =>
      rw [dateOf, Function.iterate_succ_apply', ← dateOf]
      obtain ⟨valid, number⟩ := ih.1.nextDay
      exact ⟨valid, number.trans (congrArg (· + 1) ih.2)⟩

end Sitometron.Gregorian
