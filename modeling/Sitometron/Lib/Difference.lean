import Mathlib.Algebra.BigOperators.Group.List.Basic
import Mathlib.Algebra.Ring.Int.Defs
import Mathlib.Data.List.GetD
import Mathlib.Tactic.Abel

/-!
# Counting intervals with a difference array

An interval adds one where it begins and takes one away where it ends, so the sum up to a point counts the intervals around
that point.
-/

namespace Sitometron

variable {xs : List Int} {i a b n : Nat}

def total (xs : List Int) (n : Nat) : Int := (xs.take n).sum

@[simp] theorem total_zero (xs : List Int) : total xs 0 = 0 := by simp [total]

theorem total_succ (xs : List Int) (n : Nat) : total xs (n + 1) = total xs n + xs.getD n 0 := by
  unfold total
  by_cases inside : n < xs.length
  · rw [List.take_succ_eq_append_getElem inside, List.sum_append, List.sum_singleton, List.getD_eq_getElem _ _ inside]
  · have beyond := Nat.not_lt.1 inside
    rw [List.take_of_length_le beyond, List.take_of_length_le (Nat.le_succ_of_le beyond), List.getD_eq_default _ _ beyond,
      add_zero]

theorem total_replicate (k n : Nat) : total (List.replicate k 0) n = 0 := by
  simp [total]

theorem total_modify {d : Int} (inside : i < xs.length) (n : Nat) :
    total (xs.modify i (· + d)) n = total xs n + if i < n then d else 0 := by
  induction xs generalizing i n with
  | nil => cases inside
  | cons x xs ih =>
      cases n with
      | zero => simp
      | succ n =>
          cases i with
          | zero =>
              simp only [total, List.modify_zero_cons, List.take_succ_cons, List.sum_cons, Nat.succ_pos, if_true]
              abel
          | succ i =>
              have rest := ih (Nat.lt_of_succ_lt_succ inside) n
              simp only [total, List.modify_succ_cons, List.take_succ_cons, List.sum_cons, Nat.succ_lt_succ_iff] at rest ⊢
              rw [rest]
              abel

theorem total_interval (ordered : a < b) (inside : b < xs.length) (n : Nat) :
    total ((xs.modify a (· + 1)).modify b (· - 1)) (n + 1) = total xs (n + 1) + if a ≤ n ∧ n < b then 1 else 0 := by
  have begins := total_modify (d := 1) (ordered.trans inside) (n + 1)
  have ends := @total_modify (xs.modify a (· + 1)) b (-1) (by rwa [List.length_modify]) (n + 1)
  have taken : (fun x : Int => x - 1) = (· + -1) := rfl
  rw [taken, ends, begins]
  by_cases before : a ≤ n
  · by_cases within : n < b
    · rw [if_pos (Nat.lt_succ_of_le before), if_neg (by omega), if_pos ⟨before, within⟩]
      abel
    · rw [if_pos (Nat.lt_succ_of_le before), if_pos (by omega), if_neg (fun both => within both.2)]
      abel
  · rw [if_neg (by omega), if_neg (by omega), if_neg (fun both => before both.1)]
    abel

end Sitometron
