import Mathlib.Algebra.BigOperators.Group.Finset.Piecewise
import Mathlib.Algebra.BigOperators.Fin
import Mathlib.Algebra.Order.BigOperators.Group.Finset
import Mathlib.Data.Fintype.BigOperators

/-!
# Tallies

What one change of a finite family does to a sum over it.
-/

namespace Sitometron

variable {ι α : Type} [Fintype ι] [DecidableEq ι]

theorem sum_update (weight : α → Nat) (f : ι → α) (i : ι) (x : α) :
    ∑ j, weight (Function.update f i x j) + weight (f i) = ∑ j, weight (f j) + weight x := by
  have through : (fun j => weight (Function.update f i x j)) = Function.update (fun j => weight (f j)) i (weight x) :=
    funext fun j => Function.apply_update (fun _ => weight) f i x j
  rw [through, Finset.sum_update_of_mem (Finset.mem_univ i), Finset.sdiff_singleton_eq_erase,
    ← Finset.sum_erase_add Finset.univ (fun j => weight (f j)) (Finset.mem_univ i)]
  omega

theorem exists_of_tally_ne {test : ι → Bool} (other : ∑ j, (test j).toNat ≠ Fintype.card ι) : ∃ i, test i = false := by
  by_contra none
  have all : ∀ i, test i = true := by simpa using none
  simp [all] at other

theorem sum_map_toNat {β : Type} (test : β → Bool) (l : List β) : (l.map fun x => (test x).toNat).sum = l.countP test := by
  induction l with
  | nil => rfl
  | cons x l ih =>
      rw [List.map_cons, List.sum_cons, ih, List.countP_cons]
      cases test x <;> simp [Nat.add_comm]

theorem countP_finRange_add_two {n : Nat} {test : Fin n → Bool} {i j : Fin n} (apart : i ≠ j) (first : test i = false)
    (second : test j = false) : (List.finRange n).countP test + 2 ≤ n := by
  have whole : (List.finRange n).countP test = ∑ k, (test k).toNat := by
    rw [Fin.sum_univ_def, sum_map_toNat]
  have pair : ∑ k ∈ {i, j}, (1 - (test k).toNat) = 2 := by
    rw [Finset.sum_pair apart, first, second]
    rfl
  have part : ∑ k ∈ {i, j}, (1 - (test k).toNat) ≤ ∑ k, (1 - (test k).toNat) :=
    Finset.sum_le_sum_of_subset (Finset.subset_univ _)
  have total : ∑ k, (test k).toNat + ∑ k, (1 - (test k).toNat) = n := by
    rw [← Finset.sum_add_distrib]
    have one : ∀ k, (test k).toNat + (1 - (test k).toNat) = 1 := fun k => by cases test k <;> rfl
    simp [one]
  omega

end Sitometron
