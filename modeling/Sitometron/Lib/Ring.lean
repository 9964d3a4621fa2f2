import Mathlib.Data.List.Range
import Mathlib.Logic.Function.Basic
import Mathlib.Tactic.Basic

/-!
# Ring buffers

A fixed number of cells, the position of the oldest element and the number of elements. What a ring holds is a list.
-/

namespace Sitometron

structure Ring (α : Type) (n : Nat) where
  cells : Fin n → α
  head : Fin n
  count : Nat
  bounded : count ≤ n

namespace Ring

variable {α : Type} {n : Nat}

def place (r : Ring α n) (offset : Nat) : Fin n := ⟨(r.head + offset) % n, Nat.mod_lt _ r.head.pos⟩

def toList (r : Ring α n) : List α := (List.range r.count).map fun i => r.cells (r.place i)

def isFull (r : Ring α n) : Bool := r.count = n

def empty [Inhabited α] (positive : 0 < n) : Ring α n where
  cells := fun _ => default
  head := ⟨0, positive⟩
  count := 0
  bounded := Nat.zero_le _

def push (r : Ring α n) (x : α) : Ring α n :=
  if room : r.count < n then
    { r with
      cells := Function.update r.cells (r.place r.count) x
      count := r.count + 1
      bounded := room }
  else r

def pop [Inhabited α] (r : Ring α n) : Ring α n where
  cells := Function.update r.cells r.head default
  head := r.place 1
  count := r.count - 1
  bounded := Nat.le_trans (Nat.sub_le _ _) r.bounded

def front? (r : Ring α n) : Option α := if r.count = 0 then none else some (r.cells r.head)

@[simp] theorem length_toList (r : Ring α n) : r.toList.length = r.count := by simp [toList]

@[simp] theorem toList_empty [Inhabited α] (positive : 0 < n) : (empty positive : Ring α n).toList = [] := rfl

theorem place_zero (r : Ring α n) : r.place 0 = r.head := Fin.ext (Nat.mod_eq_of_lt r.head.isLt)

theorem place_ne {r : Ring α n} {i j : Nat} (less : i < j) (within : j < n) : r.place i ≠ r.place j := by
  intro same
  have equal : (r.head + j) % n = (r.head + i) % n := congrArg Fin.val same.symm
  have none := Nat.sub_mod_eq_zero_of_mod_eq equal
  rw [Nat.add_sub_add_left, Nat.mod_eq_of_lt (by omega)] at none
  omega

theorem place_pop [Inhabited α] (r : Ring α n) (i : Nat) : r.pop.place i = r.place (i + 1) := by
  apply Fin.ext
  show ((r.head + 1) % n + i) % n = (r.head + (i + 1)) % n
  rw [Nat.mod_add_mod, Nat.add_assoc, Nat.add_comm 1]

theorem toList_push {r : Ring α n} {x : α} (room : r.count < n) : (r.push x).toList = r.toList ++ [x] := by
  rw [push, dif_pos room]
  simp only [toList, List.range_succ, List.map_append, List.map_singleton]
  congr 1
  · apply List.map_congr_left
    intro i member
    exact Function.update_of_ne (place_ne (List.mem_range.1 member) room) _ _
  · exact congrArg (fun y => [y]) (Function.update_self _ _ _)

theorem toList_pop [Inhabited α] (r : Ring α n) : r.pop.toList = r.toList.tail := by
  show (List.range (r.count - 1)).map (fun i => r.pop.cells (r.pop.place i)) = _
  rw [toList]
  cases size : r.count with
  | zero => rfl
  | succ k =>
      have within := r.bounded
      rw [List.range_succ_eq_map, List.map_cons, List.tail_cons, List.map_map, Nat.add_sub_cancel]
      apply List.map_congr_left
      intro i member
      have inside := List.mem_range.1 member
      have other : r.place (i + 1) ≠ r.head := by
        rw [← r.place_zero]
        exact (place_ne (Nat.succ_pos i) (by omega)).symm
      rw [place_pop]
      exact Function.update_of_ne other _ _

theorem front?_eq (r : Ring α n) : r.front? = r.toList.head? := by
  rw [front?, toList]
  cases empty : r.count with
  | zero => rfl
  | succ k => simp [List.range_succ_eq_map, place_zero]

theorem isFull_iff {r : Ring α n} : r.isFull = true ↔ r.toList.length = n := by simp [isFull]

end Ring

end Sitometron
