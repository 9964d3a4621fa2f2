import Mathlib.Tactic.Ring

/-!
# Numbers read digit by digit into a word

The reading stops growing at the first digit that does not fit in 64 bits, and says so.
-/

namespace Sitometron.Radix

structure Reading where
  value : UInt64 := 0
  overflow : Bool := false
deriving DecidableEq, Repr

def push (base : UInt64) (r : Reading) (digit : UInt64) : Reading :=
  if r.overflow then r
  else if r.value > (0xFFFFFFFFFFFFFFFF - digit) / base then { r with overflow := true }
  else { r with value := r.value * base + digit }

structure Reads (r : Reading) (n : Nat) : Prop where
  overflow : r.overflow = true ↔ 2 ^ 64 ≤ n
  value : n < 2 ^ 64 → r.value.toNat = n

theorem Reads.zero : Reads {} 0 := ⟨by decide, fun _ => rfl⟩

variable {base digit : UInt64} {r : Reading} {n : Nat}

theorem toNat_room (digit base : UInt64) :
    ((0xFFFFFFFFFFFFFFFF - digit) / base).toNat = (2 ^ 64 - 1 - digit.toNat) / base.toNat := by
  have bound := digit.toNat_lt
  have top : (0xFFFFFFFFFFFFFFFF : UInt64).toNat = 2 ^ 64 - 1 := rfl
  have fits : digit ≤ 0xFFFFFFFFFFFFFFFF := by
    rw [UInt64.le_iff_toNat_le, top]
    omega
  rw [UInt64.toNat_div, UInt64.toNat_sub_of_le _ _ fits, top]

theorem Reads.push (reads : Reads r n) (below : digit.toNat < base.toNat) :
    Reads (push base r digit) (base.toNat * n + digit.toNat) := by
  have positive : 0 < base.toNat := Nat.zero_lt_of_lt below
  have bound := digit.toNat_lt
  unfold Radix.push
  split
  next exceeded =>
    have large := reads.overflow.1 exceeded
    have grown : n ≤ base.toNat * n := Nat.le_mul_of_pos_left n positive
    exact ⟨⟨fun _ => by omega, fun _ => exceeded⟩, fun small => by omega⟩
  next fits =>
    have small : n < 2 ^ 64 := Nat.not_le.1 fun large => fits (reads.overflow.2 large)
    have value := reads.value small
    split
    next large =>
      rw [gt_iff_lt, UInt64.lt_iff_toNat_lt, toNat_room, value, Nat.div_lt_iff_lt_mul positive, Nat.mul_comm] at large
      exact ⟨⟨fun _ => by omega, fun _ => rfl⟩, fun few => by omega⟩
    next room =>
      rw [gt_iff_lt, UInt64.lt_iff_toNat_lt, toNat_room, value, Nat.div_lt_iff_lt_mul positive, Nat.mul_comm] at room
      have sum : (r.value * base + digit).toNat = base.toNat * n + digit.toNat := by
        rw [UInt64.toNat_add, UInt64.toNat_mul, value, Nat.mul_comm n, Nat.mod_add_mod, Nat.mod_eq_of_lt (by omega)]
      exact ⟨⟨fun exceeded => absurd exceeded fits, fun large => by omega⟩, fun _ => sum⟩

theorem Reads.foldl {α : Type} {digitOf : α → UInt64} {digits : List α} (reads : Reads r n)
    (below : ∀ c ∈ digits, (digitOf c).toNat < base.toNat) :
    Reads (digits.foldl (fun r c => Radix.push base r (digitOf c)) r)
      (digits.foldl (fun v c => base.toNat * v + (digitOf c).toNat) n) := by
  induction digits generalizing r n with
  | nil => exact reads
  | cons c digits ih =>
      rw [List.foldl_cons, List.foldl_cons]
      exact ih (reads.push (below c List.mem_cons_self)) fun d member => below d (List.mem_cons_of_mem c member)

end Sitometron.Radix
