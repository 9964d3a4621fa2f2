import Mathlib.Algebra.Ring.Nat
import Mathlib.Tactic.Ring

/-!
# Products and quotients wider than a word

A division is carried through a doubling, through a common factor and through a product split at the quotient. Words of 64
bits are taken apart into halves and put together again.
-/

namespace Sitometron

structure DivMod (n d q r : Nat) : Prop where
  eq : n = d * q + r
  lt : r < d

namespace DivMod

variable {n d q r f p s b g : Nat}

theorem of_pos (positive : 0 < d) (n : Nat) : DivMod n d (n / d) (n % d) :=
  ⟨(Nat.div_add_mod n d).symm, Nat.mod_lt n positive⟩

theorem div_mod (divides : DivMod n d q r) : n / d = q ∧ n % d = r := by
  apply (Nat.div_mod_unique (Nat.zero_lt_of_lt divides.lt)).2
  exact ⟨by rw [divides.eq, Nat.add_comm], divides.lt⟩

theorem take (divides : DivMod n d q r) (small : b < 2) (fits : d ≤ 2 * r + b) :
    DivMod (2 * n + b) d (2 * q + 1) (2 * r + b - d) := by
  have bound := divides.lt
  constructor
  · have expanded : d * (2 * q + 1) = 2 * (d * q) + d := by ring
    rw [divides.eq, expanded]
    omega
  · omega

theorem skip (divides : DivMod n d q r) (short : 2 * r + b < d) : DivMod (2 * n + b) d (2 * q) (2 * r + b) := by
  constructor
  · have expanded : d * (2 * q) = 2 * (d * q) := by ring
    rw [divides.eq, expanded]
    omega
  · exact short

theorem mul (whole : DivMod n d q r) (part : DivMod (r * f) d p s) : DivMod (n * f) d (q * f + p) s := by
  constructor
  · calc n * f = d * (q * f) + r * f := by rw [whole.eq]; ring
      _ = d * (q * f) + (d * p + s) := by rw [part.eq]
      _ = d * (q * f + p) + s := by ring
  · exact part.lt

theorem mul_left (divides : DivMod n d q r) (positive : 0 < g) : DivMod (g * n) (g * d) q (g * r) := by
  constructor
  · rw [divides.eq]
    ring
  · exact Nat.mul_lt_mul_of_pos_left divides.lt positive

theorem quotient_lt (part : DivMod (r * f) d p s) (below : r < d) (positive : 0 < f) : p < f := by
  by_contra large
  have enough : d * f ≤ d * p := Nat.mul_le_mul_left d (Nat.not_lt.1 large)
  have less : r * f < d * f := Nat.mul_lt_mul_of_pos_right below positive
  have whole := part.eq
  omega

end DivMod

namespace Word

theorem toNat_low (x : UInt64) : (x &&& 0xFFFFFFFF).toNat = x.toNat % 2 ^ 32 := by
  rw [UInt64.toNat_and]
  exact Nat.and_two_pow_sub_one_eq_mod _ 32

theorem toNat_high (x : UInt64) : (x >>> 32).toNat = x.toNat / 2 ^ 32 := by
  rw [UInt64.toNat_shiftRight, Nat.shiftRight_eq_div_pow]
  rfl

theorem high_lt (x : UInt64) : x.toNat / 2 ^ 32 < 2 ^ 32 := by
  have bound := x.toNat_lt
  omega

theorem toNat_add_of_lt {x y : UInt64} (fits : x.toNat + y.toNat < 2 ^ 64) : (x + y).toNat = x.toNat + y.toNat := by
  rw [UInt64.toNat_add, Nat.mod_eq_of_lt fits]

theorem toNat_mul_of_lt {x y : UInt64} (fits : x.toNat * y.toNat < 2 ^ 64) : (x * y).toNat = x.toNat * y.toNat := by
  rw [UInt64.toNat_mul, Nat.mod_eq_of_lt fits]

theorem toNat_join (x y : UInt64) : ((x <<< 32) ||| (y &&& 0xFFFFFFFF)).toNat = x.toNat % 2 ^ 32 * 2 ^ 32 + y.toNat % 2 ^ 32 := by
  rw [UInt64.toNat_or, toNat_low, UInt64.toNat_shiftLeft]
  have shifted : x.toNat <<< ((32 : UInt64).toNat % 64) % 2 ^ 64 = (x.toNat % 2 ^ 32) <<< 32 := by
    rw [show (32 : UInt64).toNat % 64 = 32 from rfl, Nat.shiftLeft_eq, Nat.shiftLeft_eq]
    omega
  rw [shifted, ← Nat.shiftLeft_add_eq_or_of_lt (Nat.mod_lt _ (by decide)), Nat.shiftLeft_eq]

theorem halves_mul_le {a b : Nat} (left : a < 2 ^ 32) (right : b < 2 ^ 32) : a * b ≤ (2 ^ 32 - 1) * (2 ^ 32 - 1) :=
  Nat.mul_le_mul (by omega) (by omega)

end Word

end Sitometron
