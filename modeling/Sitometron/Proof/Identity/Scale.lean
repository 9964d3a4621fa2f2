import Sitometron.Identity.SystemClock
import Sitometron.Lib.Wide

/-!
# Exact scaling

The two-limb product and the long division lose nothing, so a scaled sample is the floor of the exact quotient, and the
nanoseconds of a clock never go back.
-/

namespace Sitometron.Identity

open Word

theorem columns_exact {p q r t : UInt64} (lowLow : p.toNat ≤ (2 ^ 32 - 1) * (2 ^ 32 - 1))
    (highLow : q.toNat ≤ (2 ^ 32 - 1) * (2 ^ 32 - 1)) (lowHigh : r.toNat ≤ (2 ^ 32 - 1) * (2 ^ 32 - 1))
    (highHigh : t.toNat ≤ (2 ^ 32 - 1) * (2 ^ 32 - 1)) :
    let m := q + (p >>> 32)
    let n := (m &&& kMask) + r
    (t + (m >>> 32) + (n >>> 32)).toNat * 2 ^ 64 + ((n <<< 32) ||| (p &&& kMask)).toNat =
      p.toNat + q.toNat * 2 ^ 32 + r.toNat * 2 ^ 32 + t.toNat * 2 ^ 64 := by
  intro m n
  have middle : m.toNat = q.toNat + p.toNat / 2 ^ 32 := by
    rw [toNat_add_of_lt] <;> rw [toNat_high]
    omega
  have upperMiddle : n.toNat = m.toNat % 2 ^ 32 + r.toNat := by
    rw [toNat_add_of_lt] <;> rw [kMask, toNat_low]
    omega
  have first : (t + (m >>> 32)).toNat = t.toNat + m.toNat / 2 ^ 32 := by
    rw [toNat_add_of_lt] <;> rw [toNat_high]
    omega
  have second : (t + (m >>> 32) + (n >>> 32)).toNat = t.toNat + m.toNat / 2 ^ 32 + n.toNat / 2 ^ 32 := by
    rw [toNat_add_of_lt] <;> rw [first, toNat_high]
    omega
  rw [second, kMask, toNat_join]
  omega

theorem multiplyWide_toNat (left right : UInt64) :
    (multiplyWide left right).high.toNat * 2 ^ 64 + (multiplyWide left right).low.toNat = left.toNat * right.toNat := by
  have leftLow : left.toNat % 2 ^ 32 < 2 ^ 32 := Nat.mod_lt _ (by decide)
  have rightLow : right.toNat % 2 ^ 32 < 2 ^ 32 := Nat.mod_lt _ (by decide)
  have lowLow := halves_mul_le leftLow rightLow
  have highLow := halves_mul_le (high_lt left) rightLow
  have lowHigh := halves_mul_le leftLow (high_lt right)
  have highHigh := halves_mul_le (high_lt left) (high_lt right)
  have lower : ((left &&& kMask) * (right &&& kMask)).toNat = left.toNat % 2 ^ 32 * (right.toNat % 2 ^ 32) := by
    rw [toNat_mul_of_lt] <;> rw [kMask, toNat_low, toNat_low]
    omega
  have crossed : ((left >>> 32) * (right &&& kMask)).toNat = left.toNat / 2 ^ 32 * (right.toNat % 2 ^ 32) := by
    rw [toNat_mul_of_lt] <;> rw [kMask, toNat_low, toNat_high]
    omega
  have other : ((left &&& kMask) * (right >>> 32)).toNat = left.toNat % 2 ^ 32 * (right.toNat / 2 ^ 32) := by
    rw [toNat_mul_of_lt] <;> rw [kMask, toNat_low, toNat_high]
    omega
  have upper : ((left >>> 32) * (right >>> 32)).toNat = left.toNat / 2 ^ 32 * (right.toNat / 2 ^ 32) := by
    rw [toNat_mul_of_lt] <;> rw [toNat_high, toNat_high]
    omega
  have columns := columns_exact (lower ▸ lowLow) (crossed ▸ highLow) (other ▸ lowHigh) (upper ▸ highHigh)
  calc (multiplyWide left right).high.toNat * 2 ^ 64 + (multiplyWide left right).low.toNat
      = left.toNat % 2 ^ 32 * (right.toNat % 2 ^ 32) + left.toNat / 2 ^ 32 * (right.toNat % 2 ^ 32) * 2 ^ 32 +
          left.toNat % 2 ^ 32 * (right.toNat / 2 ^ 32) * 2 ^ 32 + left.toNat / 2 ^ 32 * (right.toNat / 2 ^ 32) * 2 ^ 64 := by
        rw [← lower, ← crossed, ← other, ← upper]
        exact columns
    _ = (left.toNat % 2 ^ 32 + 2 ^ 32 * (left.toNat / 2 ^ 32)) * (right.toNat % 2 ^ 32 + 2 ^ 32 * (right.toNat / 2 ^ 32)) := by
        ring
    _ = left.toNat * right.toNat := by rw [Nat.mod_add_div, Nat.mod_add_div]

section Division

variable {low divisor : UInt64} {d : Division} {bit k : Nat} {product : WideProduct}

theorem toNat_position (small : bit < 64) : (UInt64.ofNat bit).toNat % 64 = bit := by
  rw [UInt64.toNat_ofNat_of_lt' (Nat.lt_trans small (by decide)), Nat.mod_eq_of_lt small]

theorem shifted_toNat (low r : UInt64) (small : bit < 64) :
    ((r <<< 1) ||| ((low >>> UInt64.ofNat bit) &&& 1)).toNat = 2 * r.toNat % 2 ^ 64 + low.toNat / 2 ^ bit % 2 := by
  have taken : ((low >>> UInt64.ofNat bit) &&& 1).toNat = low.toNat / 2 ^ bit % 2 := by
    rw [UInt64.toNat_and, UInt64.toNat_shiftRight, toNat_position small, Nat.shiftRight_eq_div_pow]
    exact Nat.and_two_pow_sub_one_eq_mod _ 1
  have moved : (r <<< 1).toNat = (r.toNat % 2 ^ 63) <<< 1 := by
    rw [UInt64.toNat_shiftLeft, show (1 : UInt64).toNat % 64 = 1 from rfl, Nat.shiftLeft_eq, Nat.shiftLeft_eq]
    omega
  rw [UInt64.toNat_or, taken, moved, ← Nat.shiftLeft_add_eq_or_of_lt (Nat.mod_lt _ (by decide)), Nat.shiftLeft_eq]
  omega

theorem divideBit_cases (below : d.remainder.toNat < divisor.toNat) (small : bit < 64) :
    divisor.toNat ≤ 2 * d.remainder.toNat + low.toNat / 2 ^ bit % 2 ∧
        (divideBit low divisor d bit).remainder.toNat = 2 * d.remainder.toNat + low.toNat / 2 ^ bit % 2 - divisor.toNat ∧
        (divideBit low divisor d bit).quotient = d.quotient ||| ((1 : UInt64) <<< UInt64.ofNat bit) ∨
      2 * d.remainder.toNat + low.toNat / 2 ^ bit % 2 < divisor.toNat ∧
        (divideBit low divisor d bit).remainder.toNat = 2 * d.remainder.toNat + low.toNat / 2 ^ bit % 2 ∧
        (divideBit low divisor d bit).quotient = d.quotient := by
  have bound := divisor.toNat_lt
  have carries : d.remainder >>> 63 ≠ 0 ↔ 2 ^ 63 ≤ d.remainder.toNat := by
    rw [ne_eq, ← UInt64.toNat_inj, UInt64.toNat_shiftRight, show (63 : UInt64).toNat % 64 = 63 from rfl,
      Nat.shiftRight_eq_div_pow, UInt64.toNat_zero]
    omega
  have shifted := shifted_toNat low d.remainder small
  unfold divideBit
  dsimp only
  generalize (d.remainder <<< 1) ||| ((low >>> UInt64.ofNat bit) &&& 1) = next at shifted ⊢
  by_cases fits : divisor.toNat ≤ 2 * d.remainder.toNat + low.toNat / 2 ^ bit % 2
  · have taken : (decide (d.remainder >>> 63 ≠ 0) || decide (next ≥ divisor)) = true := by
      rw [Bool.or_eq_true, decide_eq_true_eq, decide_eq_true_eq, carries, ge_iff_le, UInt64.le_iff_toNat_le]
      omega
    rw [if_pos taken]
    refine .inl ⟨fits, ?_, rfl⟩
    rw [UInt64.toNat_sub]
    omega
  · have skipped : ¬(decide (d.remainder >>> 63 ≠ 0) || decide (next ≥ divisor)) = true := by
      rw [Bool.or_eq_true, decide_eq_true_eq, decide_eq_true_eq, carries, ge_iff_le, UInt64.le_iff_toNat_le]
      omega
    rw [if_neg skipped]
    refine .inr ⟨by omega, ?_, rfl⟩
    show next.toNat = _
    omega

def Divided (product : WideProduct) (divisor : UInt64) (k : Nat) (d : Division) : Prop :=
  ∃ q, DivMod (product.high.toNat * 2 ^ (64 - k) + product.low.toNat / 2 ^ k) divisor.toNat q d.remainder.toNat ∧
    d.quotient.toNat = q * 2 ^ k

theorem Divided.step (small : k < 64) (divided : Divided product divisor (k + 1) d) :
    Divided product divisor k (divideBit product.low divisor d k) := by
  obtain ⟨q, divides, quotient⟩ := divided
  have next : product.high.toNat * 2 ^ (64 - k) + product.low.toNat / 2 ^ k =
      2 * (product.high.toNat * 2 ^ (64 - (k + 1)) + product.low.toNat / 2 ^ (k + 1)) + product.low.toNat / 2 ^ k % 2 := by
    have power : 2 ^ (64 - k) = 2 * 2 ^ (64 - (k + 1)) := by
      rw [← Nat.pow_succ']
      congr 1
      omega
    have halves : product.low.toNat / 2 ^ (k + 1) = product.low.toNat / 2 ^ k / 2 := by
      rw [Nat.pow_succ, Nat.div_div_eq_div_mul]
    have regrouped : product.high.toNat * (2 * 2 ^ (64 - (k + 1))) = 2 * (product.high.toNat * 2 ^ (64 - (k + 1))) := by ring
    rw [power, halves, regrouped]
    omega
  unfold Divided
  rw [next]
  rcases divideBit_cases divides.lt small with ⟨fits, remainder, taken⟩ | ⟨short, remainder, skipped⟩
  · refine ⟨2 * q + 1, remainder ▸ divides.take (Nat.mod_lt _ (by decide)) fits, ?_⟩
    have one : ((1 : UInt64) <<< UInt64.ofNat k).toNat = 2 ^ k := by
      have power : 2 ^ k < 2 ^ 64 := Nat.pow_lt_pow_right (by decide) small
      rw [UInt64.toNat_shiftLeft, toNat_position small, UInt64.toNat_one, Nat.shiftLeft_eq, Nat.one_mul, Nat.mod_eq_of_lt power]
    rw [taken, UInt64.toNat_or, quotient, one, ← Nat.shiftLeft_eq,
      ← Nat.shiftLeft_add_eq_or_of_lt (Nat.pow_lt_pow_right (by decide) (Nat.lt_succ_self k)), Nat.shiftLeft_eq, Nat.pow_succ]
    ring
  · refine ⟨2 * q, remainder ▸ divides.skip short, ?_⟩
    rw [skipped, quotient, Nat.pow_succ]
    ring

theorem Divided.rest (inside : k ≤ 64) (divided : Divided product divisor k d) :
    Divided product divisor 0 ((List.range k).reverse.foldl (divideBit product.low divisor) d) := by
  induction k generalizing d with
  | zero => exact divided
  | succ k ih =>
      rw [List.range_succ, List.reverse_append, List.reverse_singleton, List.singleton_append, List.foldl_cons]
      exact ih (Nat.le_of_succ_le inside) (divided.step inside)

theorem divideBits_divMod (below : product.high.toNat < divisor.toNat) :
    DivMod (product.high.toNat * 2 ^ 64 + product.low.toNat) divisor.toNat (divideBits product divisor).quotient.toNat
      (divideBits product divisor).remainder.toNat := by
  have start : Divided product divisor 64 ⟨0, product.high⟩ := by
    refine ⟨0, ⟨?_, below⟩, rfl⟩
    rw [Nat.div_eq_of_lt product.low.toNat_lt]
    simp
  obtain ⟨q, divides, quotient⟩ := start.rest (Nat.le_refl 64)
  rw [Nat.pow_zero, Nat.mul_one] at quotient
  rw [Nat.pow_zero, Nat.div_one, Nat.sub_zero, ← quotient] at divides
  exact divides

end Division

section Products

variable {left right divisor magnitude units : UInt64} {period : TickPeriod}

theorem le_kMax_div_iff (positive : right ≠ 0) : left ≤ kMax / right ↔ left.toNat * right.toNat < 2 ^ 64 := by
  have nonzero : 0 < right.toNat := Nat.pos_of_ne_zero fun zero => positive (UInt64.toNat_inj.1 zero)
  rw [UInt64.le_iff_toNat_le, UInt64.toNat_div, Nat.le_div_iff_mul_le nonzero]
  show left.toNat * right.toNat ≤ 2 ^ 64 - 1 ↔ _
  omega

theorem multiplyDivide_spec (left right : UInt64) (positive : 0 < divisor.toNat) :
    (∃ d, multiplyDivide left right divisor = .ok d ∧
        DivMod (left.toNat * right.toNat) divisor.toNat d.quotient.toNat d.remainder.toNat) ∨
      (∃ e, multiplyDivide left right divisor = .error e) ∧ 2 ^ 64 ≤ left.toNat * right.toNat / divisor.toNat := by
  unfold multiplyDivide
  split
  next none =>
    refine .inl ⟨_, rfl, ?_, positive⟩
    simp only [Bool.or_eq_true, decide_eq_true_eq] at none
    rcases none with rfl | rfl <;> simp
  next both =>
  simp only [Bool.or_eq_true, decide_eq_true_eq, not_or] at both
  split
  next small =>
    have fits := (le_kMax_div_iff both.1).1 small
    refine .inl ⟨_, rfl, ?_⟩
    rw [UInt64.toNat_div, UInt64.toNat_mod, toNat_mul_of_lt fits]
    exact .of_pos positive _
  next large =>
  have same := multiplyWide_toNat left right
  dsimp only
  split
  next wide =>
    refine .inr ⟨⟨_, rfl⟩, ?_⟩
    rw [ge_iff_le, UInt64.le_iff_toNat_le] at wide
    rw [Nat.le_div_iff_mul_le positive, ← same]
    calc 2 ^ 64 * divisor.toNat = divisor.toNat * 2 ^ 64 := Nat.mul_comm _ _
      _ ≤ (multiplyWide left right).high.toNat * 2 ^ 64 := Nat.mul_le_mul_right (2 ^ 64) wide
      _ ≤ _ := Nat.le_add_right _ _
  next inside =>
    rw [ge_iff_le, UInt64.le_iff_toNat_le, Nat.not_le] at inside
    exact .inl ⟨_, rfl, same ▸ divideBits_divMod inside⟩

theorem checkedMultiply_spec (left right : UInt64) :
    checkedMultiply left right = .ok (left * right) ∧ left.toNat * right.toNat < 2 ^ 64 ∨
      (∃ e, checkedMultiply left right = .error e) ∧ 2 ^ 64 ≤ left.toNat * right.toNat := by
  unfold checkedMultiply
  by_cases zero : right = 0
  · subst zero
    exact .inl ⟨by simp, by simp⟩
  · by_cases small : left ≤ kMax / right
    · refine .inl ⟨?_, (le_kMax_div_iff zero).1 small⟩
      rw [if_neg]
      simp [zero, UInt64.not_lt.2 small]
    · refine .inr ⟨⟨_, if_pos ?_⟩, Nat.not_lt.1 fun fits => small ((le_kMax_div_iff zero).2 fits)⟩
      simp [zero, UInt64.not_le.1 small]

theorem checkedAdd_spec (left right : UInt64) :
    checkedAdd left right = .ok (left + right) ∧ left.toNat + right.toNat < 2 ^ 64 ∨
      (∃ e, checkedAdd left right = .error e) ∧ 2 ^ 64 ≤ left.toNat + right.toNat := by
  have room : (kMax - left).toNat = 2 ^ 64 - 1 - left.toNat := by
    have bound := left.toNat_lt
    rw [UInt64.toNat_sub_of_le]
    · rfl
    · rw [UInt64.le_iff_toNat_le]
      show left.toNat ≤ 2 ^ 64 - 1
      omega
  have bound := left.toNat_lt
  unfold checkedAdd
  split
  next large =>
    rw [gt_iff_lt, UInt64.lt_iff_toNat_lt, room] at large
    exact .inr ⟨⟨_, rfl⟩, by omega⟩
  next small =>
    rw [gt_iff_lt, UInt64.lt_iff_toNat_lt, room] at small
    exact .inl ⟨rfl, by omega⟩

theorem gcd_toNat (a b : UInt64) : (gcd a b).toNat = Nat.gcd a.toNat b.toNat := by
  rw [gcd, UInt64.toNat_ofNat_of_lt']
  rcases Nat.eq_zero_or_pos a.toNat with zero | positive
  · rw [zero, Nat.gcd_zero_left]
    exact b.toNat_lt
  · exact (Nat.gcd_le_left _ positive).trans_lt a.toNat_lt

theorem gcd_reduces (a : UInt64) {b : UInt64} (positive : 0 < b.toNat) :
    0 < (gcd a b).toNat ∧ a.toNat = (gcd a b).toNat * (a / gcd a b).toNat ∧
      b.toNat = (gcd a b).toNat * (b / gcd a b).toNat ∧ 0 < (b / gcd a b).toNat := by
  rw [UInt64.toNat_div, UInt64.toNat_div, gcd_toNat]
  have common := Nat.gcd_pos_of_pos_right a.toNat positive
  refine ⟨common, ?_, ?_, ?_⟩
  · exact (Nat.mul_div_cancel' (Nat.gcd_dvd_left _ _)).symm
  · exact (Nat.mul_div_cancel' (Nat.gcd_dvd_right _ _)).symm
  · exact Nat.div_pos (Nat.gcd_le_right _ positive) common

theorem bind_ok {α β : Type} (a : α) (f : α → Except Exception β) : (Except.ok a >>= f) = f a := rfl

theorem bind_error {α β : Type} (e : Exception) (f : α → Except Exception β) : (Except.error e >>= f) = .error e := rfl

def scaleReduced (magnitude numerator factor divisor : UInt64) : Except Exception Scaled := do
  let integral ← multiplyDivide magnitude numerator divisor
  let fractional ← multiplyDivide integral.remainder factor divisor
  let product ← checkedMultiply integral.quotient factor
  let whole ← checkedAdd product fractional.quotient
  return ⟨whole, fractional.remainder ≠ 0⟩

theorem scale_eq (m : UInt64) (numerated : 0 < period.numerator.toNat) (denominated : 0 < period.denominator.toNat) :
    scale m period units =
      let unitGcd := gcd units period.denominator
      let periodGcd := gcd period.numerator (period.denominator / unitGcd)
      scaleReduced m (period.numerator / periodGcd) (units / unitGcd) (period.denominator / unitGcd / periodGcd) := by
  have valid : validatePeriod period = .ok () := by
    rw [validatePeriod, if_neg]
    simp only [Bool.or_eq_true, decide_eq_true_eq, not_or]
    exact ⟨fun zero => by simp [zero] at numerated, fun zero => by simp [zero] at denominated⟩
  rw [scale, valid]
  rfl

theorem scaleReduced_spec (m numerator : UInt64) {factor divisor : UInt64} (factored : 0 < factor.toNat)
    (divided : 0 < divisor.toNat) :
    (∃ s r, scaleReduced m numerator factor divisor = .ok s ∧
        DivMod (m.toNat * numerator.toNat * factor.toNat) divisor.toNat s.whole.toNat r ∧ s.fractional = decide (r ≠ 0)) ∨
      (∃ e, scaleReduced m numerator factor divisor = .error e) ∧
        2 ^ 64 ≤ m.toNat * numerator.toNat * factor.toNat / divisor.toNat := by
  unfold scaleReduced
  rcases multiplyDivide_spec m numerator divided with ⟨integral, ran, whole⟩ | ⟨⟨e, failed⟩, large⟩
  · rw [ran, bind_ok]
    rcases multiplyDivide_spec integral.remainder factor divided with ⟨fractional, ran, part⟩ | ⟨-, large⟩
    · rw [ran, bind_ok]
      have product := whole.mul part
      have quotient := product.div_mod.1
      rcases checkedMultiply_spec integral.quotient factor with ⟨ran, fits⟩ | ⟨⟨e, failed⟩, large⟩
      · rw [ran, bind_ok]
        rcases checkedAdd_spec (integral.quotient * factor) fractional.quotient with ⟨ran, sum⟩ | ⟨⟨e, failed⟩, large⟩
        · rw [ran, bind_ok]
          refine .inl ⟨_, fractional.remainder.toNat, rfl, ?_, ?_⟩
          · show DivMod _ _ (integral.quotient * factor + fractional.quotient).toNat _
            rw [toNat_add_of_lt sum, toNat_mul_of_lt fits]
            exact product
          · simp [← UInt64.toNat_inj]
        · rw [failed, bind_error]
          refine .inr ⟨⟨e, rfl⟩, ?_⟩
          rw [quotient]
          rwa [toNat_mul_of_lt fits] at large
      · rw [failed, bind_error]
        refine .inr ⟨⟨e, rfl⟩, ?_⟩
        rw [quotient]
        exact large.trans (Nat.le_add_right _ _)
    · -- The fractional part times the factor is less than the factor.
      have part := DivMod.of_pos divided (integral.remainder.toNat * factor.toNat)
      have small := part.quotient_lt whole.lt factored
      have bound := factor.toNat_lt
      omega
  · rw [failed, bind_error]
    refine .inr ⟨⟨e, rfl⟩, large.trans (Nat.div_le_div_right ?_)⟩
    exact Nat.le_mul_of_pos_right _ factored

theorem reduced_divMod {m n d u q r g h factor numerator divisor : Nat} (common : 0 < g) (again : 0 < h)
    (units : u = g * factor) (denominator : d = g * (h * divisor)) (period : n = h * numerator)
    (divides : DivMod (m * numerator * factor) divisor q r) : DivMod (m * n * u) d q (g * h * r) := by
  have scaled := divides.mul_left (Nat.mul_pos common again)
  have product : m * n * u = g * h * (m * numerator * factor) := by
    rw [units, period]
    ring
  rw [Nat.mul_assoc g h divisor] at scaled
  rwa [product, denominator]

theorem scale_spec (m : UInt64) (numerated : 0 < period.numerator.toNat) (denominated : 0 < period.denominator.toNat)
    (positive : 0 < units.toNat) :
    (∃ s, scale m period units = .ok s ∧
        s.whole.toNat = m.toNat * period.numerator.toNat * units.toNat / period.denominator.toNat ∧
        s.fractional = decide (m.toNat * period.numerator.toNat * units.toNat % period.denominator.toNat ≠ 0)) ∨
      (∃ e, scale m period units = .error e) ∧
        2 ^ 64 ≤ m.toNat * period.numerator.toNat * units.toNat / period.denominator.toNat := by
  rw [scale_eq m numerated denominated]
  dsimp only
  obtain ⟨common, unitsReduced, denominatorReduced, divided⟩ := gcd_reduces units denominated
  obtain ⟨again, numeratorReduced, divisorReduced, reduced⟩ := gcd_reduces period.numerator divided
  rw [divisorReduced] at denominatorReduced
  have factored : 0 < (units / gcd units period.denominator).toNat := by
    apply Nat.pos_of_ne_zero
    intro zero
    rw [zero, Nat.mul_zero] at unitsReduced
    omega
  have back {q r : Nat} := @reduced_divMod m.toNat _ _ _ q r _ _ _ _ _ common again unitsReduced denominatorReduced
    numeratorReduced
  rcases scaleReduced_spec m _ factored reduced with ⟨s, r, ran, divides, fractional⟩ | ⟨failed, large⟩
  · obtain ⟨quotient, remainder⟩ := (back divides).div_mod
    refine .inl ⟨s, ran, quotient.symm, ?_⟩
    rw [fractional, remainder, decide_eq_decide, not_iff_not, Nat.mul_eq_zero, Nat.mul_eq_zero]
    omega
  · refine .inr ⟨failed, ?_⟩
    rwa [(back (.of_pos reduced _)).div_mod.1]

end Products

section Exceptions

variable {α β : Type} {p : Exception → Prop}

def Raises (p : Exception → Prop) (x : Except Exception α) : Prop := ∀ e, x = .error e → p e

theorem Raises.ok (a : α) : Raises p (.ok a) := nofun

theorem Raises.error {e : Exception} (holds : p e) : Raises p (.error e : Except Exception α) := by
  rintro e ⟨⟩
  exact holds

theorem Raises.bind {x : Except Exception α} {f : α → Except Exception β} (first : Raises p x) (next : ∀ a, Raises p (f a)) :
    Raises p (x >>= f) := by
  cases x with
  | error e => exact .error (first e rfl)
  | ok a => exact next a

theorem Raises.ite {c : Prop} [Decidable c] {x y : Except Exception α} (yes : Raises p x) (no : Raises p y) :
    Raises p (if c then x else y) := by
  split
  · exact yes
  · exact no

end Exceptions

def decreased : Exception := ⟨.outOfRange, "monotonic coordinate decreased"⟩

theorem scale_raises (m : UInt64) (period : TickPeriod) (units : UInt64) : Raises (· ≠ decreased) (scale m period units) := by
  have divide (left right divisor : UInt64) : Raises (· ≠ decreased) (multiplyDivide left right divisor) :=
    .ite (.ok _) (.ite (.ok _) (.ite (.error (by decide)) (.ok _)))
  have valid : Raises (· ≠ decreased) (validatePeriod period) := .ite (.error (by decide)) (.ok _)
  refine .bind valid fun _ => .bind (divide _ _ _) fun _ => .bind (divide _ _ _) fun _ => .bind ?_ fun _ => .bind ?_ fun _ => .ok _
  · exact .ite (.error (by decide)) (.ok _)
  · exact .ite (.error (by decide)) (.ok _)

theorem formatRecordedAt_raises (calendar : Calendar) (instant : TickInstant) :
    Raises (· ≠ decreased) (formatRecordedAt calendar instant) := by
  have digits (s : Bytes) (field : TimestampField) (value : Nat) : Raises (· ≠ decreased) (putDigits s field value) :=
    .ite (.error (by decide)) (.ite (.error (by decide)) (.ok _))
  have fields (date : Date) (time : Nat) : Raises (· ≠ decreased) (formatFields date time) :=
    .bind (digits _ _ _) fun _ => .bind (digits _ _ _) fun _ => .bind (digits _ _ _) fun _ => .bind (digits _ _ _) fun _ =>
      .bind (digits _ _ _) fun _ => .bind (digits _ _ _) fun _ => digits _ _ _
  refine .bind (scale_raises _ _ _) fun _ => .bind (.ite (.error (by decide)) (.ok _)) fun _ => ?_
  exact .ite (.error (by decide)) (fields _ _)

namespace SystemClock

abbrev Action (α : Type) := ExceptT Exception (StateM SystemClock) α

section Actions

variable {α β : Type} {c : Prop} [Decidable c] {clock : SystemClock}

theorem run_ite (x y : Action α) : (if c then x else y).run clock = if c then x.run clock else y.run clock := by
  split <;> rfl

theorem run_ofExcept_bind (x : Except Exception α) (f : α → Action β) :
    (MonadExcept.ofExcept x >>= f : Action β).run clock = match x with
      | .error e => (.error e, clock)
      | .ok a => (f a).run clock := by
  cases x <;> rfl

end Actions

variable {calendar : Calendar} {clock next : SystemClock} {sample : ClockSample} {answer : Except Exception ClockReading}

def elapsedTicks (clock : SystemClock) (ticks : Int64) : UInt64 := ticks.toUInt64 - clock.origin.ticks.toUInt64

theorem read_run (calendar : Calendar) (clock : SystemClock) (sample : ClockSample) :
    (read calendar sample).run clock =
      if sample.steady.period ≠ clock.origin.period then
        (.error ⟨.invalidArgument, "steady sample period changed within the instance"⟩, clock)
      else if sample.steady.ticks < clock.origin.ticks || sample.steady.ticks < clock.lastTicks then
        (.error ⟨.outOfRange, "steady sample moved backwards"⟩, clock)
      else match scale (clock.elapsedTicks sample.steady.ticks) sample.steady.period 1000000000 with
        | .error e => (.error e, clock)
        | .ok scaled =>
            if scaled.whole < clock.lastNs then (.error decreased, clock)
            else match formatRecordedAt calendar sample.wall with
              | .error e => (.error e, clock)
              | .ok recordedAt =>
                  (.ok ⟨recordedAt, scaled.whole⟩, { clock with lastTicks := sample.steady.ticks, lastNs := scaled.whole }) := by
  have entered : (read calendar sample).run clock =
      (if sample.steady.period ≠ clock.origin.period then throw _
      else if sample.steady.ticks < clock.origin.ticks || sample.steady.ticks < clock.lastTicks then throw _
      else MonadExcept.ofExcept (scale (clock.elapsedTicks sample.steady.ticks) sample.steady.period 1000000000) >>= fun scaled =>
        if scaled.whole < clock.lastNs then throw _
        else MonadExcept.ofExcept (formatRecordedAt calendar sample.wall) >>= fun _ => _ : Action ClockReading).run clock := rfl
  rw [entered]
  simp only [run_ite, run_ofExcept_bind]
  split
  · rfl
  split
  · rfl
  cases scale (clock.elapsedTicks sample.steady.ticks) sample.steady.period 1000000000 with
  | error e => rfl
  | ok scaled =>
      dsimp only
      split
      · rfl
      · cases formatRecordedAt calendar sample.wall <;> rfl

theorem toNat_toUInt64_cases (a : Int64) :
    0 ≤ a.toInt ∧ a.toInt = a.toUInt64.toNat ∨ a.toInt < 0 ∧ a.toInt = a.toUInt64.toNat - 2 ^ 64 := by
  have bound := a.toUInt64.toNat_lt
  have value := BitVec.toInt_eq_toNat_cond a.toBitVec
  have same : a.toBitVec.toNat = a.toUInt64.toNat := rfl
  rw [Int64.toInt_toBitVec, same] at value
  split at value <;> omega

theorem toUInt64_sub {a b : Int64} (ordered : b.toInt ≤ a.toInt) : ((a.toUInt64 - b.toUInt64).toNat : Int) = a.toInt - b.toInt := by
  have left := toNat_toUInt64_cases a
  have right := toNat_toUInt64_cases b
  have leftBound := a.toInt_lt
  have rightBound := b.le_toInt
  have rightWord := b.toUInt64.toNat_lt
  rw [UInt64.toNat_sub]
  omega

structure Kept (clock : SystemClock) : Prop where
  numerated : 0 < clock.origin.period.numerator.toNat
  denominated : 0 < clock.origin.period.denominator.toNat
  ordered : clock.origin.ticks.toInt ≤ clock.lastTicks.toInt
  scaled : clock.lastNs.toNat = (clock.elapsedTicks clock.lastTicks).toNat * clock.origin.period.numerator.toNat * 1000000000 /
    clock.origin.period.denominator.toNat

theorem construct_kept (constructed : construct sample = .ok clock) : clock.Kept := by
  unfold construct validatePeriod at constructed
  simp only [bind, Except.bind, pure, Except.pure] at constructed
  split at constructed
  next => cases constructed
  next =>
  split at constructed
  next => cases constructed
  next steady =>
    cases constructed
    split at steady
    next => cases steady
    next valid =>
      simp only [Bool.or_eq_true, decide_eq_true_eq, not_or] at valid
      refine ⟨?_, ?_, Int.le_refl _, by simp [elapsedTicks]⟩
      · exact Nat.pos_of_ne_zero fun zero => valid.1 (UInt64.toNat_inj.1 zero)
      · exact Nat.pos_of_ne_zero fun zero => valid.2 (UInt64.toNat_inj.1 zero)

theorem Kept.elapsed (kept : clock.Kept) {ticks : Int64} (started : clock.origin.ticks.toInt ≤ ticks.toInt)
    (forward : clock.lastTicks.toInt ≤ ticks.toInt) {scaled : Scaled}
    (ran : scale (clock.elapsedTicks ticks) clock.origin.period 1000000000 = .ok scaled) :
    scaled.whole.toNat = (clock.elapsedTicks ticks).toNat * clock.origin.period.numerator.toNat * 1000000000 /
      clock.origin.period.denominator.toNat ∧ clock.lastNs ≤ scaled.whole := by
  have same : scaled.whole.toNat = (clock.elapsedTicks ticks).toNat * clock.origin.period.numerator.toNat * 1000000000 /
      clock.origin.period.denominator.toNat := by
    rcases scale_spec (clock.elapsedTicks ticks) kept.numerated kept.denominated (by decide : 0 < (1000000000 : UInt64).toNat) with
      ⟨s, again, whole, -⟩ | ⟨⟨e, failed⟩, -⟩
    · rw [ran] at again
      cases again
      exact whole
    · rw [ran] at failed
      cases failed
  refine ⟨same, ?_⟩
  have before := toUInt64_sub kept.ordered
  have after := toUInt64_sub started
  have later : (clock.elapsedTicks clock.lastTicks).toNat ≤ (clock.elapsedTicks ticks).toNat := by
    unfold elapsedTicks
    omega
  rw [UInt64.le_iff_toNat_le, same, kept.scaled]
  exact Nat.div_le_div_right (Nat.mul_le_mul_right _ (Nat.mul_le_mul_right _ later))

theorem Kept.read (kept : clock.Kept) (ran : (SystemClock.read calendar sample).run clock = (answer, next)) :
    (∃ e, answer = .error e ∧ e ≠ decreased ∧ next = clock) ∨
      ∃ reading, answer = .ok reading ∧ next.Kept ∧ clock.lastNs ≤ reading.nanosecondsSinceOrigin ∧
        next.lastNs = reading.nanosecondsSinceOrigin := by
  rw [read_run] at ran
  split at ran
  next =>
    cases ran
    exact .inl ⟨_, rfl, by decide, rfl⟩
  next period =>
  rw [ne_eq, not_not] at period
  split at ran
  next =>
    cases ran
    exact .inl ⟨_, rfl, by decide, rfl⟩
  next forward =>
  simp only [Bool.or_eq_true, decide_eq_true_eq, not_or, Int64.not_lt, Int64.le_iff_toInt_le] at forward
  split at ran
  next e failed =>
    cases ran
    exact .inl ⟨e, rfl, scale_raises _ _ _ e failed, rfl⟩
  next scaled fits =>
  rw [period] at fits
  obtain ⟨whole, later⟩ := kept.elapsed forward.1 forward.2 fits
  rw [if_neg (UInt64.not_lt.2 later)] at ran
  split at ran
  next e failed =>
    cases ran
    exact .inl ⟨e, rfl, formatRecordedAt_raises _ _ e failed, rfl⟩
  next =>
    cases ran
    exact .inr ⟨_, rfl, ⟨kept.numerated, kept.denominated, forward.1, whole⟩, later, rfl⟩

def nanoseconds (answers : List (Except Exception ClockReading)) : List UInt64 :=
  answers.filterMap fun answer => answer.toOption.map (·.nanosecondsSinceOrigin)

theorem Kept.reads (kept : clock.Kept) (samples : List ClockSample) :
    (∀ ns ∈ nanoseconds (reads calendar clock samples).1, clock.lastNs ≤ ns) ∧
      (nanoseconds (reads calendar clock samples).1).Pairwise (· ≤ ·) ∧
      .error decreased ∉ (reads calendar clock samples).1 := by
  induction samples generalizing clock with
  | nil => exact ⟨nofun, .nil, nofun⟩
  | cons sample samples ih =>
      rw [SystemClock.reads]
      cases ran : (SystemClock.read calendar sample).run clock with
      | mk answer next =>
          dsimp only
          rcases kept.read ran with ⟨e, rfl, other, rfl⟩ | ⟨reading, rfl, after, later, last⟩
          · obtain ⟨bound, ordered, never⟩ := ih kept
            refine ⟨bound, ordered, fun member => ?_⟩
            rcases List.mem_cons.1 member with now | rest
            · cases now
              exact other rfl
            · exact never rest
          · obtain ⟨bound, ordered, never⟩ := ih after
            rw [last] at bound
            have all : nanoseconds (.ok reading :: (SystemClock.reads calendar next samples).1) =
                reading.nanosecondsSinceOrigin :: nanoseconds (SystemClock.reads calendar next samples).1 := rfl
            rw [all]
            refine ⟨fun ns member => ?_, .cons bound ordered, fun member => ?_⟩
            · rcases List.mem_cons.1 member with rfl | rest
              · exact later
              · exact UInt64.le_trans later (bound ns rest)
            · rcases List.mem_cons.1 member with now | rest
              · cases now
              · exact never rest

end SystemClock

open SystemClock in
/-- Scaling is exact, and a clock never goes back. -/
theorem clock_scaling_exact :
    (∀ left right, (multiplyWide left right).high.toNat * 2 ^ 64 + (multiplyWide left right).low.toNat =
        left.toNat * right.toNat) ∧
      (∀ product divisor, product.high.toNat < divisor.toNat →
        (divideBits product divisor).quotient.toNat = (product.high.toNat * 2 ^ 64 + product.low.toNat) / divisor.toNat ∧
        (divideBits product divisor).remainder.toNat = (product.high.toNat * 2 ^ 64 + product.low.toNat) % divisor.toNat) ∧
      (∀ m (period : TickPeriod) units, 0 < period.numerator.toNat → 0 < period.denominator.toNat → 0 < units.toNat →
        let value := m.toNat * period.numerator.toNat * units.toNat
        (value / period.denominator.toNat < 2 ^ 64 → scale m period units =
          .ok ⟨UInt64.ofNat (value / period.denominator.toNat), decide (value % period.denominator.toNat ≠ 0)⟩) ∧
        (2 ^ 64 ≤ value / period.denominator.toNat → ∃ e, scale m period units = .error e)) ∧
      (∀ calendar sample clock samples, construct sample = .ok clock →
        (nanoseconds (reads calendar clock samples).1).Pairwise (· ≤ ·) ∧
        .error ⟨.outOfRange, "monotonic coordinate decreased"⟩ ∉ (reads calendar clock samples).1) ∧
      ∀ calendar clock sample e next, (read calendar sample).run clock = (.error e, next) → next = clock := by
  refine ⟨multiplyWide_toNat, ?_, ?_, ?_, ?_⟩
  · intro product divisor below
    obtain ⟨quotient, remainder⟩ := (divideBits_divMod below).div_mod
    exact ⟨quotient.symm, remainder.symm⟩
  · intro m period units numerated denominated positive value
    rcases scale_spec m numerated denominated positive with ⟨s, ran, whole, fractional⟩ | ⟨failed, large⟩
    · constructor
      · intro _
        rw [ran, ← whole, UInt64.ofNat_toNat, ← fractional]
      · intro large
        have bound := s.whole.toNat_lt
        rw [whole] at bound
        exact absurd bound (Nat.not_lt.2 large)
    · exact ⟨fun small => absurd small (Nat.not_lt.2 large), fun _ => failed⟩
  · intro calendar sample clock samples constructed
    exact ((construct_kept constructed).reads samples).2
  · intro calendar clock sample e next ran
    rw [read_run] at ran
    repeat' split at ran
    all_goals cases ran
    all_goals rfl

end Sitometron.Identity
