import Mathlib.Tactic

namespace Sitometron

abbrev Bytes := List UInt8

instance : LawfulBEq Bytes := inferInstance

def byte (c : Char) : UInt8 := UInt8.ofNat c.toNat

def text (s : String) : Bytes := s.toList.map byte

def isDigit (c : UInt8) : Bool := byte '0' ≤ c && c ≤ byte '9'

def digitValue (c : UInt8) : Nat := c.toNat - 48

def ofDecimal (digits : Bytes) : Nat := digits.foldl (fun v c => 10 * v + digitValue c) 0

def decimal (n : Nat) : Bytes := (Nat.toDigits 10 n).map byte

theorem byte_of_isDigit {c : Char} (h : c.isDigit) :
    isDigit (byte c) = true ∧ digitValue (byte c) = c.toNat - 48 := by
  simp only [Char.isDigit, ge_iff_le, Bool.and_eq_true, decide_eq_true_eq, UInt32.le_iff_toNat_le] at h
  change 48 ≤ c.toNat ∧ c.toNat ≤ 57 at h
  have small : (byte c).toNat = c.toNat := by
    rw [byte, UInt8.toNat_ofNat']
    omega
  simp only [isDigit, digitValue, Bool.and_eq_true, decide_eq_true_eq, UInt8.le_iff_toNat_le, small]
  exact ⟨⟨h.1, h.2⟩, trivial⟩

theorem decimal_isDigit {n : Nat} {c : UInt8} (h : c ∈ decimal n) : isDigit c = true := by
  obtain ⟨d, member, rfl⟩ := List.mem_map.1 h
  exact (byte_of_isDigit (Nat.isDigit_of_mem_toDigits (by decide) (by decide) member)).1

theorem decimal_ne_nil (n : Nat) : decimal n ≠ [] := by
  simp [decimal, Nat.toDigits_ne_nil]

theorem ofDecimal_decimal (n : Nat) : ofDecimal (decimal n) = n := by
  have agree : ∀ (cs : List Char) (v : Nat), (∀ c ∈ cs, c.isDigit) →
      (cs.map byte).foldl (fun v c => 10 * v + digitValue c) v = Nat.ofDigitChars 10 cs v := by
    intro cs
    induction cs with
    | nil => intro v _; rfl
    | cons c cs ih =>
        intro v digits
        rw [List.map_cons, List.foldl_cons, Nat.ofDigitChars_cons,
          (byte_of_isDigit (digits c List.mem_cons_self)).2]
        exact ih _ (fun d member => digits d (List.mem_cons_of_mem _ member))
  have digits : ∀ c ∈ Nat.toDigits 10 n, c.isDigit :=
    fun c member => Nat.isDigit_of_mem_toDigits (by decide) (by decide) member
  rw [ofDecimal, decimal, agree _ _ digits, Nat.ofDigitChars_ten_toDigits]

theorem decimal_length_le {n k : Nat} (positive : 0 < k) :
    (decimal n).length ≤ k ↔ n < 10 ^ k := by
  rw [decimal, List.length_map, Nat.length_toDigits_le_iff (by decide) positive]

theorem ofDecimal_cons (c : UInt8) (cs : Bytes) :
    ofDecimal (c :: cs) = digitValue c * 10 ^ cs.length + ofDecimal cs := by
  have general : ∀ (cs : Bytes) (v : Nat), cs.foldl (fun v c => 10 * v + digitValue c) v =
      v * 10 ^ cs.length + ofDecimal cs := by
    intro cs
    induction cs with
    | nil => intro v; simp [ofDecimal]
    | cons d cs ih =>
        intro v
        rw [ofDecimal, List.foldl_cons, List.foldl_cons, ih, ih, List.length_cons, pow_succ]
        ring
  rw [ofDecimal, List.foldl_cons, general]
  simp

theorem digitValue_lt {c : UInt8} (digit : isDigit c = true) : digitValue c < 10 := by
  simp only [isDigit, Bool.and_eq_true, decide_eq_true_eq, UInt8.le_iff_toNat_le] at digit
  have : (byte '9').toNat = 57 := rfl
  rw [digitValue]
  omega

theorem digitValue_lt_iff {c d : UInt8} (digits : isDigit c = true ∧ isDigit d = true) :
    digitValue c < digitValue d ↔ c < d := by
  simp only [isDigit, Bool.and_eq_true, decide_eq_true_eq, UInt8.le_iff_toNat_le] at digits
  have : (byte '0').toNat = 48 := rfl
  rw [digitValue, digitValue, UInt8.lt_iff_toNat_lt]
  omega

theorem ofDecimal_lt {digits : Bytes} (all : ∀ c ∈ digits, isDigit c = true) :
    ofDecimal digits < 10 ^ digits.length := by
  induction digits with
  | nil => simp [ofDecimal]
  | cons c cs ih =>
      have head := digitValue_lt (all c List.mem_cons_self)
      have rest := ih fun d member => all d (List.mem_cons_of_mem _ member)
      rw [ofDecimal_cons, List.length_cons, pow_succ]
      nlinarith

theorem ofDecimal_lt_iff {xs ys : Bytes} (width : xs.length = ys.length) (left : ∀ c ∈ xs, isDigit c = true)
    (right : ∀ c ∈ ys, isDigit c = true) : ofDecimal xs < ofDecimal ys ↔ xs < ys := by
  induction xs generalizing ys with
  | nil =>
      cases ys with
      | nil => simp
      | cons => simp at width
  | cons x xs ih =>
      cases ys with
      | nil => simp at width
      | cons y ys =>
          simp only [List.length_cons, Nat.add_right_cancel_iff] at width
          have tails := ih width (fun c member => left c (List.mem_cons_of_mem _ member))
            fun c member => right c (List.mem_cons_of_mem _ member)
          have smallX := ofDecimal_lt fun c member => left c (List.mem_cons_of_mem x member)
          have smallY := ofDecimal_lt fun c member => right c (List.mem_cons_of_mem y member)
          have heads := digitValue_lt_iff ⟨left x List.mem_cons_self, right y List.mem_cons_self⟩
          have heads' := digitValue_lt_iff ⟨right y List.mem_cons_self, left x List.mem_cons_self⟩
          rw [ofDecimal_cons, ofDecimal_cons, List.cons_lt_cons_iff, ← tails, ← heads, width]
          rw [width] at smallX
          rcases Nat.lt_trichotomy x.toNat y.toNat with less | same | more
          · rw [← UInt8.lt_iff_toNat_lt] at less
            have := heads.2 less
            refine ⟨fun _ => .inl this, fun _ => ?_⟩
            nlinarith [Nat.one_le_pow ys.length 10 (by decide)]
          · obtain rfl := UInt8.toNat_inj.1 same
            simp
          · rw [← UInt8.lt_iff_toNat_lt] at more
            have := heads'.2 more
            constructor
            · intro smaller
              exfalso
              nlinarith [Nat.one_le_pow ys.length 10 (by decide)]
            · rintro (less | ⟨rfl, -⟩)
              · omega
              · exact absurd more (UInt8.lt_irrefl _)

theorem append_lt_append_left {p xs ys : Bytes} : p ++ xs < p ++ ys ↔ xs < ys := by
  induction p with
  | nil => rfl
  | cons c p ih => simp [List.cons_lt_cons_iff, ih, UInt8.lt_irrefl]

theorem append_lt_append_right {xs ys s : Bytes} (width : xs.length = ys.length) : xs ++ s < ys ++ s ↔ xs < ys := by
  induction xs generalizing ys with
  | nil =>
      cases ys with
      | nil => simpa using List.lt_irrefl s
      | cons => simp at width
  | cons x xs ih =>
      cases ys with
      | nil => simp at width
      | cons y ys =>
          simp only [List.length_cons, Nat.add_right_cancel_iff] at width
          simp only [List.cons_append, List.cons_lt_cons_iff, ih width]

def padded (width n : Nat) : Bytes := List.replicate (width - (decimal n).length) (byte '0') ++ decimal n

theorem padded_isDigit {width n : Nat} : ∀ c ∈ padded width n, isDigit c = true := by
  intro c member
  rcases List.mem_append.1 member with zero | digit
  · rw [List.eq_of_mem_replicate zero]
    rfl
  · exact decimal_isDigit digit

theorem ofDecimal_padded (width n : Nat) : ofDecimal (padded width n) = n := by
  have zeros : ∀ k, (List.replicate k (byte '0')).foldl (fun v c => 10 * v + digitValue c) 0 = 0 := by
    intro k
    induction k with
    | zero => rfl
    | succ k ih => rw [List.replicate_succ, List.foldl_cons]; exact ih
  rw [ofDecimal, padded, List.foldl_append, zeros]
  exact ofDecimal_decimal n

theorem padded_length {width n : Nat} (positive : 0 < width) (small : n < 10 ^ width) :
    (padded width n).length = width := by
  have := (decimal_length_le positive).2 small
  rw [padded, List.length_append, List.length_replicate]
  omega

theorem padded_ofDecimal {width : Nat} {digits : Bytes} (positive : 0 < width) (length : digits.length = width)
    (all : ∀ c ∈ digits, isDigit c = true) : padded width (ofDecimal digits) = digits := by
  have small : ofDecimal digits < 10 ^ width := length ▸ ofDecimal_lt all
  have same : (padded width (ofDecimal digits)).length = digits.length := (padded_length positive small).trans length.symm
  have notLess := ofDecimal_lt_iff same padded_isDigit all
  have notMore := ofDecimal_lt_iff same.symm all padded_isDigit
  rw [ofDecimal_padded] at notLess notMore
  exact List.le_antisymm (List.not_lt.1 fun less => lt_irrefl _ (notMore.2 less))
    (List.not_lt.1 fun less => lt_irrefl _ (notLess.2 less))

theorem of_each_byte {p : UInt8 → Prop} (each : ∀ n : Fin 256, p (UInt8.ofFin n)) (b : UInt8) : p b := each b.toFin

end Sitometron
