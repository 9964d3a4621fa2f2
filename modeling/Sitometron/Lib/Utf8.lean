import Sitometron.Lib.Bytes

namespace Sitometron.Utf8

abbrev Range := UInt8 × UInt8

abbrev tail : Range := (0x80, 0xBF)

/-- The bytes that follow a lead byte: the table of RFC 3629, without overlong
forms, surrogates and values above U+10FFFF. -/
def ranges (lead : UInt8) : Option (List Range) :=
  if lead ≤ 0x7F then some []
  else if lead < 0xC2 then none
  else if lead ≤ 0xDF then some [tail]
  else if lead = 0xE0 then some [(0xA0, 0xBF), tail]
  else if lead = 0xED then some [(0x80, 0x9F), tail]
  else if lead ≤ 0xEF then some [tail, tail]
  else if lead = 0xF0 then some [(0x90, 0xBF), tail, tail]
  else if lead ≤ 0xF3 then some [tail, tail, tail]
  else if lead = 0xF4 then some [(0x80, 0x8F), tail, tail]
  else none

def Within (range : Range) (b : UInt8) : Prop := range.1 ≤ b ∧ b ≤ range.2

inductive Scalar : Bytes → Prop
  | mk {lead : UInt8} {follow : Bytes} {rows : List Range} :
      ranges lead = some rows → List.Forall₂ Within rows follow → Scalar (lead :: follow)

inductive Counts : Nat → Bytes → Prop
  | nil : Counts 0 []
  | cons {n : Nat} {first rest : Bytes} : Scalar first → Counts n rest → Counts (n + 1) (first ++ rest)

def WellFormed (s : Bytes) : Prop := ∃ n, Counts n s

theorem ranges_shape {lead : UInt8} {rows : List Range} (row : ranges lead = some rows) :
    rows = [] ∨ ∃ range, rows = [range] ∨ rows = [range, tail] ∨ rows = [range, tail, tail] := by
  have checked : ∀ lead : UInt8,
      ((ranges lead).all fun rows => decide (rows.length ≤ 3) && rows.tail.all fun range => decide (range = tail)) = true :=
    of_each_byte (by decide +kernel)
  have at_ := checked lead
  simp only [row, Option.all_some, Bool.and_eq_true, decide_eq_true_eq, List.all_eq_true] at at_
  obtain ⟨short, tails⟩ := at_
  rcases rows with - | ⟨range, - | ⟨second, - | ⟨third, - | ⟨fourth, rest⟩⟩⟩⟩
  · exact .inl rfl
  · exact .inr ⟨range, .inl rfl⟩
  · exact .inr ⟨range, .inr (.inl (by simpa using tails))⟩
  · exact .inr ⟨range, .inr (.inr (by simpa using tails))⟩
  · simp only [List.length_cons] at short
    omega

theorem Scalar.length {s : Bytes} (scalar : Scalar s) : 1 ≤ s.length ∧ s.length ≤ 4 := by
  obtain ⟨row, all⟩ := scalar
  have := all.length_eq
  simp only [List.length_cons]
  rcases ranges_shape row with rfl | ⟨range, rfl | rfl | rfl⟩ <;> simp at this <;> omega

theorem Counts.length {n : Nat} {s : Bytes} (counts : Counts n s) : n ≤ s.length ∧ s.length ≤ 4 * n := by
  induction counts with
  | nil => simp
  | cons scalar _ ih =>
      have := scalar.length
      rw [List.length_append]
      omega

theorem Scalar.ascii {b : UInt8} (ascii : b ≤ 0x7F) : Scalar [b] :=
  .mk (if_pos ascii) .nil

theorem Counts.ascii {s : Bytes} (ascii : ∀ b ∈ s, b ≤ 0x7F) : Counts s.length s := by
  induction s with
  | nil => exact .nil
  | cons b s ih =>
      have head : Scalar [b] := .ascii (ascii b List.mem_cons_self)
      exact .cons head (ih fun c member => ascii c (List.mem_cons_of_mem _ member))

def follow : List Range → Bytes → Option Bytes
  | [], s => some s
  | _ :: _, [] => none
  | range :: rows, b :: s => if range.1 ≤ b && b ≤ range.2 then follow rows s else none

def next : Bytes → Option Bytes
  | [] => none
  | lead :: s => (ranges lead).bind fun rows => follow rows s

def countWithin : Nat → Bytes → Option Nat
  | _, [] => some 0
  | 0, _ :: _ => none
  | fuel + 1, b :: s => (next (b :: s)).bind fun rest => (countWithin fuel rest).map (· + 1)

def count (s : Bytes) : Option Nat := countWithin s.length s

theorem follow_eq_some_iff {rows : List Range} {s rest : Bytes} :
    follow rows s = some rest ↔ ∃ first, List.Forall₂ Within rows first ∧ s = first ++ rest := by
  induction rows generalizing s with
  | nil => simp [follow]
  | cons range rows ih =>
      cases s with
      | nil => simp [follow, List.forall₂_cons_left_iff]
      | cons b s =>
          simp only [follow, Bool.and_eq_true, decide_eq_true_eq, Option.ite_none_right_eq_some, ih,
            List.forall₂_cons_left_iff]
          constructor
          · rintro ⟨within, first, all, rfl⟩
            exact ⟨b :: first, ⟨b, first, within, all, rfl⟩, rfl⟩
          · rintro ⟨_, ⟨c, first, within, all, rfl⟩, split⟩
            cases split
            exact ⟨within, first, all, rfl⟩

theorem next_eq_some_iff {s rest : Bytes} :
    next s = some rest ↔ ∃ first, Scalar first ∧ s = first ++ rest := by
  constructor
  · intro read
    cases s with
    | nil => cases read
    | cons lead s =>
        obtain ⟨rows, row, read⟩ := Option.bind_eq_some_iff.1 read
        obtain ⟨first, all, rfl⟩ := follow_eq_some_iff.1 read
        exact ⟨lead :: first, .mk row all, rfl⟩
  · rintro ⟨_, ⟨row, all⟩, rfl⟩
    simp only [List.cons_append, next, row, Option.bind_some]
    exact follow_eq_some_iff.2 ⟨_, all, rfl⟩

theorem counts_nil_iff {n : Nat} : Counts n [] ↔ n = 0 := by
  constructor
  · intro counts
    simpa using counts.length.1
  · rintro rfl
    exact .nil

theorem counts_iff_next {n : Nat} {b : UInt8} {s : Bytes} :
    Counts n (b :: s) ↔ ∃ rest m, next (b :: s) = some rest ∧ Counts m rest ∧ n = m + 1 := by
  constructor
  · intro counts
    generalize shape : b :: s = t at counts
    cases counts with
    | nil => cases shape
    | cons scalar counts => exact ⟨_, _, next_eq_some_iff.2 ⟨_, scalar, rfl⟩, counts, rfl⟩
  · rintro ⟨rest, m, read, counts, rfl⟩
    obtain ⟨first, scalar, split⟩ := next_eq_some_iff.1 read
    exact split ▸ .cons scalar counts

theorem next_length {s rest : Bytes} (read : next s = some rest) : rest.length < s.length := by
  obtain ⟨first, scalar, rfl⟩ := next_eq_some_iff.1 read
  have := scalar.length
  rw [List.length_append]
  omega

theorem countWithin_eq_some_iff {fuel n : Nat} {s : Bytes} (enough : s.length ≤ fuel) :
    countWithin fuel s = some n ↔ Counts n s := by
  induction fuel generalizing n s with
  | zero =>
      obtain rfl : s = [] := List.eq_nil_of_length_eq_zero (by omega)
      simp [countWithin, counts_nil_iff, eq_comm]
  | succ fuel ih =>
      cases s with
      | nil => simp [countWithin, counts_nil_iff, eq_comm]
      | cons b s =>
          rw [countWithin, counts_iff_next, Option.bind_eq_some_iff]
          refine exists_congr fun rest => ?_
          constructor
          · rintro ⟨read, counted⟩
            obtain ⟨m, inner, rfl⟩ := Option.map_eq_some_iff.1 counted
            have := next_length read
            exact ⟨m, read, (ih (by omega)).1 inner, rfl⟩
          · rintro ⟨m, read, counts, rfl⟩
            have := next_length read
            exact ⟨read, by rw [(ih (by omega)).2 counts]; rfl⟩

theorem count_eq_some_iff {n : Nat} {s : Bytes} : count s = some n ↔ Counts n s :=
  countWithin_eq_some_iff le_rfl

theorem wellFormed_iff {s : Bytes} : WellFormed s ↔ (count s).isSome := by
  simp only [WellFormed, ← count_eq_some_iff, Option.isSome_iff_exists]

instance (s : Bytes) : Decidable (WellFormed s) := decidable_of_iff _ wellFormed_iff.symm

theorem exists_char {v : Nat} (valid : v.isValidChar) : ∃ c : Char, c.val.toNat = v := by
  have small : v < UInt32.size := by
    rcases valid with low | ⟨-, high⟩
    · exact low.trans (by decide)
    · exact high.trans (by decide)
  exact ⟨Char.ofNatAux v valid, UInt32.toNat_ofNatLT⟩

theorem ranges_eq : ∀ lead : UInt8, ranges lead =
    if lead ≤ 0x7F then some []
    else if 0xC2 ≤ lead ∧ lead ≤ 0xDF then some [tail]
    else if 0xE0 ≤ lead ∧ lead ≤ 0xEF then
      some [(if lead = 0xE0 then 0xA0 else 0x80, if lead = 0xED then 0x9F else 0xBF), tail]
    else if 0xF0 ≤ lead ∧ lead ≤ 0xF4 then
      some [(if lead = 0xF0 then 0x90 else 0x80, if lead = 0xF4 then 0x8F else 0xBF), tail, tail]
    else none :=
  of_each_byte (by decide +kernel)

theorem tail_iff {b : UInt8} : Within tail b ↔ 128 ≤ b.toNat ∧ b.toNat ≤ 191 := by
  simp only [Within, UInt8.le_iff_toNat_le]
  rfl

theorem second_three_iff {lead b : UInt8} :
    Within (if lead = 0xE0 then 0xA0 else 0x80, if lead = 0xED then 0x9F else 0xBF) b ↔
      (128 ≤ b.toNat ∧ b.toNat ≤ 191) ∧ (lead.toNat = 224 → 160 ≤ b.toNat) ∧ (lead.toNat = 237 → b.toNat ≤ 159) := by
  simp only [Within, UInt8.le_iff_toNat_le, ← UInt8.toNat_inj]
  split_ifs <;> simp_all <;> omega

theorem second_four_iff {lead b : UInt8} :
    Within (if lead = 0xF0 then 0x90 else 0x80, if lead = 0xF4 then 0x8F else 0xBF) b ↔
      (128 ≤ b.toNat ∧ b.toNat ≤ 191) ∧ (lead.toNat = 240 → 144 ≤ b.toNat) ∧ (lead.toNat = 244 → b.toNat ≤ 143) := by
  simp only [Within, UInt8.le_iff_toNat_le, ← UInt8.toNat_inj]
  split_ifs <;> simp_all <;> omega

theorem ofNat_of_toNat {b : UInt8} {v : Nat} (same : v = b.toNat) : UInt8.ofNat v = b := by
  rw [same, UInt8.ofNat_toNat]

theorem encodes_two {a b : UInt8} (lead : 194 ≤ a.toNat ∧ a.toNat ≤ 223) (last : 128 ≤ b.toNat ∧ b.toNat ≤ 191) :
    ∃ c : Char, [a, b] = String.utf8EncodeChar c := by
  obtain ⟨c, value⟩ := exists_char (v := (a.toNat - 192) * 64 + (b.toNat - 128)) (.inl (by omega))
  refine ⟨c, ?_⟩
  rw [String.utf8EncodeChar, value, if_neg (by omega), if_pos (by omega), ofNat_of_toNat (b := a) (by omega),
    ofNat_of_toNat (b := b) (by omega)]

theorem encodes_three {a b d : UInt8} (lead : 224 ≤ a.toNat ∧ a.toNat ≤ 239)
    (second : (128 ≤ b.toNat ∧ b.toNat ≤ 191) ∧ (a.toNat = 224 → 160 ≤ b.toNat) ∧ (a.toNat = 237 → b.toNat ≤ 159))
    (last : 128 ≤ d.toNat ∧ d.toNat ≤ 191) : ∃ c : Char, [a, b, d] = String.utf8EncodeChar c := by
  obtain ⟨c, value⟩ := exists_char (v := (a.toNat - 224) * 4096 + (b.toNat - 128) * 64 + (d.toNat - 128)) (by
    rw [Nat.isValidChar]
    omega)
  refine ⟨c, ?_⟩
  rw [String.utf8EncodeChar, value, if_neg (by omega), if_neg (by omega), if_pos (by omega),
    ofNat_of_toNat (b := a) (by omega), ofNat_of_toNat (b := b) (by omega), ofNat_of_toNat (b := d) (by omega)]

theorem encodes_four {a b d e : UInt8} (lead : 240 ≤ a.toNat ∧ a.toNat ≤ 244)
    (second : (128 ≤ b.toNat ∧ b.toNat ≤ 191) ∧ (a.toNat = 240 → 144 ≤ b.toNat) ∧ (a.toNat = 244 → b.toNat ≤ 143))
    (third : 128 ≤ d.toNat ∧ d.toNat ≤ 191) (last : 128 ≤ e.toNat ∧ e.toNat ≤ 191) :
    ∃ c : Char, [a, b, d, e] = String.utf8EncodeChar c := by
  obtain ⟨c, value⟩ := exists_char (v := (a.toNat - 240) * 262144 + (b.toNat - 128) * 4096 + (d.toNat - 128) * 64 +
    (e.toNat - 128)) (by
      rw [Nat.isValidChar]
      omega)
  refine ⟨c, ?_⟩
  rw [String.utf8EncodeChar, value, if_neg (by omega), if_neg (by omega), if_neg (by omega),
    ofNat_of_toNat (b := a) (by omega), ofNat_of_toNat (b := b) (by omega), ofNat_of_toNat (b := d) (by omega),
    ofNat_of_toNat (b := e) (by omega)]

theorem Scalar.encodes {s : Bytes} (scalar : Scalar s) : ∃ c : Char, s = String.utf8EncodeChar c := by
  obtain ⟨row, all⟩ := scalar
  rename_i lead follow rows
  rw [ranges_eq] at row
  simp only [UInt8.le_iff_toNat_le, UInt8.reduceToNat] at row
  by_cases one : lead.toNat ≤ 127
  · rw [if_pos one] at row
    cases row
    cases all
    obtain ⟨c, value⟩ := exists_char (v := lead.toNat) (.inl (by omega))
    refine ⟨c, ?_⟩
    rw [String.utf8EncodeChar, value, if_pos one, UInt8.ofNat_toNat]
  rw [if_neg one] at row
  by_cases two : 194 ≤ lead.toNat ∧ lead.toNat ≤ 223
  · rw [if_pos two] at row
    cases row
    simp only [List.forall₂_cons_left_iff, List.forall₂_nil_left_iff, tail_iff] at all
    obtain ⟨b, _, last, rfl, rfl⟩ := all
    exact encodes_two two last
  rw [if_neg two] at row
  by_cases three : 224 ≤ lead.toNat ∧ lead.toNat ≤ 239
  · rw [if_pos three] at row
    cases row
    simp only [List.forall₂_cons_left_iff, List.forall₂_nil_left_iff, tail_iff, second_three_iff] at all
    obtain ⟨b, _, second, ⟨d, _, last, rfl, rfl⟩, rfl⟩ := all
    exact encodes_three three second last
  rw [if_neg three] at row
  by_cases four : 240 ≤ lead.toNat ∧ lead.toNat ≤ 244
  · rw [if_pos four] at row
    cases row
    simp only [List.forall₂_cons_left_iff, List.forall₂_nil_left_iff, tail_iff, second_four_iff] at all
    obtain ⟨b, _, second, ⟨d, _, third, ⟨e, _, last, rfl, rfl⟩, rfl⟩, rfl⟩ := all
    exact encodes_four four second third last
  · rw [if_neg four] at row
    cases row

theorem toNat_ofNat_small {v : Nat} (small : v < 256) : (UInt8.ofNat v).toNat = v := by
  rw [UInt8.toNat_ofNat']
  omega

theorem scalar_encode (c : Char) : Scalar (String.utf8EncodeChar c) := by
  have valid : c.val.toNat < 0xD800 ∨ 0xDFFF < c.val.toNat ∧ c.val.toNat < 0x110000 := c.valid
  rw [String.utf8EncodeChar]
  generalize c.val.toNat = v at valid
  split_ifs with one two three
  · have lead := toNat_ofNat_small (v := v) (by omega)
    refine .mk (?_ : _ = some []) .nil
    rw [ranges_eq, if_pos]
    rw [UInt8.le_iff_toNat_le, lead]
    exact one
  · have lead := toNat_ofNat_small (v := v / 64 % 32 + 192) (by omega)
    have last := toNat_ofNat_small (v := v % 64 + 128) (by omega)
    refine .mk (?_ : _ = some [tail]) (.cons (tail_iff.2 (by omega)) .nil)
    rw [ranges_eq, if_neg, if_pos] <;> simp only [UInt8.le_iff_toNat_le, lead] <;> simp <;> omega
  · have lead := toNat_ofNat_small (v := v / 4096 % 16 + 224) (by omega)
    have second := toNat_ofNat_small (v := v / 64 % 64 + 128) (by omega)
    have last := toNat_ofNat_small (v := v % 64 + 128) (by omega)
    refine .mk ?_ (.cons ((@second_three_iff (UInt8.ofNat (v / 4096 % 16 + 224)) _).2 (by omega)) (.cons (tail_iff.2 (by omega)) .nil))
    rw [ranges_eq, if_neg, if_neg, if_pos] <;> simp only [UInt8.le_iff_toNat_le, lead] <;> simp <;> omega
  · have lead := toNat_ofNat_small (v := v / 262144 % 8 + 240) (by omega)
    have second := toNat_ofNat_small (v := v / 4096 % 64 + 128) (by omega)
    have third := toNat_ofNat_small (v := v / 64 % 64 + 128) (by omega)
    have last := toNat_ofNat_small (v := v % 64 + 128) (by omega)
    refine .mk ?_ (.cons ((@second_four_iff (UInt8.ofNat (v / 262144 % 8 + 240)) _).2 (by omega)) (.cons (tail_iff.2 (by omega)) (.cons (tail_iff.2 (by omega)) .nil)))
    rw [ranges_eq, if_neg, if_neg, if_neg, if_pos] <;> simp only [UInt8.le_iff_toNat_le, lead] <;> simp <;> omega

theorem counts_iff_encoding {n : Nat} {s : Bytes} :
    Counts n s ↔ ∃ points : List Char, points.length = n ∧ s = points.flatMap String.utf8EncodeChar := by
  constructor
  · intro counts
    induction counts with
    | nil => exact ⟨[], rfl, rfl⟩
    | cons scalar counts ih =>
        obtain ⟨c, rfl⟩ := scalar.encodes
        obtain ⟨points, rfl, rfl⟩ := ih
        exact ⟨c :: points, rfl, rfl⟩
  · rintro ⟨points, rfl, rfl⟩
    induction points with
    | nil => exact .nil
    | cons c points ih => exact .cons (scalar_encode c) ih

end Sitometron.Utf8
