import Sitometron.Proof.Http.Header
import Sitometron.Proof.Http.SizeLine

/-!
# Content-Length

The fold over the members of the Content-Length fields: it ends with a length exactly when all members are digits and denote one
number.
-/

namespace Sitometron.Http

open Grammar

theorem trimOws_eq (s : Bytes) : trimOws s = trim s := by
  have same : isOws = fun c => decide (Space c) := by
    funext c
    rw [Bool.eq_iff_iff, isOws_iff, decide_eq_true_eq]
  rw [trimOws, trim, same]

def membersFrom (element : Bytes) (q : Quoting) (s : Bytes) : List Bytes :=
  (((elements q s).modifyHead (element ++ ·)).map trim).filter (· ≠ [])

theorem membersFrom_cons {element : Bytes} {q : Quoting} {c : UInt8} {s : Bytes} (inside : ¬(c = byte ',' && q = .outside) = true) :
    membersFrom element q (c :: s) = membersFrom (element ++ [c]) (q.next c) s := by
  rw [membersFrom, elements_cons, if_neg inside, membersFrom]
  cases elements (q.next c) s <;> simp

theorem membersFrom_comma {element s : Bytes} :
    membersFrom element .outside (byte ',' :: s) =
      if (trim element).isEmpty then membersFrom [] .outside s else trim element :: membersFrom [] .outside s := by
  have next : Quoting.outside.next (byte ',') = .outside := rfl
  rw [membersFrom, elements_cons, if_pos (by decide), next, membersFrom]
  have same : (elements .outside s).modifyHead ([] ++ ·) = elements .outside s := by
    cases elements .outside s <;> rfl
  rw [same]
  cases shape : trim element <;> simp [shape]

theorem membersFrom_nil (element : Bytes) (q : Quoting) :
    membersFrom element q [] = if (trim element).isEmpty then [] else [trim element] := by
  cases shape : trim element <;> simp [membersFrom, elements_nil, shape]

theorem splitListFrom_eq (element : Bytes) (inQuotes : Bool) (s : Bytes) :
    splitListFrom element inQuotes s = membersFrom element (if inQuotes then .inside else .outside) s := by
  have unquoted : Quoting.inside.next (byte '\\') = .escaped := rfl
  fun_induction splitListFrom element inQuotes s with
  | case1 element inQuotes trimmed empty =>
      rw [membersFrom_nil, ← trimOws_eq, if_pos empty]
  | case2 element inQuotes trimmed nonempty =>
      rw [membersFrom_nil, ← trimOws_eq, if_neg nonempty]
  | case3 element ih =>
      rw [ih, if_pos rfl, membersFrom_cons (by decide), unquoted, membersFrom_nil, membersFrom_nil]
  | case4 element escaped rest ih =>
      rw [ih, if_pos rfl, membersFrom_cons (by decide), unquoted, membersFrom_cons (by simp), List.append_assoc]
      rfl
  | case5 element c rest plain ih =>
      rw [ih, if_pos rfl, membersFrom_cons (by simp), Quoting.next, if_neg plain]
      by_cases quote : c = byte '"' <;> simp [quote]
  | case6 element inQuotes rest outside ih =>
      rw [ih, if_neg outside, membersFrom_cons (by decide)]
      rfl
  | case7 element inQuotes rest outside trimmed empty _ ih =>
      rw [ih, if_neg outside, membersFrom_comma, ← trimOws_eq, if_pos empty]
      rfl
  | case8 element inQuotes rest outside trimmed nonempty _ ih =>
      rw [ih, if_neg outside, membersFrom_comma, ← trimOws_eq, if_neg nonempty]
      rfl
  | case9 element inQuotes c rest outside quote comma ih =>
      rw [ih, if_neg outside, membersFrom_cons (by simp [comma]), Quoting.next, if_neg quote]
      rfl

theorem splitList_eq (s : Bytes) : splitList s = members s := by
  rw [splitList, splitListFrom_eq, membersFrom, members, if_neg (by decide)]
  cases elements .outside s <;> rfl

structure Denotes (item : Bytes) (n : Nat) : Prop where
  nonempty : item ≠ []
  digits : ∀ c ∈ item, isDigit c = true
  value : ofDecimal item = n

section Numbers

variable {item : Bytes} {n : Nat}

theorem digit_toNat {c : UInt8} (digit : isDigit c = true) : (c - byte '0').toUInt64.toNat = digitValue c := by
  have each : ∀ c : UInt8, isDigit c = true → (c - byte '0').toUInt64.toNat = digitValue c := of_each_byte (by decide +kernel)
  exact each c digit

theorem parseUint64_denotes (denotes : Denotes item n) :
    ∃ r : Radix.Reading, Radix.Reads r n ∧ parseUint64 item = (if r.overflow then none else some r.value, r.overflow) := by
  obtain ⟨nonempty, digits, rfl⟩ := denotes
  have below (c : UInt8) (member : c ∈ item) : (c - byte '0').toUInt64.toNat < (10 : UInt64).toNat := by
    rw [digit_toNat (digits c member)]
    exact digitValue_lt (digits c member)
  have same : ofDecimal item = item.foldl (fun v c => (10 : UInt64).toNat * v + (c - byte '0').toUInt64.toNat) 0 := by
    apply List.foldl_ext
    intro v c member
    rw [digit_toNat (digits c member)]
    rfl
  refine ⟨_, same ▸ Radix.Reads.zero.foldl below, ?_⟩
  rw [parseUint64, if_neg]
  simpa [nonempty] using digits

theorem parseUint64_other (other : ∀ n, ¬Denotes item n) : parseUint64 item = (none, false) := by
  rw [parseUint64, if_pos]
  by_contra valid
  simp only [Bool.or_eq_true, Bool.not_eq_true', not_or, Bool.not_eq_true, Bool.not_eq_false, List.isEmpty_eq_false_iff,
    List.all_eq_true] at valid
  exact other _ ⟨valid.1, valid.2, rfl⟩

theorem ofDecimal_significant (item : Bytes) : ofDecimal (item.dropWhile (· = byte '0')) = ofDecimal item := by
  induction item with
  | nil => rfl
  | cons c item ih =>
      rw [List.dropWhile_cons]
      split
      next zero =>
        have value : digitValue c = 0 := by
          rw [show c = byte '0' by simpa using zero]
          rfl
        rw [ih, ofDecimal_cons, value, Nat.zero_mul, Nat.zero_add]
      next => rfl

theorem significant_eq {digits : Bytes} (nonempty : digits ≠ []) (all : ∀ c ∈ digits, isDigit c = true)
    (first : digits.headD 0 ≠ byte '0') : digits = decimal (ofDecimal digits) := by
  obtain ⟨c, rest, rfl⟩ := List.exists_cons_of_ne_nil nonempty
  have spelled := padded_ofDecimal (Nat.succ_pos rest.length) rfl all
  have leadingDigit : 0 < digitValue c := by
    have digit := all c List.mem_cons_self
    have least : byte '0' ≤ c := by
      rw [isDigit, Bool.and_eq_true, decide_eq_true_eq] at digit
      exact digit.1
    have smaller : byte '0' < c := UInt8.lt_of_le_of_ne least fun same => first same.symm
    exact Nat.lt_of_le_of_lt (Nat.zero_le _) ((digitValue_lt_iff ⟨rfl, digit⟩).2 smaller)
  have large : 10 ^ rest.length ≤ ofDecimal (c :: rest) := by
    rw [ofDecimal_cons]
    exact Nat.le_trans (Nat.le_mul_of_pos_left _ leadingDigit) (Nat.le_add_right _ _)
  have long : (c :: rest).length ≤ (decimal (ofDecimal (c :: rest))).length := by
    rw [List.length_cons]
    by_contra short
    have some_ := List.length_pos_iff.2 (decimal_ne_nil (ofDecimal (c :: rest)))
    have fits : (decimal (ofDecimal (c :: rest))).length ≤ rest.length := by omega
    have small := (decimal_length_le (by omega)).1 fits
    omega
  rw [List.length_cons] at long
  rw [padded, Nat.sub_eq_zero_of_le long, List.replicate_zero, List.nil_append] at spelled
  exact spelled.symm

theorem normalizeDecimal_eq (denotes : Denotes item n) : normalizeDecimal item = decimal n := by
  obtain ⟨nonempty, digits, rfl⟩ := denotes
  unfold normalizeDecimal
  dsimp only
  split
  next zeros =>
    rw [← ofDecimal_significant, List.isEmpty_iff.1 zeros]
    rfl
  next significant =>
    have kept : ∀ c ∈ item.dropWhile (· = byte '0'), isDigit c = true :=
      fun c member => digits c ((List.dropWhile_sublist _).subset member)
    have nonzero : item.dropWhile (· = byte '0') ≠ [] := fun none => significant (List.isEmpty_iff.2 none)
    rw [← ofDecimal_significant]
    apply significant_eq nonzero kept
    obtain ⟨c, rest, shape⟩ := List.exists_cons_of_ne_nil nonzero
    have stops := stops_dropWhile (· = byte '0') item c (by rw [shape]; rfl)
    rw [shape]
    simpa using stops

theorem decimal_injective {m n : Nat} (same : decimal m = decimal n) : m = n := by
  rw [← ofDecimal_decimal m, same, ofDecimal_decimal]

end Numbers

structure Agree (items : List Bytes) (n : Nat) : Prop where
  nonempty : items ≠ []
  each : ∀ item ∈ items, Denotes item n

section Fold

variable {items : List Bytes} {item : Bytes} {m n : Nat} {s : LengthState}

theorem Agree.unique (left : Agree items m) (right : Agree items n) : m = n := by
  obtain ⟨item, rest, rfl⟩ := List.exists_cons_of_ne_nil left.nonempty
  exact (left.each item List.mem_cons_self).value.symm.trans (right.each item List.mem_cons_self).value

theorem Agree.snoc (agree : Agree items n) (denotes : Denotes item n) : Agree (items ++ [item]) n := by
  refine ⟨by simp, ?_⟩
  intro other member
  rcases List.mem_append.1 member with old | new
  · exact agree.each other old
  · rw [List.mem_singleton.1 new]
    exact denotes

theorem Agree.last (agree : Agree (items ++ [item]) n) : Denotes item n := agree.each item (by simp)

theorem Agree.before (agree : Agree (items ++ [item]) n) (nonempty : items ≠ []) : Agree items n :=
  ⟨nonempty, fun other member => agree.each other (List.mem_append_left _ member)⟩

theorem Agree.differ (agree : Agree items m) (denotes : Denotes item n) (different : m ≠ n) (k : Nat) : ¬Agree (items ++ [item]) k := by
  intro all
  have first := agree.unique (all.before agree.nonempty)
  exact different (first.trans (all.last.value.symm.trans denotes.value))

theorem agree_singleton (denotes : Denotes item n) : Agree [item] n :=
  ⟨by simp, fun other member => by rwa [List.mem_singleton.1 member]⟩

inductive Summed : List Bytes → LengthState → Prop where
  | none : Summed [] {}
  | fits {items : List Bytes} {v : UInt64} : Agree items v.toNat → Summed items { length := some v }
  | large {items : List Bytes} {n : Nat} : Agree items n → 2 ^ 64 ≤ n →
      Summed items { lengthOverflow := true, overflowValue := some (decimal n) }
  | invalid {items : List Bytes} {s : LengthState} : s.invalid = true → items ≠ [] → (∀ n, ¬Agree items n) → Summed items s

theorem readLengthItem_fits (valid : s.invalid = false) (denotes : Denotes item n) (small : n < 2 ^ 64) :
    ∃ v : UInt64, v.toNat = n ∧ readLengthItem s item =
      if s.lengthOverflow || s.overflowValue.isSome || s.length.any (· ≠ v) then { s with invalid := true }
      else { s with length := some v } := by
  obtain ⟨r, reads, parsed⟩ := parseUint64_denotes denotes
  have fits : r.overflow = false := by
    rw [← Bool.not_eq_true, reads.overflow]
    omega
  refine ⟨r.value, reads.value small, ?_⟩
  rw [readLengthItem, if_neg (by simp [valid]), parsed, fits]
  rfl

theorem readLengthItem_large (valid : s.invalid = false) (denotes : Denotes item n) (large : 2 ^ 64 ≤ n) :
    readLengthItem s item =
      if s.length.isSome || s.overflowValue.any (· ≠ decimal n) then { s with invalid := true }
      else { s with lengthOverflow := true, overflowValue := some (decimal n) } := by
  obtain ⟨r, reads, parsed⟩ := parseUint64_denotes denotes
  rw [readLengthItem, if_neg (by simp [valid]), parsed, reads.overflow.2 large, normalizeDecimal_eq denotes]
  rfl

theorem readLengthItem_other (valid : s.invalid = false) (other : ∀ n, ¬Denotes item n) :
    readLengthItem s item = { s with invalid := true } := by
  rw [readLengthItem, if_neg (by simp [valid]), parseUint64_other other]
  rfl

theorem Summed.step (summed : Summed items s) (item : Bytes) : Summed (items ++ [item]) (readLengthItem s item) := by
  by_cases bad : s.invalid = true
  · cases summed with
    | invalid _ nonempty differ =>
        rw [readLengthItem, if_pos bad]
        exact .invalid bad (by simp) fun n agree => differ n (agree.before nonempty)
    | _ => cases bad
  have valid : s.invalid = false := by simpa using bad
  by_cases number : ∃ n, Denotes item n
  · obtain ⟨n, denotes⟩ := number
    by_cases small : n < 2 ^ 64
    · obtain ⟨v, value, read⟩ := readLengthItem_fits valid denotes small
      rw [read]
      cases summed with
      | none => exact .fits (value.symm ▸ agree_singleton denotes)
      | @fits _ w agree =>
          by_cases same : w = v
          · subst same
            rw [if_neg (by simp)]
            exact .fits (agree.snoc (value.symm ▸ denotes))
          · rw [if_pos (by simpa using same)]
            exact .invalid rfl (by simp) (agree.differ denotes fun equal => same (UInt64.toNat.inj (equal.trans value.symm)))
      | @large _ k agree big =>
          rw [if_pos (by simp)]
          exact .invalid rfl (by simp) (agree.differ denotes (by omega))
      | invalid bad => cases valid.symm.trans bad
    · rw [readLengthItem_large valid denotes (Nat.not_lt.1 small)]
      cases summed with
      | none => exact .large (agree_singleton denotes) (Nat.not_lt.1 small)
      | @fits _ w agree =>
          have bound := w.toNat_lt
          rw [if_pos (by simp)]
          exact .invalid rfl (by simp) (agree.differ denotes (by omega))
      | @large _ k agree big =>
          by_cases same : k = n
          · subst same
            rw [if_neg (by simp)]
            exact .large (agree.snoc denotes) big
          · rw [if_pos (by simpa using fun equal => same (decimal_injective equal))]
            exact .invalid rfl (by simp) (agree.differ denotes same)
      | invalid bad => cases valid.symm.trans bad
  · rw [readLengthItem_other valid fun n denotes => number ⟨n, denotes⟩]
    exact .invalid rfl (by simp) fun n agree => number ⟨n, agree.last⟩

theorem summed_foldl (items : List Bytes) : Summed items (items.foldl readLengthItem {}) := by
  induction items using List.reverseRecOn with
  | nil => exact .none
  | append_singleton items item ih =>
      rw [List.foldl_append]
      exact ih.step item

end Fold

def membersOf (fields : List HeaderField) (name : String) : List Bytes :=
  (fields.filter fun field => field.name = text name).flatMap fun field => members field.value

theorem summed_readLengths (fields : List HeaderField) (name : String) :
    ∃ s, Summed (membersOf fields name) s ∧
      readLengths (valuesOf fields name) = if s.invalid then { s with length := none, lengthOverflow := false } else s := by
  refine ⟨_, summed_foldl _, ?_⟩
  have split : (fun field : HeaderField => members field.value) = fun field => splitList field.value := by
    funext field
    exact (splitList_eq field.value).symm
  rw [readLengths, valuesOf, membersOf, split, List.foldl_flatMap, List.foldl_map]

end Sitometron.Http
