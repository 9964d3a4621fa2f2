import Mathlib.Data.List.TakeWhile
import Sitometron.Core.Validation
import Sitometron.Http.Syntax
import Sitometron.Journal.Codec

/-!
# The lexical checks of the codec, of the reducer and of the HTTP adapter

They were written apart. They accept the same texts, and what they accept is well-formed UTF-8.
-/

namespace Sitometron.Journal

def turn (s : Bytes) : Option (Nat × UInt8 × UInt8) → (Nat → UInt8 → UInt8 → Bool) → Option Bytes
  | none, _ => none
  | some (length, secondMin, secondMax), follows =>
      if length ≤ s.length ∧ follows length secondMin secondMax = true then some (s.drop length) else none

def leadOf (sequence : Core.Utf8Sequence) : Nat × UInt8 × UInt8 :=
  (sequence.length, sequence.secondMin, sequence.secondMax)

theorem utf8Lead_tables : ∀ lead : UInt8,
    (utf8Lead lead = (Utf8.ranges lead).map fun rows =>
      (rows.length + 1, (rows.headD Utf8.tail).1, (rows.headD Utf8.tail).2)) ∧
    (Core.utf8SequenceForLead lead).map leadOf = utf8Lead lead :=
  of_each_byte (by decide +kernel)

theorem codec_next (lead : UInt8) (rest : Bytes) :
    turn (lead :: rest) (utf8Lead lead) (utf8Follows (lead :: rest)) = Utf8.next (lead :: rest) := by
  rw [(utf8Lead_tables lead).1, Utf8.next]
  cases row : Utf8.ranges lead with
  | none => rfl
  | some rows =>
      rcases Utf8.ranges_shape row with rfl | ⟨range, rfl | rfl | rfl⟩
      · simp [turn, utf8Follows, Utf8.follow]
      all_goals
        rcases rest with - | ⟨a, - | ⟨b, - | ⟨c, rest⟩⟩⟩ <;>
          simp [turn, utf8Follows, Utf8.follow, List.range', ite_and]

theorem utf8CodePointsLoop_eq (fuel : Nat) (s : Bytes) (count : Nat) :
    utf8CodePointsLoop fuel s count = (Utf8.countWithin fuel s).map (· + count) := by
  induction fuel generalizing s count with
  | zero => cases s <;> simp [utf8CodePointsLoop, Utf8.countWithin]
  | succ fuel ih =>
      cases s with
      | nil => simp [utf8CodePointsLoop, Utf8.countWithin]
      | cons lead rest =>
          rw [Utf8.countWithin, ← codec_next, utf8CodePointsLoop]
          cases utf8Lead lead with
          | none => rfl
          | some sequence =>
              obtain ⟨length, secondMin, secondMax⟩ := sequence
              by_cases fits : length ≤ (lead :: rest).length
              · cases follows : utf8Follows (lead :: rest) length secondMin secondMax
                · simp [turn, follows]
                · simp only [turn, gt_iff_lt, not_lt.2 fits, follows, fits, ih, if_false, if_true, and_self,
                    Bool.not_true, Bool.false_eq_true, Option.bind_some, Option.map_map]
                  congr 1
                  funext n
                  simp only [Function.comp_apply]
                  omega
              · simp only [turn, gt_iff_lt, not_le.1 fits, fits, if_true, false_and, if_false, Option.bind_none,
                  Option.map_none]

theorem utf8CodePoints_eq (s : Bytes) : utf8CodePoints s = Utf8.count s := by
  simp [utf8CodePoints, utf8CodePointsLoop_eq, Utf8.count]

theorem boundedText_iff {s : Bytes} {maxChars : Nat} :
    boundedText s maxChars = true ↔ ∃ n, Utf8.Counts n s ∧ 1 ≤ n ∧ n ≤ maxChars := by
  simp [boundedText, utf8CodePoints_eq, Option.any_eq_true, Utf8.count_eq_some_iff]

theorem reducer_next (lead : UInt8) (rest : Bytes) :
    turn (lead :: rest) (utf8Lead lead) (fun length secondMin secondMax =>
      Core.hasValidUtf8Continuation (lead :: rest) ⟨length, secondMin, secondMax⟩) =
        Utf8.next (lead :: rest) := by
  rw [(utf8Lead_tables lead).1, Utf8.next]
  cases row : Utf8.ranges lead with
  | none => rfl
  | some rows =>
      rcases Utf8.ranges_shape row with rfl | ⟨range, rfl | rfl | rfl⟩
      · simp [turn, Core.hasValidUtf8Continuation, Utf8.follow]
      all_goals
        rcases rest with - | ⟨a, - | ⟨b, - | ⟨c, rest⟩⟩⟩ <;>
          simp [turn, Core.hasValidUtf8Continuation, Utf8.follow, ite_and]

theorem utf8ScalarLoop_iff {maxScalars fuel : Nat} {s : Bytes} {scalars : Nat} (within : scalars ≤ maxScalars) :
    Core.utf8ScalarLoop maxScalars fuel s scalars = true ↔
      ∃ n, Utf8.countWithin fuel s = some n ∧ scalars + n ≤ maxScalars := by
  induction fuel generalizing s scalars with
  | zero => cases s <;> simp [Core.utf8ScalarLoop, Utf8.countWithin, within]
  | succ fuel ih =>
      cases s with
      | nil => simp [Core.utf8ScalarLoop, Utf8.countWithin, within]
      | cons lead rest =>
          have table := (utf8Lead_tables lead).2
          rw [Utf8.countWithin, ← reducer_next, ← table, Core.utf8ScalarLoop]
          cases Core.utf8SequenceForLead lead with
          | none => simp [turn]
          | some sequence =>
              obtain ⟨length, secondMin, secondMax⟩ := sequence
              simp only [Option.map_some, turn, leadOf]
              by_cases valid :
                  Core.hasValidUtf8Continuation (lead :: rest) ⟨length, secondMin, secondMax⟩ = true
              · have fits : length ≤ (lead :: rest).length := by
                  by_contra long
                  simp only [Core.hasValidUtf8Continuation, gt_iff_lt, not_le.1 long, if_true,
                    Bool.false_eq_true] at valid
                simp only [valid, Bool.not_true, Bool.false_eq_true, if_false, fits, and_self, if_true,
                  Option.bind_some, Option.map_eq_some_iff]
                split
                next full =>
                  simp only [Bool.false_eq_true, false_iff]
                  rintro ⟨n, ⟨m, -, rfl⟩, small⟩
                  omega
                next room =>
                  rw [ih (by omega)]
                  constructor
                  · rintro ⟨n, counted, small⟩
                    exact ⟨n + 1, ⟨n, counted, rfl⟩, by omega⟩
                  · rintro ⟨n, ⟨m, counted, rfl⟩, small⟩
                    exact ⟨m, counted, by omega⟩
              · simp [valid]

theorem isUtf8ScalarString_eq (s : Bytes) (maxScalars : Nat) :
    Core.isUtf8ScalarString s maxScalars = boundedText s maxScalars := by
  rw [Bool.eq_iff_iff, boundedText_iff, Core.isUtf8ScalarString]
  split
  next empty =>
    subst empty
    simp only [Bool.false_eq_true, Utf8.counts_nil_iff, false_iff]
    rintro ⟨n, rfl, positive, -⟩
    omega
  next nonempty =>
    rw [utf8ScalarLoop_iff (Nat.zero_le _)]
    refine exists_congr fun n => ?_
    rw [Utf8.countWithin_eq_some_iff le_rfl, Nat.zero_add]
    constructor
    · rintro ⟨counts, small⟩
      refine ⟨counts, ?_, small⟩
      by_contra none
      obtain rfl : n = 0 := by omega
      exact nonempty (List.eq_nil_of_length_eq_zero (by simpa using counts.length.2))
    · rintro ⟨counts, -, small⟩
      exact ⟨counts, small⟩

theorem isUuid_iff {s : Bytes} {version : UInt8} :
    isUuid s version = true ↔ s.length = 36 ∧ ∀ i < 36, isUuidByte version i (s.getD i 0) = true := by
  simp only [isUuid, Bool.and_eq_true, decide_eq_true_eq, List.all_eq_true, List.mem_range]
  constructor
  · rintro ⟨length, each⟩
    exact ⟨length, length ▸ each⟩
  · rintro ⟨length, each⟩
    exact ⟨length, length.symm ▸ each⟩

theorem isUuid_eq (s : Bytes) {version : UInt8} (hex : isLowerHex version = true) :
    Core.isUuid s version = isUuid s version := by
  rw [Bool.eq_iff_iff, isUuid_iff]
  by_cases length : s.length = 36
  · simp [-List.getD_eq_getElem?_getD, Core.isUuid, length]
    constructor
    · rintro ⟨⟨⟨⟨h8, h13⟩, h18⟩, h23⟩, others, h14, h19⟩ i small
      rw [isUuidByte]
      split_ifs with dash atVersion atVariant
      · simp only [Bool.or_eq_true, decide_eq_true_eq] at dash
        rcases dash with ((rfl | rfl) | rfl) | rfl <;> simp [-List.getD_eq_getElem?_getD, *]
      · simpa [-List.getD_eq_getElem?_getD, atVersion] using h14
      · simpa [-List.getD_eq_getElem?_getD, atVariant] using h19
      · simp only [Bool.or_eq_true, decide_eq_true_eq, not_or] at dash
        exact others i small dash.1.1.1 dash.1.1.2 dash.1.2 dash.2
    · intro each
      have h14 := each 14 (by omega)
      have h19 := each 19 (by omega)
      simp only [isUuidByte, Nat.reduceEqDiff, decide_false, Bool.or_self, Bool.false_eq_true, if_false,
        if_true, Bool.or_eq_true, decide_eq_true_eq] at h14 h19
      refine ⟨⟨⟨⟨?_, ?_⟩, ?_⟩, ?_⟩, fun i small h8 h13 h18 h23 => ?_, h14, h19⟩
      · simpa [-List.getD_eq_getElem?_getD, isUuidByte] using each 8 (by omega)
      · simpa [-List.getD_eq_getElem?_getD, isUuidByte] using each 13 (by omega)
      · simpa [-List.getD_eq_getElem?_getD, isUuidByte] using each 18 (by omega)
      · simpa [-List.getD_eq_getElem?_getD, isUuidByte] using each 23 (by omega)
      · by_cases atVersion : i = 14
        · rw [atVersion, h14]
          exact hex
        by_cases atVariant : i = 19
        · rw [atVariant]
          rcases h19 with ((h | h) | h) | h <;> rw [h] <;> rfl
        · have byte := each i small
          simp only [isUuidByte, h8, h13, h18, h23, atVersion, atVariant, decide_false, Bool.or_self,
            Bool.false_eq_true, if_false] at byte
          exact byte
  · simp [Core.isUuid, length]

theorem isUuid7_eq (id : Core.Uuid) : Core.isUuid7 id = isUuid id.value (byte '7') := isUuid_eq _ rfl

theorem isUuid4_eq (id : Core.Uuid) : Core.isUuid4 id = isUuid id.value (byte '4') := isUuid_eq _ rfl

theorem isDigest_eq (s : Bytes) : Core.isDigest s = isSha256 s := by
  rw [Core.isDigest, isSha256]
  split
  next other => simp [other]
  next length =>
    simp only [ne_eq, not_not] at length
    rw [length]
    rfl

theorem isAlnum_eq (c : UInt8) : Core.isAsciiAlphanumeric c = isAlnum c := by
  simp only [Core.isAsciiAlphanumeric, isAlnum, Core.isAsciiUpper, Core.isAsciiLower]
  exact Bool.or_right_comm _ _ _

theorem isStable_eq (s : Bytes) : Core.isStable s = isStableId s := by
  cases s with
  | nil => rfl
  | cons c s =>
      simp only [Core.isStable, isStableId, isAlnum_eq, maxStableIdChars, List.getD_cons_zero, List.all_cons,
        List.drop_succ_cons, List.drop_zero, reduceCtorEq, decide_false, Bool.false_or]
      generalize (c :: s).length = n
      by_cases long : n > 128 <;> cases isAlnum c <;> simp [long]

theorem isUuid_and_isLowerHex (s : Bytes) (version : UInt8) :
    Core.isUuid s version = (isUuid s version && isLowerHex version) := by
  cases hex : isLowerHex version with
  | true => rw [isUuid_eq s hex, Bool.and_true]
  | false =>
      rw [Bool.and_false, Bool.eq_false_iff]
      intro accepted
      rw [Core.isUuid] at accepted
      split at accepted
      · cases accepted
      next shape =>
      split at accepted
      · cases accepted
      next digits =>
      simp only [Bool.or_eq_true, decide_eq_true_eq, not_or, ne_eq, Decidable.not_not] at shape
      simp only [Bool.and_eq_true, decide_eq_true_eq] at accepted
      apply digits
      rw [List.any_eq_true]
      refine ⟨14, by rw [List.mem_range, shape.1.1.1.1]; decide, ?_⟩
      rw [accepted.1, show Core.isLowerHex version = isLowerHex version from rfl, hex]
      rfl

theorem canonicalJobId_eq (s : Bytes) : Http.canonicalJobId s = isUuid s (byte '7') := by
  rw [Bool.eq_iff_iff, isUuid_iff, Http.canonicalJobId]
  have variants : ∀ c : UInt8, (text "89ab").contains c = true ↔
      c = byte '8' ∨ c = byte '9' ∨ c = byte 'a' ∨ c = byte 'b' := by
    intro c
    have spelled : text "89ab" = [byte '8', byte '9', byte 'a', byte 'b'] := rfl
    simp [spelled]
  split
  next refused =>
    simp only [Bool.or_eq_true, decide_eq_true_eq, Bool.not_eq_true', ← Bool.not_eq_true, variants] at refused
    simp only [Bool.false_eq_true, false_iff, not_and]
    intro length each
    rcases refused with (short | version) | variant
    · exact short length
    · apply version
      simpa [-List.getD_eq_getElem?_getD, isUuidByte] using each 14 (by decide)
    · apply variant
      simpa [-List.getD_eq_getElem?_getD, isUuidByte, or_assoc] using each 19 (by decide)
  next shaped =>
    simp only [Bool.or_eq_true, decide_eq_true_eq, Bool.not_eq_true', not_or, Decidable.not_not, Bool.not_eq_false] at shaped
    obtain ⟨⟨length, version⟩, variant⟩ := shaped
    rw [variants] at variant
    rw [List.all_eq_true, length]
    simp only [List.mem_range, true_and]
    apply forall₂_congr
    intro i small
    rw [isUuidByte]
    by_cases dash : (i = 8 || i = 13 || i = 18 || i = 23) = true
    · simp only [dash, if_true]
    · simp only [dash, Bool.false_eq_true, if_false]
      by_cases atVersion : i = 14
      · subst atVersion
        rw [if_pos rfl, version]
        decide
      by_cases atVariant : i = 19
      · subst atVariant
        rw [if_neg atVersion, if_pos rfl]
        rcases variant with h | h | h | h <;> rw [h] <;> decide
      · rw [if_neg atVersion, if_neg atVariant]
        rfl

def versionByte (version : Fin 16) : UInt8 := (text "0123456789abcdef").getD version 0

theorem isLowerHex_versionByte (version : Fin 16) : isLowerHex (versionByte version) = true := by
  revert version
  decide

/-- The texts of the reducer, of the codec and of the HTTP adapter. -/
theorem validators_agree (s : Bytes) (n : Nat) :
    (Core.isUtf8ScalarString s n = true ↔
      ∃ points : List Char, s = points.flatMap String.utf8EncodeChar ∧ 1 ≤ points.length ∧ points.length ≤ n) ∧
    (boundedText s n = true ↔
      ∃ points : List Char, s = points.flatMap String.utf8EncodeChar ∧ 1 ≤ points.length ∧ points.length ≤ n) ∧
    (∀ version : Fin 16, Core.isUuid s (versionByte version) = isUuid s (versionByte version)) ∧
    (∀ version : UInt8, Core.isUuid s version = (isUuid s version && isLowerHex version)) ∧
    Http.canonicalJobId s = Core.isUuid s (byte '7') ∧
    Core.isStable s = isStableId s ∧
    Core.isDigest s = isSha256 s := by
  have bounded : boundedText s n = true ↔
      ∃ points : List Char, s = points.flatMap String.utf8EncodeChar ∧ 1 ≤ points.length ∧ points.length ≤ n := by
    rw [boundedText_iff]
    constructor
    · rintro ⟨k, counts, positive, small⟩
      obtain ⟨points, rfl, encoded⟩ := Utf8.counts_iff_encoding.1 counts
      exact ⟨points, encoded, positive, small⟩
    · rintro ⟨points, encoded, positive, small⟩
      exact ⟨points.length, Utf8.counts_iff_encoding.2 ⟨points, rfl, encoded⟩, positive, small⟩
  refine ⟨?_, bounded, ?_, isUuid_and_isLowerHex s, ?_, isStable_eq s, isDigest_eq s⟩
  · rw [isUtf8ScalarString_eq]
    exact bounded
  · intro version
    exact isUuid_eq s (isLowerHex_versionByte version)
  · rw [canonicalJobId_eq]
    exact (isUuid_eq s rfl).symm

theorem wellFormed_of_ascii {s : Bytes} (ascii : ∀ b ∈ s, b ≤ 0x7F) : Utf8.WellFormed s :=
  ⟨s.length, .ascii ascii⟩

theorem ascii_of_class : ∀ c : UInt8, (isLowerHex c || isDigit c || (Core.isAsciiAlphanumeric c || decide (c = byte '.') ||
    decide (c = byte '_') || decide (c = byte ':') || decide (c = byte '-'))) = true → c ≤ 0x7F :=
  of_each_byte (by decide +kernel)

theorem isLowerHex_ascii {c : UInt8} (hex : isLowerHex c = true) : c ≤ 0x7F := ascii_of_class c (by simp [hex])

theorem isDigit_ascii {c : UInt8} (digit : isDigit c = true) : c ≤ 0x7F := ascii_of_class c (by simp [digit])

theorem wellFormed_of_getD {s : Bytes} (each : ∀ i < s.length, s.getD i 0 ≤ 0x7F) : Utf8.WellFormed s := by
  refine wellFormed_of_ascii fun b member => ?_
  obtain ⟨i, small, rfl⟩ := List.getElem_of_mem member
  simpa [List.getElem?_eq_getElem small] using each i small

theorem isUuid_wellFormed {s : Bytes} {version : UInt8} (ascii : version ≤ 0x7F)
    (accepted : isUuid s version = true) : Utf8.WellFormed s := by
  obtain ⟨length, each⟩ := isUuid_iff.1 accepted
  refine wellFormed_of_getD fun i small => ?_
  have byte := each i (length ▸ small)
  rw [isUuidByte] at byte
  split_ifs at byte
  · rw [of_decide_eq_true byte]; decide
  · rw [of_decide_eq_true byte]; exact ascii
  · simp only [Bool.or_eq_true, decide_eq_true_eq] at byte
    rcases byte with ((h | h) | h) | h <;> rw [h] <;> decide
  · exact isLowerHex_ascii byte

theorem isSha256_wellFormed {s : Bytes} (accepted : isSha256 s = true) : Utf8.WellFormed s := by
  simp only [isSha256, Bool.and_eq_true, List.all_eq_true] at accepted
  exact wellFormed_of_ascii fun b member => isLowerHex_ascii (accepted.2 b member)

theorem isStableId_wellFormed {s : Bytes} (accepted : isStableId s = true) : Utf8.WellFormed s := by
  rw [← isStable_eq, Core.isStable] at accepted
  split at accepted
  next => cases accepted
  next =>
    refine wellFormed_of_ascii fun b member => ?_
    apply ascii_of_class
    rw [List.all_eq_true.1 accepted b member, Bool.or_true]

theorem boundedText_wellFormed {s : Bytes} {maxChars : Nat} (accepted : boundedText s maxChars = true) :
    Utf8.WellFormed s := by
  obtain ⟨n, counts, -⟩ := boundedText_iff.1 accepted
  exact ⟨n, counts⟩

theorem twoDigits_ascii {s : Bytes} {i min max : Nat} (accepted : twoDigits s i min max = true) :
    s.getD i 0 ≤ 0x7F ∧ s.getD (i + 1) 0 ≤ 0x7F := by
  rw [twoDigits] at accepted
  split at accepted
  next => cases accepted
  next =>
    split at accepted
    next => cases accepted
    next digits =>
      simp only [Bool.or_eq_true, Bool.not_eq_true', not_or, Bool.not_eq_false] at digits
      exact ⟨isDigit_ascii digits.1, isDigit_ascii digits.2⟩

theorem isRfc3339Offset_ascii {s : Bytes} {i : Nat} (accepted : isRfc3339Offset s i = true) :
    ∀ k, i ≤ k → k < s.length → s.getD k 0 ≤ 0x7F := by
  intro k above small
  rw [isRfc3339Offset] at accepted
  split at accepted
  next => cases accepted
  next =>
    split at accepted
    next zulu =>
      obtain rfl : k = i := by
        have := of_decide_eq_true accepted
        omega
      simp only [Bool.or_eq_true, decide_eq_true_eq] at zulu
      rcases zulu with h | h <;> rw [h] <;> decide
    next =>
      split at accepted
      next => cases accepted
      next sign =>
        simp only [Bool.and_eq_true, decide_eq_true_eq] at accepted
        obtain ⟨⟨⟨length, hours⟩, colon⟩, minutes⟩ := accepted
        have hours := twoDigits_ascii hours
        have minutes := twoDigits_ascii minutes
        obtain rfl | rfl | rfl | rfl | rfl | rfl :
            k = i ∨ k = i + 1 ∨ k = i + 2 ∨ k = i + 3 ∨ k = i + 4 ∨ k = i + 5 := by omega
        · have signed : s.getD k 0 = byte '+' ∨ s.getD k 0 = byte '-' := by
            by_contra neither
            exact sign (by simpa [not_or] using neither)
          rcases signed with h | h <;> rw [h] <;> decide
        · exact hours.1
        · exact hours.2
        · rw [colon]; decide
        · exact minutes.1
        · exact minutes.2

theorem getD_mem_take {s : Bytes} {k n : Nat} (below : k < n) (small : k < s.length) :
    s.getD k 0 ∈ s.take n := by
  rw [List.mem_take_iff_getElem]
  exact ⟨k, by omega, by simp [List.getElem?_eq_getElem small]⟩

theorem isRfc3339_parts {s : Bytes} (accepted : isRfc3339 s = true) :
    20 ≤ s.length ∧ (∀ k < 19, s.getD k 0 ≤ 0x7F) ∧
      ((s.getD 19 0 = byte '.' ∧ isRfc3339Offset s (20 + ((s.drop 20).takeWhile isDigit).length) = true) ∨
        isRfc3339Offset s 19 = true) := by
  rw [isRfc3339] at accepted
  split at accepted
  next => cases accepted
  next long =>
    split at accepted
    next => cases accepted
    next year =>
      split at accepted
      next => cases accepted
      next separators =>
        split at accepted
        next => cases accepted
        next =>
          simp only [Bool.or_eq_true, Bool.and_eq_true, not_or, Bool.not_eq_true', Bool.not_eq_false,
            decide_eq_true_eq, ne_eq, not_not, not_and] at separators year
          obtain ⟨⟨⟨⟨⟨⟨⟨⟨⟨h4, h5⟩, h7⟩, h8⟩, h10⟩, h11⟩, h13⟩, h14⟩, h16⟩, h17⟩ := separators
          refine ⟨by omega, fun k small => ?_, ?_⟩
          · by_cases inYear : k < 4
            · exact isDigit_ascii (List.all_eq_true.1 year.1 _ (getD_mem_take inYear (by omega)))
            have h5 := twoDigits_ascii h5
            have h8 := twoDigits_ascii h8
            have h11 := twoDigits_ascii h11
            have h14 := twoDigits_ascii h14
            have h17 := twoDigits_ascii h17
            have h10 : s.getD 10 0 ≤ 0x7F := by
              by_cases upper : s.getD 10 0 = byte 'T'
              · rw [upper]; decide
              · rw [h10 upper]; decide
            have separator {c : UInt8} (ascii : c ≤ 0x7F) {i : Nat} (h : s.getD i 0 = c) : s.getD i 0 ≤ 0x7F :=
              h ▸ ascii
            interval_cases k
            case «4» => exact separator (by decide) h4
            case «5» => exact h5.1
            case «6» => exact h5.2
            case «7» => exact separator (by decide) h7
            case «8» => exact h8.1
            case «9» => exact h8.2
            case «10» => exact h10
            case «11» => exact h11.1
            case «12» => exact h11.2
            case «13» => exact separator (by decide) h13
            case «14» => exact h14.1
            case «15» => exact h14.2
            case «16» => exact separator (by decide) h16
            case «17» => exact h17.1
            case «18» => exact h17.2
          · split at accepted
            next point => exact .inl ⟨point, by simpa using (Bool.and_eq_true_iff.1 accepted).2⟩
            next => exact .inr accepted

theorem isRfc3339_wellFormed {s : Bytes} (accepted : isRfc3339 s = true) : Utf8.WellFormed s := by
  obtain ⟨long, start, rest⟩ := isRfc3339_parts accepted
  refine wellFormed_of_getD fun k small => ?_
  by_cases early : k < 19
  · exact start k early
  rcases rest with ⟨point, offset⟩ | offset
  · by_cases first : k = 19
    · rw [first, point]; decide
    by_cases fraction : k < 20 + ((s.drop 20).takeWhile isDigit).length
    · obtain ⟨j, rfl⟩ : ∃ j, k = 20 + j := ⟨k - 20, by omega⟩
      have inside : j < ((s.drop 20).takeWhile isDigit).length := by omega
      have digit := List.mem_takeWhile_imp (List.getElem_mem inside)
      rw [(List.takeWhile_prefix isDigit).getElem inside, List.getElem_drop] at digit
      simpa [List.getElem?_eq_getElem small] using isDigit_ascii digit
    · exact isRfc3339Offset_ascii offset k (by omega) small
  · exact isRfc3339Offset_ascii offset k (by omega) small

end Sitometron.Journal
