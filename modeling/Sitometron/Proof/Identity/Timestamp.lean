import Sitometron.Journal.Codec
import Sitometron.Lib.Gregorian
import Sitometron.Proof.Identity.Scale

/-!
# Timestamps of the production clock

What `FormatRecordedAt` writes denotes the instant rounded down to a millisecond. The record codec accepts it, except in the
year 0000, which the clock writes and the codec refuses.
-/

namespace Sitometron.Identity

open Gregorian Journal

section Fields

variable {width n : Nat} {before after : Bytes}

theorem putDigits_field {offset : Nat} (at_ : before.length = offset) (positive : 0 < width) (narrow : width ≤ 4)
    (fits : n < 10 ^ width) :
    putDigits (before ++ (List.replicate width (byte '0') ++ after)) ⟨offset, width⟩ n = .ok (before ++ (padded width n ++ after)) := by
  have short := (decimal_length_le positive).2 fits
  have inside : ¬(decide ((decimal n).length > width) ||
      decide (offset > (before ++ (List.replicate width (byte '0') ++ after)).length) ||
      decide (width > (before ++ (List.replicate width (byte '0') ++ after)).length - offset)) = true := by
    simp only [List.length_append, List.length_replicate, Bool.or_eq_true, decide_eq_true_eq]
    omega
  have small : ¬(decimal n).length > 4 := by omega
  have parts : List.replicate width (byte '0') =
      List.replicate (width - (decimal n).length) (byte '0') ++ List.replicate (decimal n).length (byte '0') := by
    rw [← List.replicate_add]
    congr 1
    omega
  have start : (before ++ List.replicate (width - (decimal n).length) (byte '0')).length = offset + width - (decimal n).length := by
    rw [List.length_append, List.length_replicate, at_]
    omega
  unfold putDigits
  dsimp only
  rw [if_neg small, if_neg inside, parts, padded]
  generalize List.replicate (width - (decimal n).length) (byte '0') = zeros at start parts
  generalize covered : List.replicate (decimal n).length (byte '0') = digits at parts
  have length : digits.length = (decimal n).length := by rw [← covered, List.length_replicate]
  have kept : (before ++ (zeros ++ digits ++ after)).take (offset + width - (decimal n).length) = before ++ zeros := by
    rw [List.append_assoc, ← List.append_assoc]
    exact List.take_left' start
  have rest : (before ++ (zeros ++ digits ++ after)).drop (offset + width - (decimal n).length + (decimal n).length) = after := by
    rw [← List.append_assoc, ← List.append_assoc]
    exact List.drop_left' (by rw [List.length_append, start, length])
  rw [kept, rest]
  simp only [List.append_assoc]

theorem putDigits_next {done literal separator rest : Bytes} {offset : Nat} (fields : done.length + separator.length = offset)
    (zeros : literal = separator ++ (List.replicate width (byte '0') ++ rest)) (positive : 0 < width) (narrow : width ≤ 4)
    (fits : n < 10 ^ width) :
    putDigits (done ++ literal) ⟨offset, width⟩ n = .ok (done ++ separator ++ padded width n ++ rest) := by
  have put := @putDigits_field width n (done ++ separator) rest offset (by rw [List.length_append, fields]) positive narrow fits
  rw [zeros, ← List.append_assoc, put, List.append_assoc _ (padded width n)]

end Fields

def stamp (y m d hour minute second ms : Nat) : Bytes :=
  padded 4 y ++ text "-" ++ padded 2 m ++ text "-" ++ padded 2 d ++ text "T" ++ padded 2 hour ++ text ":" ++
    padded 2 minute ++ text ":" ++ padded 2 second ++ text "." ++ padded 3 ms ++ text "Z"

theorem formatFields_eq {date : Date} {time : Nat} (year : 0 ≤ date.year ∧ date.year < 10000) (month : date.month < 10 ^ 2)
    (day : date.day < 10 ^ 2) (inside : time < 86400000) :
    formatFields date time = .ok (stamp date.year.toNat date.month date.day (time / 3600000) (time / 60000 % 60)
      (time / 1000 % 60) (time % 1000)) := by
  have value : (date.year % 2 ^ 32).toNat = date.year.toNat := by omega
  have years : date.year.toNat < 10 ^ 4 := by omega
  have hours : time / 3600000 < 10 ^ 2 := by omega
  have minutes : time / 60000 % 60 < 10 ^ 2 := by omega
  have seconds : time / 1000 % 60 < 10 ^ 2 := by omega
  have millis : time % 1000 < 10 ^ 3 := by omega
  -- Each field goes over the zeros of the template, after the text that is done.
  have first := @putDigits_next 4 _ [] (text "0000-00-00T00:00:00.000Z") [] (text "-00-00T00:00:00.000Z") 0 rfl rfl
    (by decide) (by decide) years
  have second (done : Bytes) (at_ : done.length = 4) := @putDigits_next 2 _ done (text "-00-00T00:00:00.000Z") (text "-")
    (text "-00T00:00:00.000Z") 5 (by rw [at_]; rfl) rfl (by decide) (by decide) month
  have third (done : Bytes) (at_ : done.length = 7) := @putDigits_next 2 _ done (text "-00T00:00:00.000Z") (text "-")
    (text "T00:00:00.000Z") 8 (by rw [at_]; rfl) rfl (by decide) (by decide) day
  have fourth (done : Bytes) (at_ : done.length = 10) := @putDigits_next 2 _ done (text "T00:00:00.000Z") (text "T")
    (text ":00:00.000Z") 11 (by rw [at_]; rfl) rfl (by decide) (by decide) hours
  have fifth (done : Bytes) (at_ : done.length = 13) := @putDigits_next 2 _ done (text ":00:00.000Z") (text ":")
    (text ":00.000Z") 14 (by rw [at_]; rfl) rfl (by decide) (by decide) minutes
  have sixth (done : Bytes) (at_ : done.length = 16) := @putDigits_next 2 _ done (text ":00.000Z") (text ":")
    (text ".000Z") 17 (by rw [at_]; rfl) rfl (by decide) (by decide) seconds
  have seventh (done : Bytes) (at_ : done.length = 19) := @putDigits_next 3 _ done (text ".000Z") (text ".")
    (text "Z") 20 (by rw [at_]; rfl) rfl (by decide) (by decide) millis
  have lengths : (padded 4 date.year.toNat).length = 4 ∧ (padded 2 date.month).length = 2 ∧ (padded 2 date.day).length = 2 ∧
      (padded 2 (time / 3600000)).length = 2 ∧ (padded 2 (time / 60000 % 60)).length = 2 ∧
      (padded 2 (time / 1000 % 60)).length = 2 :=
    ⟨padded_length (by decide) years, padded_length (by decide) month, padded_length (by decide) day,
      padded_length (by decide) hours, padded_length (by decide) minutes, padded_length (by decide) seconds⟩
  obtain ⟨y, mo, d, h, mi, sec⟩ := lengths
  unfold formatFields
  rw [value, show text "0000-00-00T00:00:00.000Z" = [] ++ text "0000-00-00T00:00:00.000Z" from rfl, first, bind_ok,
    List.nil_append, List.nil_append, second _ y, bind_ok, third _ (by simp [y, mo, text]), bind_ok,
    fourth _ (by simp [y, mo, d, text]), bind_ok, fifth _ (by simp [y, mo, d, h, text]), bind_ok,
    sixth _ (by simp [y, mo, d, h, mi, text]), bind_ok, seventh _ (by simp [y, mo, d, h, mi, sec, text]), stamp]

theorem padded_two {n : Nat} (fits : n < 10 ^ 2) : ∃ a b, padded 2 n = [a, b] ∧ isDigit a = true ∧ isDigit b = true ∧
    digitValue a * 10 + digitValue b = n := by
  have value := ofDecimal_padded 2 n
  obtain ⟨a, b, shape⟩ := List.length_eq_two.1 (padded_length (by decide) fits)
  have digits (c : UInt8) (member : c ∈ padded 2 n) : isDigit c = true := padded_isDigit c member
  rw [shape] at value digits
  refine ⟨a, b, shape, digits a (by simp), digits b (by simp), ?_⟩
  simp only [ofDecimal, List.foldl_cons, List.foldl_nil] at value
  omega

theorem padded_four {n : Nat} (fits : n < 10 ^ 4) : ∃ a b c d, padded 4 n = [a, b, c, d] ∧ (padded 4 n).all isDigit = true ∧
    ofDecimal [a, b, c, d] = n := by
  have value := ofDecimal_padded 4 n
  have all : (padded 4 n).all isDigit = true := List.all_eq_true.2 padded_isDigit
  have length := padded_length (by decide) fits
  match shape : padded 4 n, length with
  | [a, b, c, d], _ => exact ⟨a, b, c, d, rfl, shape ▸ all, shape ▸ value⟩

theorem padded_three {n : Nat} (fits : n < 10 ^ 3) : ∃ a b c, padded 3 n = [a, b, c] ∧ isDigit a = true ∧ isDigit b = true ∧
    isDigit c = true := by
  obtain ⟨a, b, c, shape⟩ := List.length_eq_three.1 (padded_length (by decide) fits)
  have digits (c : UInt8) (member : c ∈ padded 3 n) : isDigit c = true := padded_isDigit c member
  rw [shape] at digits
  exact ⟨a, b, c, shape, digits a (by simp), digits b (by simp), digits c (by simp)⟩

theorem isLeapYear_eq (y : Nat) : isLeapYear y = isLeap y := rfl

theorem daysInMonth_eq {y m : Nat} (month : 1 ≤ m ∧ m ≤ 12) : daysInMonth m (isLeap y) = monthLength y m := by
  obtain ⟨first, last⟩ := month
  unfold daysInMonth monthLength
  cases isLeap y <;> interval_cases m <;> rfl

theorem twoDigits_of {s : Bytes} {i min max n : Nat} {a b : UInt8} (inside : i + 2 ≤ s.length) (first : s.getD i 0 = a)
    (second : s.getD (i + 1) 0 = b) (digit : isDigit a = true) (digit' : isDigit b = true)
    (value : digitValue a * 10 + digitValue b = n) (range : min ≤ n ∧ n ≤ max) : twoDigits s i min max = true := by
  rw [twoDigits, if_neg (Nat.not_lt.2 inside), twoDigitValue, first, second, digit, digit', value]
  simpa using range

theorem isRfc3339_of {s : Bytes} (length : s.length = 24) (digits : (s.take 4).all isDigit = true) (year : ofDecimal (s.take 4) ≠ 0)
    (dashes : s.getD 4 0 = byte '-' ∧ s.getD 7 0 = byte '-') (colons : s.getD 13 0 = byte ':' ∧ s.getD 16 0 = byte ':')
    (middle : s.getD 10 0 = byte 'T') (point : s.getD 19 0 = byte '.') (last : s.getD 23 0 = byte 'Z')
    (month : twoDigits s 5 1 12 = true) (day : twoDigits s 8 1 31 = true) (hour : twoDigits s 11 0 23 = true)
    (minute : twoDigits s 14 0 59 = true) (second : twoDigits s 17 0 59 = true)
    (exists_ : twoDigitValue s 8 ≤ daysInMonth (twoDigitValue s 5) (isLeapYear (ofDecimal (s.take 4))))
    (fraction : ((s.drop 20).takeWhile isDigit).length = 3) : isRfc3339 s = true := by
  have ends : isRfc3339Offset s 23 = true := by
    rw [isRfc3339Offset, length, last]
    rfl
  rw [isRfc3339, if_neg (by omega), digits, if_neg (by simpa using year), dashes.1, dashes.2, colons.1, colons.2, middle, month, day,
    hour, minute, second, if_neg (by decide), if_neg (Nat.not_lt.2 exists_), if_pos point]
  dsimp only
  rw [fraction]
  simpa using ends

theorem monthLength_le (y m : Nat) : monthLength y m ≤ 31 := by
  unfold monthLength
  repeat' split
  all_goals decide

theorem isRfc3339_stamp {y m d hour minute second ms : Nat} (year : y < 10000) (date : IsDate y m d) (hours : hour < 24)
    (minutes : minute < 60) (seconds : second < 60) (millis : ms < 1000) :
    isRfc3339 (stamp y m d hour minute second ms) = decide (y ≠ 0) := by
  obtain ⟨month, day⟩ := date
  have short := monthLength_le y m
  obtain ⟨y1, y2, y3, y4, yearShape, yearDigits, yearValue⟩ := padded_four (n := y) (by omega)
  obtain ⟨m1, m2, monthShape, monthDigit, monthDigit', monthValue⟩ := padded_two (n := m) (by omega)
  obtain ⟨d1, d2, dayShape, dayDigit, dayDigit', dayValue⟩ := padded_two (n := d) (by omega)
  obtain ⟨h1, h2, hourShape, hourDigit, hourDigit', hourValue⟩ := padded_two (n := hour) (by omega)
  obtain ⟨i1, i2, minuteShape, minuteDigit, minuteDigit', minuteValue⟩ := padded_two (n := minute) (by omega)
  obtain ⟨s1, s2, secondShape, secondDigit, secondDigit', secondValue⟩ := padded_two (n := second) (by omega)
  obtain ⟨f1, f2, f3, milliShape, milliDigit, milliDigit', milliDigit''⟩ := padded_three (n := ms) (by omega)
  rw [yearShape] at yearDigits
  rw [stamp, yearShape, monthShape, dayShape, hourShape, minuteShape, secondShape, milliShape]
  have list : [y1, y2, y3, y4] ++ text "-" ++ [m1, m2] ++ text "-" ++ [d1, d2] ++ text "T" ++ [h1, h2] ++ text ":" ++ [i1, i2] ++
      text ":" ++ [s1, s2] ++ text "." ++ [f1, f2, f3] ++ text "Z" = [y1, y2, y3, y4, byte '-', m1, m2, byte '-', d1, d2,
        byte 'T', h1, h2, byte ':', i1, i2, byte ':', s1, s2, byte '.', f1, f2, f3, byte 'Z'] := by
    have dash : text "-" = [byte '-'] := rfl
    have colon : text ":" = [byte ':'] := rfl
    have middle : text "T" = [byte 'T'] := rfl
    have point : text "." = [byte '.'] := rfl
    have last : text "Z" = [byte 'Z'] := rfl
    simp only [dash, colon, middle, point, last, List.cons_append, List.nil_append]
  rw [list]
  generalize whole : [y1, y2, y3, y4, byte '-', m1, m2, byte '-', d1, d2, byte 'T', h1, h2, byte ':', i1, i2, byte ':', s1, s2,
    byte '.', f1, f2, f3, byte 'Z'] = s
  have length : s.length = 24 := by rw [← whole]; rfl
  have taken : s.take 4 = [y1, y2, y3, y4] := by rw [← whole]; rfl
  by_cases zero : y = 0
  · rw [isRfc3339, if_neg (by omega), taken, yearValue, if_pos (by simp [zero])]
    simp [zero]
  have accepted : isRfc3339 s = true := by
    subst whole
    apply isRfc3339_of length yearDigits (by rw [taken, yearValue]; exact zero) ⟨rfl, rfl⟩ ⟨rfl, rfl⟩ rfl rfl rfl
    · exact twoDigits_of (by simp) rfl rfl monthDigit monthDigit' monthValue (by omega)
    · exact twoDigits_of (by simp) rfl rfl dayDigit dayDigit' dayValue (by omega)
    · exact twoDigits_of (by simp) rfl rfl hourDigit hourDigit' hourValue (by omega)
    · exact twoDigits_of (by simp) rfl rfl minuteDigit minuteDigit' minuteValue (by omega)
    · exact twoDigits_of (by simp) rfl rfl secondDigit secondDigit' secondValue (by omega)
    · change digitValue d1 * 10 + digitValue d2 ≤ daysInMonth (digitValue m1 * 10 + digitValue m2) (isLeapYear (ofDecimal [y1, y2, y3, y4]))
      rw [yearValue, monthValue, dayValue, isLeapYear_eq, daysInMonth_eq month]
      exact day.2
    · change ([f1, f2, f3, byte 'Z'].takeWhile isDigit).length = 3
      have stops : isDigit (byte 'Z') = false := rfl
      simp [milliDigit, milliDigit', milliDigit'', stops]
  rw [accepted]
  simpa using zero

def epochDay : Nat := 719528

structure Calendar.Correct (calendar : Calendar) : Prop where
  daysOf : ∀ y m d, IsDate y m d → calendar.daysOf ⟨y, m, d⟩ = dayNumber y m d - epochDay
  dateOf : ∀ n : Nat, ∃ y m d, IsDate y m d ∧ dayNumber y m d = n ∧ calendar.dateOf (n - epochDay) = ⟨y, m, d⟩

def floorMs (instant : TickInstant) : Int :=
  instant.ticks.toInt * instant.period.numerator.toNat * 1000 / instant.period.denominator.toNat

/-- The text is that of a date and a time of day, and these are that many milliseconds after the epoch. -/
def Denotes (s : Bytes) (ms : Int) : Prop :=
  ∃ y m d hour minute second milli, s = stamp y m d hour minute second milli ∧ y < 10000 ∧ IsDate y m d ∧ hour < 24 ∧ minute < 60 ∧
    second < 60 ∧ milli < 1000 ∧
    ms = (dayNumber y m d - epochDay : Int) * 86400000 + hour * 3600000 + minute * 60000 + second * 1000 + milli

theorem magnitude_toNat (value : Int64) : (magnitude value).toNat = value.toInt.natAbs := by
  have lower := value.le_toInt
  have upper := value.toInt_lt
  unfold magnitude
  split
  next negative =>
    rw [Int64.lt_iff_toInt_lt, Int64.toInt_zero] at negative
    have next : (value + 1).toInt = value.toInt + 1 := by
      rw [Int64.toInt_add]
      exact Int.bmod_eq_of_le (by change _ ≤ value.toInt + 1; omega) (by change value.toInt + 1 < _; omega)
    have turned : (-(value + 1)).toInt = -(value.toInt + 1) := by
      rw [Int64.toInt_neg, next]
      exact Int.bmod_eq_of_le (by omega) (by omega)
    have word := SystemClock.toNat_toUInt64_cases (-(value + 1))
    rw [UInt64.toNat_add]
    change (_ + 1) % 2 ^ 64 = _
    omega
  next positive =>
    rw [Int64.lt_iff_toInt_lt, Int64.toInt_zero] at positive
    have word := SystemClock.toNat_toUInt64_cases value
    omega

theorem toInt64_toInt {size : UInt64} (small : size.toNat < 2 ^ 63) : size.toInt64.toInt = size.toNat := by
  rcases SystemClock.toNat_toUInt64_cases size.toInt64 with ⟨-, same⟩ | ⟨negative, same⟩
  · exact same
  · have bound := size.toInt64.le_toInt
    have word : size.toInt64.toUInt64.toNat = size.toNat := rfl
    omega

theorem neg_ediv_floor (a : Nat) {d : Nat} (positive : 0 < d) :
    (-(a : Int)) / d = -((a / d + if a % d ≠ 0 then 1 else 0 : Nat) : Int) := by
  have parts := Nat.div_add_mod a d
  have below := Nat.mod_lt a positive
  generalize a / d = q at parts ⊢
  generalize a % d = r at parts below ⊢
  subst parts
  split
  next inexact =>
    have moved : (-((d * q + r : Nat) : Int)) = (d - r) + -((q + 1 : Nat) : Int) * d := by
      push_cast
      ring
    rw [moved, Int.add_mul_ediv_right _ _ (by omega), Int.ediv_eq_zero_of_lt (by omega) (by omega), Int.zero_add]
  next exact_ =>
    have zero : r = 0 := by omega
    have moved : (-((d * q + r : Nat) : Int)) = -(q : Int) * d := by
      push_cast
      rw [zero]
      ring
    rw [moved, Int.mul_ediv_cancel _ (by omega), Nat.add_zero]

section Formatted

variable {calendar : Calendar} {instant : TickInstant} {s : Bytes}

theorem kFirst_magnitude (correct : calendar.Correct) : (magnitude (kFirst calendar)).toNat = 62167219200000 := by
  have date : IsDate 0 1 1 := ⟨by decide, by decide⟩
  have days := correct.daysOf 0 1 1 date
  rw [magnitude_toNat, kFirst]
  change calendar.daysOf ⟨0, 1, 1⟩ = _ at days
  rw [days]
  decide

theorem kAfterLast_toNat (correct : calendar.Correct) : (kAfterLast calendar).toUInt64.toNat = 253402300800000 := by
  have date : IsDate 10000 1 1 := ⟨by decide, by decide⟩
  have days := correct.daysOf 10000 1 1 date
  rw [kAfterLast]
  change calendar.daysOf ⟨10000, 1, 1⟩ = _ at days
  rw [days]
  decide

theorem scale_periods {m units : UInt64} {period : TickPeriod} {scaled : Scaled} (ran : scale m period units = .ok scaled) :
    0 < period.numerator.toNat ∧ 0 < period.denominator.toNat := by
  by_cases zero : period.numerator = 0 ∨ period.denominator = 0
  · have refused : validatePeriod period = .error ⟨.invalidArgument, "sample tick period must be positive"⟩ := by
      rw [validatePeriod, if_pos (by simpa using zero)]
    rw [scale, refused, bind_error] at ran
    cases ran
  · obtain ⟨numerator, denominator⟩ := not_or.1 zero
    constructor
    · exact Nat.pos_of_ne_zero fun none => numerator (UInt64.toNat.inj none)
    · exact Nat.pos_of_ne_zero fun none => denominator (UInt64.toNat.inj none)

/-- The size of the instant in milliseconds: rounded up before the epoch, so that the instant itself is rounded down. -/
theorem floorMs_eq {scaled : Scaled} {size : UInt64} (ran : scale (magnitude instant.ticks) instant.period 1000 = .ok scaled)
    (added : checkedAdd scaled.whole (if instant.ticks < 0 && scaled.fractional then 1 else 0) = .ok size) :
    floorMs instant = if instant.ticks < 0 then -(size.toNat : Int) else size.toNat := by
  obtain ⟨numerated, denominated⟩ := scale_periods ran
  have sized : size.toNat = scaled.whole.toNat + if instant.ticks < 0 ∧ scaled.fractional = true then 1 else 0 := by
    rcases checkedAdd_spec scaled.whole (if instant.ticks < 0 && scaled.fractional then 1 else 0) with ⟨sum, room⟩ | ⟨⟨e, failed⟩, -⟩
    · rw [sum] at added
      cases added
      rw [UInt64.toNat_add, Nat.mod_eq_of_lt room]
      split <;> simp_all
    · rw [failed] at added
      cases added
  have ticks := magnitude_toNat instant.ticks
  have sign : instant.ticks < 0 ↔ instant.ticks.toInt < 0 := by rw [Int64.lt_iff_toInt_lt, Int64.toInt_zero]
  rcases scale_spec (magnitude instant.ticks) numerated denominated (show 0 < (1000 : UInt64).toNat by decide) with
    ⟨answer, same, whole, fraction⟩ | ⟨⟨e, failed⟩, -⟩
  · rw [ran] at same
    cases same
    change _ = _ * 1000 / _ at whole
    change _ = decide (_ * 1000 % _ ≠ 0) at fraction
    unfold floorMs
    split
    next before =>
      have below := sign.1 before
      have negative : instant.ticks.toInt = -((magnitude instant.ticks).toNat : Int) := by omega
      have product : instant.ticks.toInt * instant.period.numerator.toNat * 1000 =
          -(((magnitude instant.ticks).toNat * instant.period.numerator.toNat * 1000 : Nat) : Int) := by
        rw [negative]
        push_cast
        ring
      rw [product, neg_ediv_floor _ denominated, sized, whole, fraction]
      simp [before]
    next after =>
      have above := sign.not.1 after
      have positive : instant.ticks.toInt = ((magnitude instant.ticks).toNat : Int) := by omega
      rw [positive, sized, whole]
      simp [after]
  · rw [ran] at failed
    cases failed

theorem formatRecordedAt_fields (correct : calendar.Correct) (formatted : formatRecordedAt calendar instant = .ok s) :
    -62167219200000 ≤ floorMs instant ∧ floorMs instant < 253402300800000 ∧
      formatFields (calendar.dateOf (floorMs instant / msPerDay)) (floorMs instant - floorMs instant / msPerDay * msPerDay).toNat =
        .ok s := by
  have first := kFirst_magnitude correct
  have last := kAfterLast_toNat correct
  unfold formatRecordedAt at formatted
  cases ran : scale (magnitude instant.ticks) instant.period 1000 with
  | error e =>
      rw [ran, bind_error] at formatted
      cases formatted
  | ok scaled =>
      rw [ran, bind_ok] at formatted
      dsimp only at formatted
      cases added : checkedAdd scaled.whole (if instant.ticks < 0 && scaled.fractional then 1 else 0) with
      | error e =>
          rw [added, bind_error] at formatted
          cases formatted
      | ok size =>
          rw [added, bind_ok] at formatted
          have value := floorMs_eq ran added
          by_cases before : instant.ticks < 0
          · rw [if_pos before] at value
            by_cases outside : size > magnitude (kFirst calendar)
            · rw [if_pos (by simp [before, outside])] at formatted
              cases formatted
            · rw [if_neg (by simp [before, outside])] at formatted
              have small : size.toNat ≤ 62167219200000 := by
                rw [← first]
                exact UInt64.le_iff_toNat_le.1 (UInt64.not_lt.1 outside)
              have signed : (-size.toInt64).toInt = floorMs instant := by
                rw [Int64.toInt_neg, toInt64_toInt (by omega), value]
                exact Int.bmod_eq_of_le (by omega) (by omega)
              rw [if_pos (by simp [before]), signed] at formatted
              exact ⟨by omega, by omega, formatted⟩
          · rw [if_neg before] at value
            by_cases outside : size ≥ (kAfterLast calendar).toUInt64
            · rw [if_pos (by simp [before, outside])] at formatted
              cases formatted
            · rw [if_neg (by simp [before, outside])] at formatted
              have small : size.toNat < 253402300800000 := by
                rw [← last]
                exact UInt64.lt_iff_toNat_lt.1 (UInt64.not_le.1 outside)
              have signed : size.toInt64.toInt = floorMs instant := by rw [toInt64_toInt (by omega), value]
              rw [if_neg (by simp [before]), signed] at formatted
              exact ⟨by omega, by omega, formatted⟩

def yearOne : Int := -62135596800000

theorem recordedAt_accepted (correct : calendar.Correct) (formatted : formatRecordedAt calendar instant = .ok s) :
    Denotes s (floorMs instant) ∧ (isRfc3339 s = true ↔ yearOne ≤ floorMs instant) := by
  obtain ⟨low, high, fields⟩ := formatRecordedAt_fields correct formatted
  generalize floorMs instant = ms at low high fields
  have day : ((ms / msPerDay + epochDay).toNat : Int) - epochDay = ms / msPerDay := by
    unfold msPerDay epochDay
    omega
  obtain ⟨y, m, d, date, number, dated⟩ := correct.dateOf (ms / msPerDay + epochDay).toNat
  rw [day] at dated
  have year : y < 10000 := by
    apply date.year_lt
    have end_ : yearStart 10000 = 3652425 := rfl
    rw [number, end_]
    unfold msPerDay epochDay
    omega
  have inside : (ms - ms / msPerDay * msPerDay).toNat < 86400000 := by
    unfold msPerDay
    omega
  have short := monthLength_le y m
  have months := date.month
  have days := date.day
  rw [dated, formatFields_eq ⟨by dsimp only; omega, by dsimp only; omega⟩ (by dsimp only; omega) (by dsimp only; omega) inside] at fields
  rw [Except.ok.injEq, Int.toNat_natCast] at fields
  subst fields
  dsimp only
  generalize time : (ms - ms / msPerDay * msPerDay).toNat = t at inside ⊢
  have hours : t / 3600000 < 24 := by omega
  have minutes : t / 60000 % 60 < 60 := Nat.mod_lt _ (by decide)
  have seconds : t / 1000 % 60 < 60 := Nat.mod_lt _ (by decide)
  have millis : t % 1000 < 1000 := Nat.mod_lt _ (by decide)
  constructor
  · refine ⟨y, m, d, _, _, _, _, rfl, year, date, hours, minutes, seconds, millis, ?_⟩
    rw [number, day]
    unfold msPerDay at time ⊢
    omega
  · rw [isRfc3339_stamp year date hours minutes seconds millis, decide_eq_true_eq]
    have start : yearStart 1 = 366 := rfl
    unfold yearOne
    constructor
    · intro nonzero
      by_contra early
      have below : dayNumber y m d < yearStart 1 := by
        rw [number, start]
        unfold msPerDay epochDay
        omega
      have zero := date.year_lt below
      omega
    · intro late zero
      have above : yearStart 1 ≤ dayNumber y m d := by
        rw [number, start]
        unfold msPerDay epochDay
        omega
      have positive := date.le_year above
      omega

end Formatted

def gregorian : Calendar where
  daysOf date := dayNumber date.year.toNat date.month date.day - epochDay
  dateOf n :=
    let (y, m, d) := Gregorian.dateOf (n + epochDay).toNat
    ⟨y, m, d⟩

theorem gregorian_correct : gregorian.Correct where
  daysOf y m d _ := rfl
  dateOf n := by
    obtain ⟨valid, number⟩ := dateOf_isDate n
    refine ⟨_, _, _, valid, number, ?_⟩
    have day : ((n : Int) - epochDay + epochDay).toNat = n := by omega
    unfold gregorian
    dsimp only
    rw [day]

/-- The first instants of the years 1 and 0 as they are written. -/
theorem gregorian_formats :
    formatRecordedAt gregorian ⟨-62135596800, ⟨1, 1⟩⟩ = .ok (text "0001-01-01T00:00:00.000Z") ∧
      formatRecordedAt gregorian ⟨-62167219200, ⟨1, 1⟩⟩ = .ok (text "0000-01-01T00:00:00.000Z") ∧
      isRfc3339 (text "0000-01-01T00:00:00.000Z") = false := by decide +kernel

/-- The first instant of the year 1 is written as the codec accepts it. -/
theorem recordedAt_accepted_yearOne :
    Denotes (text "0001-01-01T00:00:00.000Z") (floorMs ⟨-62135596800, ⟨1, 1⟩⟩) ∧
      (isRfc3339 (text "0001-01-01T00:00:00.000Z") = true ↔ yearOne ≤ floorMs ⟨-62135596800, ⟨1, 1⟩⟩) :=
  recordedAt_accepted gregorian_correct gregorian_formats.1

/-- The first instant of the year 0 is written and the codec refuses it. -/
theorem recordedAt_yearZero_refused : gregorian.Correct ∧
    formatRecordedAt gregorian ⟨-62167219200, ⟨1, 1⟩⟩ = .ok (text "0000-01-01T00:00:00.000Z") ∧
      isRfc3339 (text "0000-01-01T00:00:00.000Z") = false :=
  ⟨gregorian_correct, gregorian_formats.2⟩

end Sitometron.Identity
