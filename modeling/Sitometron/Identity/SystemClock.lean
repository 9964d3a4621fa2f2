import Sitometron.Lib.Bytes

/-!
# The production clock

`system_clock.cpp`: samples of the wall clock and of the steady clock, in ticks of a rational period, become a timestamp and
nanoseconds since the origin. An exception is an `Except.error` with its type and its text. The conversions between days and
dates, which the source takes from `std::chrono`, are a parameter.
-/

namespace Sitometron.Identity

inductive ExceptionType where
  | overflowError | invalidArgument | outOfRange
deriving DecidableEq, Repr

structure Exception where
  type : ExceptionType
  what : String
deriving DecidableEq, Repr

def kMax : UInt64 := 0xFFFFFFFFFFFFFFFF

def checkedAdd (left right : UInt64) : Except Exception UInt64 :=
  if right > kMax - left then .error ⟨.overflowError, "elapsed time addition overflow"⟩ else .ok (left + right)

def checkedMultiply (left right : UInt64) : Except Exception UInt64 :=
  if right ≠ 0 && left > kMax / right then .error ⟨.overflowError, "elapsed time multiplication overflow"⟩
  else .ok (left * right)

structure WideProduct where
  high : UInt64
  low : UInt64
deriving DecidableEq, Repr

def kMask : UInt64 := 0xFFFFFFFF

def multiplyWide (left right : UInt64) : WideProduct :=
  let lower := (left &&& kMask) * (right &&& kMask)
  let middle := (left >>> 32) * (right &&& kMask) + (lower >>> 32)
  let upperMiddle := (middle &&& kMask) + (left &&& kMask) * (right >>> 32)
  ⟨(left >>> 32) * (right >>> 32) + (middle >>> 32) + (upperMiddle >>> 32), (upperMiddle <<< 32) ||| (lower &&& kMask)⟩

structure Division where
  quotient : UInt64
  remainder : UInt64
deriving DecidableEq, Repr

-- The carried bit is lost in the shift; the subtraction modulo 2^64 makes up for it.
def divideBit (low divisor : UInt64) (d : Division) (bit : Nat) : Division :=
  let carry := d.remainder >>> 63 ≠ 0
  let remainder := (d.remainder <<< 1) ||| ((low >>> UInt64.ofNat bit) &&& 1)
  if carry || remainder ≥ divisor then ⟨d.quotient ||| ((1 : UInt64) <<< UInt64.ofNat bit), remainder - divisor⟩
  else ⟨d.quotient, remainder⟩

/-- The loop of `MultiplyDivide`, from bit 63 down to bit 0. -/
def divideBits (product : WideProduct) (divisor : UInt64) : Division :=
  (List.range 64).reverse.foldl (divideBit product.low divisor) ⟨0, product.high⟩

def multiplyDivide (left right divisor : UInt64) : Except Exception Division :=
  if right = 0 || left = 0 then .ok ⟨0, 0⟩
  else if left ≤ kMax / right then .ok ⟨left * right / divisor, left * right % divisor⟩
  else
    let product := multiplyWide left right
    if product.high ≥ divisor then .error ⟨.overflowError, "elapsed time quotient overflow"⟩
    else .ok (divideBits product divisor)

structure TickPeriod where
  numerator : UInt64 := 1
  denominator : UInt64 := 1000000000
deriving DecidableEq, Repr

structure TickInstant where
  ticks : Int64 := 0
  period : TickPeriod := {}
deriving DecidableEq

def validatePeriod (period : TickPeriod) : Except Exception Unit :=
  if period.numerator = 0 || period.denominator = 0 then
    .error ⟨.invalidArgument, "sample tick period must be positive"⟩
  else .ok ()

structure Scaled where
  whole : UInt64
  fractional : Bool
deriving DecidableEq, Repr

def gcd (a b : UInt64) : UInt64 := UInt64.ofNat (Nat.gcd a.toNat b.toNat)

def scale (magnitude : UInt64) (period : TickPeriod) (unitsPerSecond : UInt64) : Except Exception Scaled := do
  validatePeriod period
  let unitGcd := gcd unitsPerSecond period.denominator
  let factor := unitsPerSecond / unitGcd
  let divisor := period.denominator / unitGcd
  let periodGcd := gcd period.numerator divisor
  let numerator := period.numerator / periodGcd
  let divisor := divisor / periodGcd
  let integral ← multiplyDivide magnitude numerator divisor
  let fractional ← multiplyDivide integral.remainder factor divisor
  let product ← checkedMultiply integral.quotient factor
  let whole ← checkedAdd product fractional.quotient
  return ⟨whole, fractional.remainder ≠ 0⟩

def magnitude (value : Int64) : UInt64 :=
  if value < 0 then (-(value + 1)).toUInt64 + 1 else value.toUInt64

/-! ## The timestamp -/

structure Date where
  year : Int
  month : Nat
  day : Nat
deriving DecidableEq, Repr

/-- `std::chrono`: the days since the epoch of a date, and the date of a day. -/
structure Calendar where
  daysOf : Date → Int
  dateOf : Int → Date

def msPerDay : Int := 86400000

structure TimestampField where
  offset : Nat
  width : Nat

def putDigits (s : Bytes) (field : TimestampField) (value : Nat) : Except Exception Bytes :=
  let digits := decimal value
  if digits.length > 4 then .error ⟨.overflowError, "timestamp digit conversion failed"⟩
  else if digits.length > field.width || field.offset > s.length || field.width > s.length - field.offset then
    .error ⟨.outOfRange, "timestamp field exceeds its fixed width"⟩
  else
    let at_ := field.offset + field.width - digits.length
    .ok (s.take at_ ++ digits ++ s.drop (at_ + digits.length))

def kFirst (calendar : Calendar) : Int64 := Int64.ofInt (calendar.daysOf ⟨0, 1, 1⟩ * msPerDay)

def kAfterLast (calendar : Calendar) : Int64 := Int64.ofInt (calendar.daysOf ⟨10000, 1, 1⟩ * msPerDay)

/-- A date and the time of day in milliseconds, as the fixed fields of the text. -/
def formatFields (date : Date) (time : Nat) : Except Exception Bytes := do
  let s ← putDigits (text "0000-00-00T00:00:00.000Z") ⟨0, 4⟩ (date.year % 2 ^ 32).toNat
  let s ← putDigits s ⟨5, 2⟩ date.month
  let s ← putDigits s ⟨8, 2⟩ date.day
  let s ← putDigits s ⟨11, 2⟩ (time / 3600000)
  let s ← putDigits s ⟨14, 2⟩ (time / 60000 % 60)
  let s ← putDigits s ⟨17, 2⟩ (time / 1000 % 60)
  putDigits s ⟨20, 3⟩ (time % 1000)

def formatRecordedAt (calendar : Calendar) (instant : TickInstant) : Except Exception Bytes := do
  let scaled ← scale (magnitude instant.ticks) instant.period 1000
  let negative := instant.ticks < 0
  let size ← checkedAdd scaled.whole (if negative && scaled.fractional then 1 else 0)
  if (negative && size > magnitude (kFirst calendar)) || (!negative && size ≥ (kAfterLast calendar).toUInt64) then
    throw ⟨.outOfRange, "diagnostic timestamp is outside the four-digit year domain"⟩
  let signedMs := if negative then -size.toInt64 else size.toInt64
  let day := signedMs.toInt / msPerDay
  formatFields (calendar.dateOf day) (signedMs.toInt - day * msPerDay).toNat

/-! ## Reading the clock -/

structure ClockSample where
  wall : TickInstant
  steady : TickInstant

structure ClockReading where
  recordedAt : Bytes
  nanosecondsSinceOrigin : UInt64
deriving DecidableEq, Repr

structure SystemClock where
  origin : TickInstant
  lastTicks : Int64
  lastNs : UInt64 := 0
deriving DecidableEq

namespace SystemClock

def construct (sample : ClockSample) : Except Exception SystemClock := do
  validatePeriod sample.wall.period
  validatePeriod sample.steady.period
  return { origin := sample.steady, lastTicks := sample.steady.ticks }

def read (calendar : Calendar) (sample : ClockSample) : ExceptT Exception (StateM SystemClock) ClockReading := do
  let impl ← get
  if sample.steady.period ≠ impl.origin.period then
    throw ⟨.invalidArgument, "steady sample period changed within the instance"⟩
  else if sample.steady.ticks < impl.origin.ticks || sample.steady.ticks < impl.lastTicks then
    throw ⟨.outOfRange, "steady sample moved backwards"⟩
  else
    let delta := sample.steady.ticks.toUInt64 - impl.origin.ticks.toUInt64
    let elapsed := (← MonadExcept.ofExcept (scale delta sample.steady.period 1000000000)).whole
    if elapsed < impl.lastNs then throw ⟨.outOfRange, "monotonic coordinate decreased"⟩
    else
      let recordedAt ← MonadExcept.ofExcept (formatRecordedAt calendar sample.wall)
      modify fun impl => { impl with lastTicks := sample.steady.ticks }
      modify fun impl => { impl with lastNs := elapsed }
      return ⟨recordedAt, elapsed⟩

/-- The answers to a sequence of samples, and the clock after them. -/
def reads (calendar : Calendar) (clock : SystemClock) : List ClockSample → List (Except Exception ClockReading) × SystemClock
  | [] => ([], clock)
  | sample :: samples =>
      let (answer, next) := (read calendar sample).run clock
      let (answers, last) := reads calendar next samples
      (answer :: answers, last)

end SystemClock

end Sitometron.Identity
