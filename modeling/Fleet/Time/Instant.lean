/-!
Points in time and their calendar text in UTC. A text has no fraction of a second, or three, six or
nine places of it, whichever is the least that is exact. A minute may have a leap second, the one
numbered 60.
-/

namespace Fleet

/-- Whole seconds since the start of 1970, which knows no leap seconds, and nanoseconds from there.
A leap second prolongs the second before it, so that its nanoseconds begin at `10 ^ 9`. -/
structure Instant where
  seconds : Int
  nanos : Nat
  deriving DecidableEq, Repr, Inhabited

namespace Instant

/-- The later second wins, and within a second the later nanosecond. -/
def Before (a b : Instant) : Prop := a.seconds < b.seconds ∨ a.seconds = b.seconds ∧ a.nanos < b.nanos

instance (a b : Instant) : Decidable (a.Before b) := inferInstanceAs (Decidable (_ ∨ _))

instance : LT Instant := ⟨Before⟩
instance : LE Instant := ⟨fun a b => a = b ∨ a < b⟩
instance (a b : Instant) : Decidable (a < b) := inferInstanceAs (Decidable (a.Before b))
instance (a b : Instant) : Decidable (a ≤ b) := inferInstanceAs (Decidable (a = b ∨ a < b))

def perMilli : Nat := 1000000
def perSecond : Nat := 1000000000

/-- Whether a time lies within a leap second. -/
def isLeap (t : Instant) : Bool := perSecond ≤ t.nanos

/-- A time given by nanoseconds from the start of a second. -/
def ofNanos (seconds nanos : Int) : Instant :=
  ⟨seconds + nanos.fdiv perSecond, (nanos.fmod perSecond).toNat⟩

/-- A time so many milliseconds later. Out of a leap second, the count goes on with the next minute. -/
def addMillis (t : Instant) (ms : Int) : Instant :=
  let whole := ms.tdiv 1000
  let part := ms.tmod 1000 * perMilli
  let nanos := t.nanos + part
  if t.isLeap then
    if whole = 0 ∧ nanos < 2 * perSecond then ⟨t.seconds, nanos.toNat⟩
    else ofNanos (t.seconds + whole + (if whole < 0 then 1 else 0)) (nanos - perSecond)
  else ofNanos (t.seconds + whole) nanos

/-- The second of the day. -/
def secondOfDay (t : Instant) : Int := t.seconds % 86400

/-- Whole milliseconds from an earlier time, toward zero. A leap second between the two counts when
it lies between them by the time of day as well. -/
def millisSince (t earlier : Instant) : Int :=
  let leaps : Int :=
    if earlier.secondOfDay < t.secondOfDay ∧ earlier.isLeap then 1
    else if t.secondOfDay < earlier.secondOfDay ∧ t.isLeap then -1
    else 0
  ((t.seconds - earlier.seconds + leaps) * perSecond + (t.nanos - earlier.nanos)).tdiv perMilli

/-! ### The calendar -/

structure Date where
  year : Int
  month : Nat
  day : Nat
  deriving DecidableEq, Repr

/-- Days from the start of 1970 to a date. Years begin in March, so that the leap day is the last. -/
def daysOf (d : Date) : Int :=
  let y := if d.month ≤ 2 then d.year - 1 else d.year
  let era := y.fdiv 400
  let yoe := y - era * 400
  let shifted : Int := if d.month > 2 then d.month - 3 else d.month + 9
  let doy := (153 * shifted + 2) / 5 + d.day - 1
  let doe := yoe * 365 + yoe / 4 - yoe / 100 + doy
  era * 146097 + doe - 719468

def dateOf (days : Int) : Date :=
  let z := days + 719468
  let era := z.fdiv 146097
  let doe := z - era * 146097
  let yoe := (doe - doe / 1460 + doe / 36524 - doe / 146096) / 365
  let doy := doe - (365 * yoe + yoe / 4 - yoe / 100)
  let mp := (5 * doy + 2) / 153
  let day := doy - (153 * mp + 2) / 5 + 1
  let month := if mp < 10 then mp + 3 else mp - 9
  let year := yoe + era * 400 + (if month ≤ 2 then 1 else 0)
  ⟨year, month.toNat, day.toNat⟩

def isLeapYear (y : Int) : Bool := y % 4 = 0 && (y % 100 ≠ 0 || y % 400 = 0)

def daysIn (y : Int) (m : Nat) : Nat :=
  if m = 2 then if isLeapYear y then 29 else 28
  else if m = 4 ∨ m = 6 ∨ m = 9 ∨ m = 11 then 30 else 31

/-- The years that the calendar knows. -/
def InCalendar (t : Instant) : Prop :=
  daysOf ⟨-262143, 1, 1⟩ * 86400 ≤ t.seconds ∧ t.seconds < daysOf ⟨262143, 1, 1⟩ * 86400

instance (t : Instant) : Decidable t.InCalendar := inferInstanceAs (Decidable (_ ∧ _))

/-! ### Text -/

def pad (width n : Nat) : List Char :=
  let ds := Nat.toDigits 10 n
  List.replicate (width - ds.length) '0' ++ ds

/-- Four digits, or a sign and at least four. -/
def yearText (y : Int) : List Char :=
  if 0 ≤ y ∧ y ≤ 9999 then pad 4 y.toNat
  else (if y < 0 then '-' else '+') :: pad 4 y.natAbs

def fractionText (nanos : Nat) : List Char :=
  if nanos = 0 then []
  else if nanos % 1000000 = 0 then '.' :: pad 3 (nanos / 1000000)
  else if nanos % 1000 = 0 then '.' :: pad 6 (nanos / 1000)
  else '.' :: pad 9 nanos

/-- Date and time of day with a mark between, and no zone. -/
def civilText (mark : Char) (t : Instant) : List Char :=
  let days := t.seconds.fdiv 86400
  let rest := (t.seconds - days * 86400).toNat
  let d := dateOf days
  yearText d.year ++ '-' :: pad 2 d.month ++ '-' :: pad 2 d.day ++ mark :: pad 2 (rest / 3600)
    ++ ':' :: pad 2 (rest / 60 % 60) ++ ':' :: pad 2 (rest % 60 + (if t.isLeap then 1 else 0))
    ++ fractionText (t.nanos % perSecond)

/-- The text of a time, such as `2024-01-01T00:00:00.500Z`. -/
def text (t : Instant) : String := String.ofList (civilText 'T' t ++ ['Z'])

end Instant

end Fleet
