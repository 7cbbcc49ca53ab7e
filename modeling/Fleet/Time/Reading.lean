import Fleet.Time.Instant
import Fleet.Json.Reader
import Fleet.Text.Blank

/-!
Reading points in time from text: a date, a time of day and a zone, with some freedom in blanks and
leading zeros.
-/

namespace Fleet.Instant

inductive ReadFailure where
  | tooShort
  | invalid
  | outOfRange
  | tooLong
  | impossible
  deriving DecidableEq, Repr

def ReadFailure.message : ReadFailure → String
  | .tooShort => "premature end of input"
  | .invalid => "input contains invalid characters"
  | .outOfRange => "input is out of range"
  | .tooLong => "trailing input"
  | .impossible => "no possible date and time matching input"

abbrev Step (α : Type) := List Char → Except ReadFailure (α × List Char)

def dropBlanks (cs : List Char) : List Char := Text.dropBlanks cs

/-- The digits of a number that fits 63 bits. -/
def natural : List Char → Nat → Except ReadFailure Nat
  | [], n => .ok n
  | c :: cs, n =>
    let next := n * 10 + (c.toNat - '0'.toNat)
    if next < bitBound 63 then natural cs next else .error .outOfRange

/-- A number of at most so many digits. -/
def number (limit : Nat) : Step Nat := fun cs =>
  let ds := (cs.take limit).takeWhile Char.isDigit
  match ds, cs with
  | [], [] => .error .tooShort
  | [], _ => .error .invalid
  | ds, cs => (natural ds 0).map fun n => (n, cs.drop ds.length)

def ranged (low high : Nat) : Step Nat := fun cs => do
  let (n, rest) ← number 2 (dropBlanks cs)
  if low ≤ n ∧ n ≤ high then return (n, rest) else throw .outOfRange

/-- A year of 32 bits: four digits at most, or a sign and any number of them. -/
def year : Step Int := fun cs => do
  let (y, rest) ← match dropBlanks cs with
    | '-' :: rest => (number rest.length rest).map fun (n, rest) => (-(n : Int), rest)
    | '+' :: rest => (number rest.length rest).map fun (n, rest) => ((n : Int), rest)
    | rest => (number 4 rest).map fun (n, rest) => ((n : Int), rest)
  if -(bitBound 31 : Int) ≤ y ∧ y < bitBound 31 then return (y, rest) else throw .outOfRange

def mark (c : Char) : Step Unit := fun cs =>
  match dropBlanks cs with
  | [] => .error .tooShort
  | d :: rest => if c = d then .ok ((), rest) else .error .invalid

/-- A fraction of a second in nanoseconds; places beyond the ninth are dropped. -/
def fraction : Step Nat
  | '.' :: cs => do
    let (n, rest) ← number 9 cs
    let places := cs.length - rest.length
    return (n * Nat.pow 10 (9 - places), rest.dropWhile Char.isDigit)
  | cs => .ok (0, cs)

/-- Two digits. One character is too short only when it is one byte long. -/
def twoDigits : Step Nat
  | a :: b :: rest =>
    if a.isDigit ∧ b.isDigit then
      .ok ((a.toNat - '0'.toNat) * 10 + (b.toNat - '0'.toNat), rest)
    else .error .invalid
  | [a] => if a.toNat < 128 then .error .tooShort else .error .invalid
  | [] => .error .tooShort

/-- The seconds by which a zone is ahead. -/
def zone : Step Int := fun cs =>
  match dropBlanks cs with
  | [] => .error .tooShort
  | 'Z' :: rest | 'z' :: rest => .ok (0, rest)
  | c :: rest =>
    if [c, rest.head?.getD ' ', (rest.drop 1).head?.getD ' '].map Char.toLower = ['u', 't', 'c'] then
      .ok (0, rest.drop 2)
    else if c = '+' ∨ c = '-' ∨ c = Char.ofNat 0x2212 then do
      let (hours, rest) ← twoDigits rest
      let rest := (rest.dropWhile fun c => c = ':' || Text.isBlank c)
      let (minutes, rest) ← twoDigits rest
      if 59 < minutes then throw .outOfRange
      let seconds : Int := hours * 3600 + minutes * 60
      return (if c = '+' then seconds else -seconds, rest)
    else .error .invalid

def separator : Step Unit
  | [] => .error .tooShort
  | c :: rest => if c = 'T' ∨ c = 't' ∨ c = ' ' then .ok ((), rest) else .error .invalid

def ofChars (cs : List Char) : Except ReadFailure Instant := do
  let (y, cs) ← year cs
  let (_, cs) ← mark '-' cs
  let (m, cs) ← ranged 1 12 cs
  let (_, cs) ← mark '-' cs
  let (d, cs) ← ranged 1 31 cs
  let (_, cs) ← separator cs
  let (hour, cs) ← ranged 0 23 cs
  let (_, cs) ← mark ':' cs
  let (minute, cs) ← ranged 0 59 cs
  let (_, cs) ← mark ':' cs
  let (second, cs) ← ranged 0 60 cs
  let (nanos, cs) ← fraction cs
  let (ahead, cs) ← zone cs
  if !(dropBlanks cs).isEmpty then throw .tooLong
  let date := daysOf ⟨y, m, d⟩ * 86400
  if daysIn y m < d ∨ ¬Instant.InCalendar ⟨date, 0⟩ then throw .outOfRange
  if 86400 ≤ ahead.natAbs then throw .outOfRange
  let leap : Nat := if second = 60 then 1 else 0
  let t : Instant :=
    ⟨date + hour * 3600 + minute * 60 + (second - leap : Nat) - ahead, leap * perSecond + nanos⟩
  if t.InCalendar then return t else throw .impossible

/-- The point in time that a text names. -/
def ofText (s : String) : Except ReadFailure Instant := ofChars s.toList

def reader : Json.Reader Instant
  | _, .text (some s) => (ofText s).mapError fun e => .custom e.message
  | _, d => .error (Json.mismatch d "an RFC 3339 formatted date and time string")

def toJson (t : Instant) : Json := .str t.text

end Fleet.Instant
