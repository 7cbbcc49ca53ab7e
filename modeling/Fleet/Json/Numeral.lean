import Fleet.Json.Basic

/-!
Number literals. A literal without point and exponent that fits 64 bits is an integer; any other
is a double, computed from as many leading digits as fit 64 bits and one power of ten.
-/

namespace Fleet.Json

/-- The parts of a literal, digits in the order they stand. -/
structure Numeral where
  negative : Bool := false
  whole : List Nat := []
  fraction : List Nat := []
  /-- Whether the exponent is negative, and its digits. -/
  exponent : Option (Bool × List Nat) := none
  pointed : Bool := false
  deriving DecidableEq, Repr

namespace Numeral

/-- Adds digits to a significand while it stays below `2 ^ 64`; the other part is what is left. -/
def absorb : List Nat → Nat → Nat × List Nat
  | [], s => (s, [])
  | d :: ds, s => if s * 10 + d < bitBound 64 then absorb ds (s * 10 + d) else (s, d :: ds)

/-- Digits as an exponent. Nothing when it leaves 31 bits. -/
def magnitude : List Nat → Nat → Option Nat
  | [], e => some e
  | d :: ds, e => if e * 10 + d < bitBound 31 then magnitude ds (e * 10 + d) else none

/-- Whether the exponent alone puts a literal out of range. -/
def exceeds (n : Numeral) : Bool :=
  match n.exponent with
  | some (false, ds) => (magnitude ds 0).isNone && (n.whole ++ n.fraction).any (· ≠ 0)
  | _ => false

/-- Multiplies by a power of ten in double arithmetic. Nothing when the result is not finite. -/
def scale : Nat → Float → Int → Option Float
  | 0, x, _ => some x
  | fuel + 1, x, e =>
    if e.natAbs ≤ 308 then
      if 0 ≤ e then
        let y := x * Float.ofScientific 1 false e.natAbs
        if y.isInf then none else some y
      else some (x / Float.ofScientific 1 false e.natAbs)
    else if x == 0.0 then some x
    else if 0 ≤ e then none
    else scale fuel (x / Float.ofScientific 1 false 308) (e + 308)

def signed (negative : Bool) (x : Float) : Number := .ofFloat (if negative then -x else x)

/-- The value of a literal. Nothing when it is too large for a double. -/
def number (n : Numeral) : Option Number :=
  let (s, extra) := absorb n.whole 0
  if extra = [] ∧ ¬n.pointed ∧ n.exponent = none ∧ (n.negative → 0 < s ∧ s ≤ bitBound 63) then
    some (.int (if n.negative then -s else s))
  else
    let (s', rest) := absorb n.fraction s
    let shift : Int := extra.length - (n.fraction.length - rest.length : Nat)
    let x := (UInt64.ofNat s').toFloat
    match n.exponent with
    | none => (scale 8 x shift).map (signed n.negative)
    | some (down, digits) =>
      match magnitude digits 0 with
      | some e => (scale 8 x (if down then shift - e else shift + e)).map (signed n.negative)
      | none => if s' = 0 ∨ down then some (signed n.negative 0.0) else none

end Numeral

end Fleet.Json
