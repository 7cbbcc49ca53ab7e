import Fleet.Bits

/-!
The fewest decimal digits that read back as a given double. A finite double is `m * 2 ^ q`; every
real nearer to it than to its neighbours rounds to it, ends included when `m` is even. Grids of
1, 2, … 17 digits are tried in turn, each at the two points that enclose the value.
-/

namespace Fleet.Decimal

/-- A positive finite double `m * 2 ^ q`. At a power of two the gap below is half the gap above. -/
structure Binary where
  m : Nat
  q : Int
  narrow : Bool
  deriving DecidableEq, Repr

/-- The decimal `0.d₁d₂… * 10 ^ point`. -/
structure Digits where
  digits : List Nat
  point : Int
  deriving DecidableEq, Repr

def Binary.ofBits (bits : UInt64) : Binary :=
  let fraction := (bits &&& 0xFFFFFFFFFFFFF).toNat
  let exponent := ((bits >>> 52) &&& 0x7FF).toNat
  if exponent = 0 then ⟨fraction, -1074, false⟩
  else ⟨fraction + bitBound 52, exponent - 1075, fraction == 0 && exponent > 1⟩

/-- A ratio `num / den` of naturals. -/
structure Ratio where
  num : Nat
  den : Nat

namespace Ratio

def scale (r : Ratio) (base : Nat) (e : Int) : Ratio :=
  if 0 ≤ e then ⟨r.num * Nat.pow base e.toNat, r.den⟩ else ⟨r.num, r.den * Nat.pow base (-e).toNat⟩

def floor (r : Ratio) : Nat := r.num / r.den

def le (r s : Ratio) : Bool := r.num * s.den ≤ s.num * r.den

def lt (r s : Ratio) : Bool := r.num * s.den < s.num * r.den

end Ratio

namespace Binary

def value (b : Binary) : Ratio := (Ratio.mk (4 * b.m) 4).scale 2 b.q

def lower (b : Binary) : Ratio := (Ratio.mk (4 * b.m - if b.narrow then 1 else 2) 4).scale 2 b.q

def upper (b : Binary) : Ratio := (Ratio.mk (4 * b.m + 2) 4).scale 2 b.q

/-- Whether a ratio rounds to this double. -/
def claims (b : Binary) (r : Ratio) : Bool :=
  if b.m % 2 = 0 then b.lower.le r && r.le b.upper else b.lower.lt r && r.lt b.upper

/-- The least `point` with `value < 10 ^ point`, looked for from a given start upwards. -/
def pointFrom (v : Ratio) : Nat → Int → Int
  | 0, p => p
  | fuel + 1, p => if v.lt ((Ratio.mk 1 1).scale 10 p) then p else pointFrom v fuel (p + 1)

/-- Three hundred and eight places either side hold every double. -/
def point (b : Binary) : Int :=
  let v := b.value
  let start : Int := (((b.m.log2 : Int) + b.q) * 30103) / 100000 - 1
  pointFrom v 6 start

/-- The best of the two points of the grid of step `10 ^ k` that enclose the value. -/
def onGrid (b : Binary) (k : Int) : Option Nat :=
  let scaled := b.value.scale 10 (-k)
  let below := scaled.floor
  let at_ (n : Nat) : Ratio := (Ratio.mk n 1).scale 10 k
  match b.claims (at_ below), b.claims (at_ (below + 1)) with
  | false, false => none
  | true, false => some below
  | false, true => some (below + 1)
  | true, true =>
    let twice := 2 * scaled.num
    let middle := (2 * below + 1) * scaled.den
    if twice < middle then some below
    else if middle < twice then some (below + 1)
    else some (if below % 2 = 0 then below else below + 1)

def shortestFrom (b : Binary) (point : Int) : Nat → Nat → Option (Nat × Int)
  | 0, _ => none
  | fuel + 1, count =>
    match b.onGrid (point - count) with
    | some n => if n = 0 then shortestFrom b point fuel (count + 1) else some (n, point - count)
    | none => shortestFrom b point fuel (count + 1)

end Binary

/-- The digits of a natural, the last ones that are zero dropped and counted. -/
def trim : Nat → Nat → Nat × Nat
  | 0, n => (n, 0)
  | fuel + 1, n =>
    if n ≠ 0 ∧ n % 10 = 0 then let (m, z) := trim fuel (n / 10); (m, z + 1) else (n, 0)

def digitsOf (n : Nat) : List Nat := (Nat.toDigits 10 n).map fun c => c.toNat - '0'.toNat

/-- The shortest digits of a positive finite double. -/
def shortest (b : Binary) : Digits :=
  match b.shortestFrom b.point 17 1 with
  | none => ⟨[0], 1⟩
  | some (n, k) =>
    let (m, zeros) := trim 20 n
    let ds := digitsOf m
    ⟨ds, k + zeros + ds.length⟩

/-- How digits are laid out: positional for a point in `low < point ≤ high`, with at least one
place after the point; otherwise one digit, the rest, and a signed exponent. -/
structure Layout where
  low : Int
  high : Int
  mark : Char
  plus : Bool

def Layout.write (l : Layout) (d : Digits) : List Char :=
  let ds := d.digits.map fun n => Char.ofNat (n + '0'.toNat)
  let zeros (n : Int) := List.replicate n.toNat '0'
  if 0 < d.point ∧ d.point ≤ l.high then
    if ds.length ≤ d.point then ds ++ zeros (d.point - ds.length) ++ ['.', '0']
    else ds.take d.point.toNat ++ '.' :: ds.drop d.point.toNat
  else if l.low < d.point ∧ d.point ≤ 0 then '0' :: '.' :: (zeros (-d.point) ++ ds)
  else
    let e := d.point - 1
    let head := match ds with
      | [] => []
      | [c] => [c]
      | c :: rest => c :: '.' :: rest
    let sign := if e < 0 then ['-'] else if l.plus then ['+'] else []
    head ++ l.mark :: (sign ++ Nat.toDigits 10 e.natAbs)

end Fleet.Decimal
