/-!
UTF-8. Bytes that are no part of a character are each replaced by one mark per longest piece that
could have begun one.
-/

namespace Fleet.Text

/-- How many continuation bytes a leading byte asks for, and the range of the first of them. -/
def leading? (b : Nat) : Option (Nat × Nat × Nat) :=
  if 0xC2 ≤ b ∧ b ≤ 0xDF then some (1, 0x80, 0xBF)
  else if b = 0xE0 then some (2, 0xA0, 0xBF)
  else if b = 0xED then some (2, 0x80, 0x9F)
  else if 0xE1 ≤ b ∧ b ≤ 0xEF then some (2, 0x80, 0xBF)
  else if b = 0xF0 then some (3, 0x90, 0xBF)
  else if 0xF1 ≤ b ∧ b ≤ 0xF3 then some (3, 0x80, 0xBF)
  else if b = 0xF4 then some (3, 0x80, 0x8F)
  else none

/-- A character under way: bytes still to come, the range of the next one, and the value so far. -/
structure Partial where
  missing : Nat
  low : Nat
  high : Nat
  value : Nat

def replacement : Char := Char.ofNat 0xFFFD

/-- A byte that begins something. -/
def startByte (b : Nat) : List (Option Char) × Option Partial :=
  if b < 0x80 then ([some (Char.ofNat b)], none)
  else match leading? b with
    | some (n, low, high) =>
      ([], some ⟨n, low, high, if n = 1 then b - 0xC0 else if n = 2 then b - 0xE0 else b - 0xF0⟩)
    | none => ([none], none)

/-- Takes up one byte; the characters come in reverse. -/
def feedByte (state : List (Option Char) × Option Partial) (byte : UInt8) :
    List (Option Char) × Option Partial :=
  let b := byte.toNat
  match state with
  | (cs, none) => let (new, p) := startByte b; (new ++ cs, p)
  | (cs, some p) =>
    if p.low ≤ b ∧ b ≤ p.high then
      let value := p.value * 64 + (b - 0x80)
      if p.missing = 1 then (some (Char.ofNat value) :: cs, none)
      else (cs, some ⟨p.missing - 1, 0x80, 0xBF, value⟩)
    else let (new, q) := startByte b; (new ++ none :: cs, q)

/-- The characters of any bytes, with nothing for a piece that is no character. -/
def characters (bytes : List UInt8) : List (Option Char) :=
  let (cs, p) := bytes.foldl feedByte ([], none)
  (if p.isSome then none :: cs else cs).reverse

/-- The text of any bytes. -/
def decodeLossy (bytes : List UInt8) : String :=
  String.ofList ((characters bytes).map fun c => c.getD replacement)

/-- The text of bytes that are UTF-8. -/
def decode? (bytes : List UInt8) : Option String := String.fromUTF8? ⟨bytes.toArray⟩

def encode (s : String) : List UInt8 := s.toUTF8.toList

end Fleet.Text
