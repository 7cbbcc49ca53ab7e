import Fleet.Json.Basic
import Fleet.Decimal.Shortest

/-!
Compact JSON text: no blanks, members in order of name, other than the quote, the backslash and the
control characters every character as it is.
-/

namespace Fleet.Json

def hexDigit (n : Nat) : Char := if n < 10 then Char.ofNat (48 + n) else Char.ofNat (87 + n)

def escape (c : Char) : List Char :=
  if c = '"' then ['\\', '"']
  else if c = '\\' then ['\\', '\\']
  else if c = '\x08' then ['\\', 'b']
  else if c = '\x0c' then ['\\', 'f']
  else if c = '\n' then ['\\', 'n']
  else if c = '\r' then ['\\', 'r']
  else if c = '\t' then ['\\', 't']
  else if c.toNat < 0x20 then
    ['\\', 'u', '0', '0', hexDigit (c.toNat / 16), hexDigit (c.toNat % 16)]
  else [c]

def quote (s : String) : List Char := '"' :: (s.toList.flatMap escape ++ ['"'])

/-- Doubles are positional from `10 ^ -5` up to `10 ^ 16`. -/
def doubleLayout : Decimal.Layout := ⟨-5, 16, 'e', true⟩

/-- A double by its bits. What is not finite has no JSON text and stands as null. -/
def realText (bits : UInt64) : List Char :=
  if (bits >>> 52) &&& 0x7FF = 0x7FF then ['n', 'u', 'l', 'l']
  else
    let size := bits &&& 0x7FFFFFFFFFFFFFFF
    let sign := if bits >>> 63 = 1 then ['-'] else []
    if size = 0 then sign ++ ['0', '.', '0']
    else sign ++ doubleLayout.write (Decimal.shortest (.ofBits size))

def intText : Int → List Char
  | .ofNat n => Nat.toDigits 10 n
  | .negSucc n => '-' :: Nat.toDigits 10 (n + 1)

def Number.chars : Number → List Char
  | .int n => intText n
  | .real bits => realText bits

mutual

def chars : Json → List Char
  | .null => ['n', 'u', 'l', 'l']
  | .bool true => ['t', 'r', 'u', 'e']
  | .bool false => ['f', 'a', 'l', 's', 'e']
  | .num n => Number.chars n
  | .str s => quote s
  | .arr items => '[' :: (itemChars items ++ [']'])
  | .obj members => '{' :: (memberChars members ++ ['}'])

def itemChars : List Json → List Char
  | [] => []
  | [v] => chars v
  | v :: w :: vs => chars v ++ ',' :: itemChars (w :: vs)

def memberChars : List (String × Json) → List Char
  | [] => []
  | [(k, v)] => quote k ++ ':' :: chars v
  | (k, v) :: kw :: vs => quote k ++ ':' :: (chars v ++ ',' :: memberChars (kw :: vs))

end

/-- The compact text of a value. -/
def print (v : Json) : String := String.ofList (chars v)

end Fleet.Json
