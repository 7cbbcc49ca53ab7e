import Fleet.Json.Document
import Fleet.Text.Identifier
import Fleet.Text.Utf8

/-!
The lexical elements of a configuration text. Spaces, tabs and comments are dropped. Where a line
ends is kept, and so is a carriage return that ends none.
-/

namespace Fleet.Settings.Hcl

inductive Token where
  | name (text : String)
  | text (value : String)
  | template (source : String)
  | lines (mark : String) (dash : Bool) (content : String)
  | number (value : Number)
  | sign (c : Char)
  | newline
  | carriage
  deriving DecidableEq, Repr

def isNameStart (c : Char) : Bool := c = '_' || Text.isIdentifierStart c

def isNamePart (c : Char) : Bool := c = '-' || Text.isIdentifierPart c

/-! ### Text between quotes -/

def hexRun : Nat → List Char → Nat → Option (Nat × List Char)
  | 0, cs, n => some (n, cs)
  | k + 1, c :: cs, n =>
    match Json.hexValue? c with
    | some d => hexRun k cs (16 * n + d)
    | none => none
  | _ + 1, [], _ => none

/-- The character that an escape of so many hexadecimal digits denotes. -/
def hexEscape (count : Nat) (cs : List Char) : Option (Char × List Char) :=
  match hexRun count cs 0 with
  | some (n, rest) => if n.isValidChar then some (Char.ofNat n, rest) else none
  | none => none

def isGap (c : Char) : Bool := c = ' ' || c = '\t' || c = '\r'

/-- What follows a backslash: nothing but a gap, or a character. -/
def escape : List Char → Option (Option Char × List Char)
  | 'u' :: rest => (hexEscape 4 rest).map fun (c, rest) => (some c, rest)
  | 'U' :: rest => (hexEscape 8 rest).map fun (c, rest) => (some c, rest)
  | c :: rest =>
    if isGap c then some (none, rest.dropWhile isGap)
    else (Json.escaped? c).map fun e => (some e, rest)
  | [] => none

/-- A part to be filled in up to the brace that closes it, taken as it stands. -/
def part : Nat → List Char → List Char → Option (List Char × List Char)
  | _, [], _ => none
  | depth, c :: cs, acc =>
    if c = '\x7b' then part (depth + 1) cs (c :: acc)
    else if c = '\x7d' then
      match depth with
      | 0 | 1 => some (c :: acc, cs)
      | d + 1 => part d cs (c :: acc)
    else part depth cs (c :: acc)

/-- A quoted text after its opening quote. A doubled mark stands for the mark. Parts may be filled
in, but none may direct how others are. -/
def quoted : Nat → Bool → List Char → List Char → Option (Token × List Char)
  | 0, _, _, _ => none
  | fuel + 1, filled, cs, acc =>
    match cs with
    | [] => none
    | '"' :: rest =>
      let s := String.ofList acc.reverse
      some (if filled then .template s else .text s, rest)
    | '\\' :: rest =>
      match escape rest with
      | some (some c, rest) => quoted fuel filled rest (c :: acc)
      | some (none, rest) => quoted fuel filled rest acc
      | none => none
    | '$' :: '$' :: '\x7b' :: rest => quoted fuel filled rest ('\x7b' :: '$' :: acc)
    | '%' :: '%' :: '\x7b' :: rest => quoted fuel filled rest ('\x7b' :: '%' :: acc)
    | '$' :: '\x7b' :: rest =>
      match part 1 rest ('\x7b' :: '$' :: acc) with
      | some (acc, rest) => quoted fuel true rest acc
      | none => none
    | '%' :: '\x7b' :: _ => none
    | c :: rest => quoted fuel filled rest (c :: acc)

/-! ### Text in lines -/

/-- What follows the mark when a line begins with it, blanks aside. -/
def afterMark (mark line : List Char) : Option (List Char) :=
  let line := line.dropWhile fun c => c = ' ' || c = '\t'
  if mark.isPrefixOf line then some (line.drop mark.length) else none

/-- The content up to the line that begins with the mark, and what follows the mark. A line feed and
a mark of one byte that are the whole rest do not count. -/
def contentUntil (mark : List Char) : List Char → List Char → Option (List Char × List Char)
  | [], _ => none
  | '\n' :: rest, acc =>
    match afterMark mark rest with
    | some after =>
      if (String.ofList rest).utf8ByteSize < 2 then contentUntil mark rest ('\n' :: acc)
      else some (('\n' :: acc).reverse, after)
    | none => contentUntil mark rest ('\n' :: acc)
  | '\r' :: '\n' :: rest, acc =>
    match afterMark mark rest with
    | some after => some (('\n' :: '\r' :: acc).reverse, after)
    | none => contentUntil mark rest ('\n' :: '\r' :: acc)
  | c :: rest, acc => contentUntil mark rest (c :: acc)

/-- A text in lines after `<<`. The first line holds the mark alone. -/
def hereText (cs : List Char) : Option (Token × List Char) :=
  let (dash, cs) := match cs with
    | '-' :: rest => (true, rest)
    | cs => (false, cs)
  let mark := cs.takeWhile isNamePart
  let first := match cs.dropWhile isNamePart with
    | '\n' :: rest | '\r' :: '\n' :: rest => some rest
    | _ => none
  match mark, first with
  | c :: _, some rest =>
    if isNameStart c then
      let found := match afterMark mark rest with
        | some after => some ([], after)
        | none => contentUntil mark rest []
      found.map fun (content, after) =>
        (.lines (String.ofList mark) dash (String.ofList content), after)
    else none
  | _, _ => none

/-! ### Numbers -/

def digits (cs : List Char) : List Nat × List Char :=
  ((cs.takeWhile Char.isDigit).map fun c => c.toNat - '0'.toNat, cs.dropWhile Char.isDigit)

def valueOf (ds : List Nat) : Nat := ds.foldl (fun n d => n * 10 + d) 0

/-- A double without a fraction is an integer when it fits 64 bits. -/
def ofFloat (x : Float) : Number :=
  if x.floor == x && (-9223372036854775808.0) ≤ x && x ≤ 18446744073709551616.0 then
    if x < 0 then .int (-(Int.ofNat (-x).toUInt64.toNat)) else .int x.toUInt64.toNat
  else .ofFloat x

/-- The double nearest to `n * 10 ^ e`. Nothing when it is not finite. -/
def double? (n : Nat) (e : Int) : Option Float :=
  let size : Int := (Nat.toDigits 10 n).length
  if n = 0 ∨ size + e < -400 then some 0.0
  else if 400 < size + e then none
  else
    let x := Float.ofScientific n (e < 0) e.natAbs
    if x.isInf then none else some x

/-- The exponent of a number, if there is one. -/
def exponent (cs : List Char) : Option (Int × List Char) :=
  let signed := match cs with
    | e :: rest => if e = 'e' ∨ e = 'E' then some rest else none
    | [] => none
  signed.bind fun rest =>
    let (down, rest) := match rest with
      | '+' :: rest => (false, rest)
      | '-' :: rest => (true, rest)
      | rest => (false, rest)
    match digits rest with
    | ([], _) => none
    | (ds, rest) => some (if down then -(valueOf ds : Int) else valueOf ds, rest)

/-- An integer of 64 bits, or a double when there is a fraction or an exponent. -/
def number (cs : List Char) : Option (Token × List Char) :=
  let (whole, rest) := digits cs
  let (fraction, rest) := match rest with
    | '.' :: more =>
      match digits more with
      | ([], _) => ([], rest)
      | (ds, more) => (ds, more)
    | _ => ([], rest)
  match fraction, exponent rest with
  | [], none => if valueOf whole < bitBound 64 then some (.number (.int (valueOf whole)), rest) else none
  | _, e =>
    let (e, rest) := e.getD (0, rest)
    (double? (valueOf (whole ++ fraction)) (e - fraction.length)).map fun x =>
      (.number (ofFloat x), rest)

/-! ### Elements -/

/-- What follows a comment that ends with its line. A carriage return may stand only at its end. -/
def dropLine : List Char → Option (List Char)
  | [] => some []
  | '\n' :: rest => some ('\n' :: rest)
  | '\r' :: '\n' :: rest => some ('\r' :: '\n' :: rest)
  | '\r' :: _ => none
  | _ :: rest => dropLine rest

/-- What follows a comment between marks. -/
def dropComment : List Char → Option (List Char)
  | [] => none
  | '*' :: '/' :: rest => some rest
  | _ :: rest => dropComment rest

def tokensFrom : Nat → List Char → List Token → Option (List Token)
  | 0, _, _ => none
  | fuel + 1, cs, acc =>
    match cs with
    | [] => some acc.reverse
    | '\n' :: rest | '\r' :: '\n' :: rest => tokensFrom fuel rest (.newline :: acc)
    | '\r' :: rest => tokensFrom fuel rest (.carriage :: acc)
    | '#' :: rest | '/' :: '/' :: rest =>
      (dropLine rest).bind fun rest => tokensFrom fuel rest acc
    | '/' :: '*' :: rest => (dropComment rest).bind fun rest => tokensFrom fuel rest acc
    | '"' :: rest =>
      (quoted (rest.length + 1) false rest []).bind fun (t, rest) => tokensFrom fuel rest (t :: acc)
    | '<' :: '<' :: rest => (hereText rest).bind fun (t, rest) => tokensFrom fuel rest (t :: acc)
    | c :: rest =>
      if c = ' ' ∨ c = '\t' then tokensFrom fuel rest acc
      else if c.isDigit then
        (number (c :: rest)).bind fun (t, rest) => tokensFrom fuel rest (t :: acc)
      else if isNameStart c then
        let word := String.ofList (c :: rest.takeWhile isNamePart)
        tokensFrom fuel (rest.dropWhile isNamePart) (.name word :: acc)
      else if ['\x7b', '\x7d', '[', ']', '(', ')', '=', ',', ':', '-'].contains c then
        tokensFrom fuel rest (.sign c :: acc)
      else none

def tokens (s : String) : Option (List Token) :=
  let cs := s.toList
  tokensFrom (cs.length + 1) cs []

end Fleet.Settings.Hcl
