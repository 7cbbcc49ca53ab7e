import Fleet.Json.Document

/-!
Reading JSON as it goes by. A reading that gives up says where: the input goes on from there, in the
middle of what did not fit, and who asked may go on too. A strict reading wants every text and number
to denote something and bounds the nesting; a loose one only wants JSON.
-/

namespace Fleet.Json.Stream

/-- Characters, with nothing for bytes that are no character. -/
abbrev Input := List (Option Char)

/-- What was read, if it fitted, and the input that was not read. -/
structure Reading (α : Type) where
  value : Option α
  rest : Input

def skipBlanks : Input → Input
  | some c :: rest => if isBlank c then skipBlanks rest else some c :: rest
  | rest => rest

/-- The input after the first byte of a character, which may leave bytes that are no character. -/
def afterByte (c : Char) (rest : Input) : Input := if c.toNat < 128 then rest else none :: rest

/-- A text after its opening quote. A strict reading gives up where half a surrogate pair turns out
to be all there is, and at the end over bytes that are no characters. -/
def text (strict : Bool) : Quoted → Bool → Input → Reading String
  | _, _, [] => ⟨none, []⟩
  | q, _, none :: rest =>
    if q.place = .plain ∧ ¬(strict ∧ q.high.isSome) then text strict q true rest else ⟨none, rest⟩
  | q, foreign, some c :: rest =>
    match q.step c with
    | (_, .quoted q') =>
      if strict ∧ !q'.sound then ⟨none, afterByte c rest⟩ else text strict q' foreign rest
    | (.leaf (.text s) :: _, _) =>
      ⟨if strict then (if foreign then none else s) else some (s.getD ""), rest⟩
    | _ => ⟨none, afterByte c rest⟩

/-- The rest of a word. -/
def word (value : Document) : List Char → Input → Reading Document
  | [], rest => ⟨some value, rest⟩
  | w :: ws, some c :: rest => if c = w then word value ws rest else ⟨none, afterByte c rest⟩
  | _ :: _, none :: rest => ⟨none, rest⟩
  | _ :: _, [] => ⟨none, []⟩

/-- The characters of a literal. A strict reading stops once the exponent is too large. -/
def numeral (strict : Bool) : Numeral → NumeralPlace → Input → Reading Number
  | n, p, some c :: rest =>
    match n.extend p c with
    | some (n', p') =>
      if strict ∧ n'.exceeds then ⟨none, rest⟩ else numeral strict n' p' rest
    | none =>
      if p.complete ∧ ¬(p = .zero ∧ (digit? c).isSome) then ⟨settle n, some c :: rest⟩
      else ⟨none, some c :: rest⟩
  | n, p, rest => if p.complete then ⟨settle n, rest⟩ else ⟨none, rest⟩
where
  settle (n : Numeral) : Option Number := if strict then n.number else some (n.number.getD (.int 0))

/-- A value that is no container. -/
def leaf (strict : Bool) (input : Input) : Reading Document :=
  match input with
  | some '"' :: rest =>
    let r := text strict {} false rest
    ⟨r.value.map fun s => .text (some s), r.rest⟩
  | some 'n' :: rest => word .null ['u', 'l', 'l'] rest
  | some 't' :: rest => word (.bool true) ['r', 'u', 'e'] rest
  | some 'f' :: rest => word (.bool false) ['a', 'l', 's', 'e'] rest
  | some '-' :: rest => number { negative := true } .sign rest
  | some c :: rest =>
    match digit? c with
    | some 0 => number { whole := [0] } .zero rest
    | some d => number { whole := [d] } .whole rest
    | none => ⟨none, some c :: rest⟩
  | rest => ⟨none, rest⟩
where
  number (n : Numeral) (p : NumeralPlace) (rest : Input) : Reading Document :=
    let r := numeral strict n p rest
    ⟨r.value.map fun v => .number (some v), r.rest⟩

/-- The end of a list. A comma is taken before it is found out of place. -/
def endList (input : Input) : Reading Unit :=
  match skipBlanks input with
  | some ']' :: rest => ⟨some (), rest⟩
  | some ',' :: rest => ⟨none, skipBlanks rest⟩
  | rest => ⟨none, rest⟩

def endRecord (input : Input) : Reading Unit :=
  match skipBlanks input with
  | some '\x7d' :: rest => ⟨some (), rest⟩
  | rest => ⟨none, rest⟩

/-- A container ends after its contents, whether they fitted or not. -/
def Reading.ending {α : Type} (r : Reading α) (close : Input → Reading Unit) : Reading α :=
  let e := close r.rest
  ⟨if e.value.isSome then r.value else none, e.rest⟩

/-- How a container goes on. -/
inductive Next where
  | more (rest : Input)
  | close (rest : Input)
  | wrong (rest : Input)

/-- Whether a list goes on with an item. -/
def nextItem (first : Bool) (input : Input) : Next :=
  match skipBlanks input with
  | [] => .wrong []
  | some ']' :: rest => .close (some ']' :: rest)
  | some ',' :: rest =>
    if first then .more (some ',' :: rest)
    else match skipBlanks rest with
      | some ']' :: rest => .wrong (some ']' :: rest)
      | rest => .more rest
  | here => if first then .more here else .wrong here

/-- Whether a record goes on with a name, whose quote is taken. -/
def nextName (first : Bool) (input : Input) : Next :=
  match skipBlanks input with
  | some '\x7d' :: rest => .close (some '\x7d' :: rest)
  | some ',' :: rest => if first then .wrong (some ',' :: rest) else quote (skipBlanks rest)
  | here => if first then quote here else .wrong here
where
  quote : Input → Next
    | some '"' :: rest => .more rest
    | rest => .wrong rest

/-- A member's name after its quote, and the colon. -/
def name (strict : Bool) (input : Input) : Reading String :=
  let r := text strict {} false input
  match r.value, skipBlanks r.rest with
  | some s, some ':' :: rest => ⟨some s, rest⟩
  | some _, rest => ⟨none, rest⟩
  | none, _ => ⟨none, r.rest⟩

mutual

/-- A value with at most `room` containers nested in it. -/
def value (strict : Bool) : Nat → Nat → Input → Reading Document
  | 0, _, input => ⟨none, input⟩
  | fuel + 1, room, input =>
    match skipBlanks input with
    | some '[' :: rest =>
      if room = 0 then ⟨none, some '[' :: rest⟩
      else
        let r := (items strict fuel (room - 1) true rest).ending endList
        ⟨r.value.map .list, r.rest⟩
    | some '\x7b' :: rest =>
      if room = 0 then ⟨none, some '\x7b' :: rest⟩
      else
        let r := (members strict fuel (room - 1) true rest).ending endRecord
        ⟨r.value.map .record, r.rest⟩
    | here => leaf strict here

def items (strict : Bool) : Nat → Nat → Bool → Input → Reading (List Document)
  | 0, _, _, input => ⟨none, input⟩
  | fuel + 1, room, first, input =>
    match nextItem first input with
    | .close rest => ⟨some [], rest⟩
    | .wrong rest => ⟨none, rest⟩
    | .more rest =>
      match value strict fuel room rest with
      | ⟨none, rest⟩ => ⟨none, rest⟩
      | ⟨some d, rest⟩ =>
        let r := items strict fuel room false rest
        ⟨r.value.map (d :: ·), r.rest⟩

def members (strict : Bool) :
    Nat → Nat → Bool → Input → Reading (List (Option String × Document))
  | 0, _, _, input => ⟨none, input⟩
  | fuel + 1, room, first, input =>
    match nextName first input with
    | .close rest => ⟨some [], rest⟩
    | .wrong rest => ⟨none, rest⟩
    | .more rest =>
      match name strict rest with
      | ⟨none, rest⟩ => ⟨none, rest⟩
      | ⟨some s, rest⟩ =>
        match value strict fuel room rest with
        | ⟨none, rest⟩ => ⟨none, rest⟩
        | ⟨some d, rest⟩ =>
          let r := members strict fuel room false rest
          ⟨r.value.map ((some s, d) :: ·), r.rest⟩

end

/-- Fuel for reading a value: a character opens a container, and each step takes two. -/
def fuel (input : Input) : Nat := 2 * input.length + 2

/-- Passes over any value. -/
def skip (input : Input) : Reading Document := value false (fuel input) input.length input

end Fleet.Json.Stream
