import Fleet.Json.Numeral

/-!
What a JSON text says, as far as it can be read: members in the order they stand, repeated names
kept, and a fault at the place where the text stops being JSON. A reader that meets the members in
order then meets the fault in order too. Some text may be skipped but not read: a literal too large
for a double, an escape that denotes no character, and bytes within quotes that are no character.
-/

namespace Fleet.Json

inductive Document where
  | null
  | bool (value : Bool)
  /-- Nothing for a literal out of range. -/
  | number (value : Option Number)
  /-- Nothing for a text with half a surrogate pair or bytes that are no text. -/
  | text (value : Option String)
  | list (items : List Document)
  | record (members : List (Option String × Document))
  | fault
  deriving Repr, Inhabited

/-- One lexical element. -/
inductive Token where
  | leaf (value : Document)
  | listOpen
  | listClose
  | recordOpen
  | recordClose
  | comma
  | colon
  | fault
  deriving Repr, Inhabited

/-! ### Lexical elements, one character at a time -/

inductive QuotedPlace where
  | plain
  | escape
  | unit (count value : Nat)
  deriving DecidableEq, Repr

/-- A text being read, its characters in reverse. -/
structure Quoted where
  read : List Char := []
  /-- A leading surrogate, whose partner has to follow at once. -/
  high : Option Nat := none
  sound : Bool := true
  place : QuotedPlace := .plain
  deriving DecidableEq, Repr

namespace Quoted

def push (q : Quoted) (c : Char) : Quoted :=
  { q with read := c :: q.read, sound := q.sound && q.high.isNone, place := .plain }

/-- Takes up a 16-bit unit. -/
def unit (q : Quoted) (u : Nat) : Quoted :=
  match q.high with
  | some h =>
    if 0xDC00 ≤ u ∧ u < 0xE000 then
      { q with
        read := Char.ofNat (0x10000 + (h - 0xD800) * 0x400 + (u - 0xDC00)) :: q.read
        high := none
        place := .plain }
    else { q with sound := false, place := .plain }
  | none =>
    if 0xD800 ≤ u ∧ u < 0xDC00 then { q with high := some u, place := .plain }
    else if 0xDC00 ≤ u ∧ u < 0xE000 then { q with sound := false, place := .plain }
    else { q with read := Char.ofNat u :: q.read, place := .plain }

def value (q : Quoted) : Option String :=
  if q.sound && q.high.isNone then some (String.ofList q.read.reverse) else none

end Quoted

/-- The character that a one-letter escape denotes. -/
def escaped? : Char → Option Char
  | '"' => some '"'
  | '\\' => some '\\'
  | '/' => some '/'
  | 'b' => some '\x08'
  | 'f' => some '\x0c'
  | 'n' => some '\n'
  | 'r' => some '\r'
  | 't' => some '\t'
  | _ => none

def hexValue? (c : Char) : Option Nat :=
  if '0' ≤ c ∧ c ≤ '9' then some (c.toNat - '0'.toNat)
  else if 'a' ≤ c ∧ c ≤ 'f' then some (c.toNat - 'a'.toNat + 10)
  else if 'A' ≤ c ∧ c ≤ 'F' then some (c.toNat - 'A'.toNat + 10)
  else none

def digit? (c : Char) : Option Nat :=
  if '0' ≤ c ∧ c ≤ '9' then some (c.toNat - '0'.toNat) else none

/-- How far a number literal has been read. -/
inductive NumeralPlace where
  | sign
  | zero
  | whole
  | point
  | fraction
  | mark
  | exponentSign
  | exponent
  deriving DecidableEq, Repr

/-- Whether a literal may end here. -/
def NumeralPlace.complete : NumeralPlace → Bool
  | .zero | .whole | .fraction | .exponent => true
  | .sign | .point | .mark | .exponentSign => false

/-- Takes one more character into a literal. Nothing when it does not belong to it. -/
def Numeral.extend (n : Numeral) (p : NumeralPlace) (c : Char) : Option (Numeral × NumeralPlace) :=
  let down := (n.exponent.getD (false, [])).1
  let read := (n.exponent.getD (false, [])).2
  match p, digit? c with
  | .sign, some 0 => some ({ n with whole := [0] }, .zero)
  | .sign, some d | .whole, some d => some ({ n with whole := n.whole ++ [d] }, .whole)
  | .point, some d | .fraction, some d => some ({ n with fraction := n.fraction ++ [d] }, .fraction)
  | .mark, some d | .exponentSign, some d | .exponent, some d =>
    some ({ n with exponent := some (down, read ++ [d]) }, .exponent)
  | .zero, none | .whole, none =>
    if c = '.' then some ({ n with pointed := true }, .point)
    else if c = 'e' ∨ c = 'E' then some ({ n with exponent := some (false, []) }, .mark)
    else none
  | .fraction, none =>
    if c = 'e' ∨ c = 'E' then some ({ n with exponent := some (false, []) }, .mark) else none
  | .mark, none =>
    if c = '+' then some (n, .exponentSign)
    else if c = '-' then some ({ n with exponent := some (true, []) }, .exponentSign)
    else none
  | _, _ => none

inductive Mode where
  | between
  | word (rest : List Char) (value : Document)
  | numeral (literal : Numeral) (place : NumeralPlace)
  | quoted (text : Quoted)
  | stuck

def isBlank (c : Char) : Bool := c = ' ' || c = '\n' || c = '\t' || c = '\r'

/-- The first character of an element. -/
def begin (c : Char) : List Token × Mode :=
  if isBlank c then ([], .between)
  else match c with
    | '[' => ([.listOpen], .between)
    | ']' => ([.listClose], .between)
    | '{' => ([.recordOpen], .between)
    | '}' => ([.recordClose], .between)
    | ',' => ([.comma], .between)
    | ':' => ([.colon], .between)
    | '"' => ([], .quoted {})
    | 'n' => ([], .word ['u', 'l', 'l'] .null)
    | 't' => ([], .word ['r', 'u', 'e'] (.bool true))
    | 'f' => ([], .word ['a', 'l', 's', 'e'] (.bool false))
    | '-' => ([], .numeral { negative := true } .sign)
    | c =>
      match digit? c with
      | some 0 => ([], .numeral { whole := [0] } .zero)
      | some d => ([], .numeral { whole := [d] } .whole)
      | none => ([.fault], .stuck)

/-- One character of a text between quotes. -/
def Quoted.step (q : Quoted) (c : Char) : List Token × Mode :=
  match q.place with
  | .plain =>
    if c = '"' then ([.leaf (.text q.value)], .between)
    else if c = '\\' then ([], .quoted { q with place := .escape })
    else if c.toNat < 0x20 then ([.fault], .stuck)
    else ([], .quoted (q.push c))
  | .escape =>
    if c = 'u' then ([], .quoted { q with place := .unit 0 0 })
    else match escaped? c with
      | some e => ([], .quoted (q.push e))
      | none => ([.fault], .stuck)
  | .unit count value =>
    match hexValue? c with
    | some d =>
      if count = 3 then ([], .quoted (q.unit (value * 16 + d)))
      else ([], .quoted { q with place := .unit (count + 1) (value * 16 + d) })
    | none => ([.fault], .stuck)

def Mode.step : Mode → Char → List Token × Mode
  | .between, c => begin c
  | .word [] value, c => let (ts, m) := begin c; (.leaf value :: ts, m)
  | .word (w :: rest) value, c => if c = w then ([], .word rest value) else ([.fault], .stuck)
  | .numeral n p, c =>
    match n.extend p c with
    | some (n', p') => ([], .numeral n' p')
    | none =>
      if p.complete ∧ ¬(p = .zero ∧ (digit? c).isSome) then
        let (ts, m) := begin c
        (.leaf (.number n.number) :: ts, m)
      else ([.fault], .stuck)
  | .quoted q, c => q.step c
  | .stuck, _ => ([], .stuck)

/-- A piece of the input that is no character may stand only within quotes, where it spoils the text. -/
def Mode.stepOver : Mode → List Token × Mode
  | .quoted q =>
    if q.place = .plain then ([], .quoted { q with sound := false }) else ([.fault], .stuck)
  | m => m.step '\x00'

/-- What is left to say at the end of the text. -/
def Mode.finish : Mode → List Token
  | .between | .stuck => []
  | .word [] value => [.leaf value]
  | .numeral n p => if p.complete then [.leaf (.number n.number)] else [.fault]
  | .word _ _ | .quoted _ => [.fault]

/-! ### Nesting, one element at a time -/

/-- A container being read, its contents in reverse. -/
inductive Layer where
  | list (items : List Document)
  | record (members : List (Option String × Document)) (name : Option String)
  deriving Repr

inductive Place where
  | value
  | valueOrEnd
  | nameOrEnd
  | name
  | colon
  | more
  deriving DecidableEq, Repr

inductive Build where
  | within (layers : List Layer) (place : Place)
  | done (root : Document) (trailing : Bool)
  deriving Repr

/-- Hands a finished value to the container around it. -/
def Build.put : List Layer → Document → Build
  | [], d => .done d false
  | .list items :: up, d => .within (.list (d :: items) :: up) .more
  | .record members name :: up, d => .within (.record ((name, d) :: members) none :: up) .more

def Layer.close (l : Layer) (last : Document) : Document :=
  match l with
  | .list items => .list (last :: items).reverse
  | .record members name => .record ((name, last) :: members).reverse

/-- Ends the reading with a fault in the innermost container. -/
def Build.break (layers : List Layer) : Build :=
  .done (layers.foldl (fun d l => l.close d) .fault) false

def Build.step : Build → Token → Build
  | .done root _, _ => .done root true
  | .within layers place, t =>
    match place, t, layers with
    | .value, .leaf d, _ | .valueOrEnd, .leaf d, _ => .put layers d
    | .value, .listOpen, _ | .valueOrEnd, .listOpen, _ => .within (.list [] :: layers) .valueOrEnd
    | .value, .recordOpen, _ | .valueOrEnd, .recordOpen, _ =>
      .within (.record [] none :: layers) .nameOrEnd
    | .valueOrEnd, .listClose, .list items :: up | .more, .listClose, .list items :: up =>
      .put up (.list items.reverse)
    | .nameOrEnd, .recordClose, .record members _ :: up
    | .more, .recordClose, .record members _ :: up => .put up (.record members.reverse)
    | .nameOrEnd, .leaf (.text name), .record members _ :: up
    | .name, .leaf (.text name), .record members _ :: up =>
      .within (.record members name :: up) .colon
    | .colon, .colon, _ => .within layers .value
    | .more, .comma, .list _ :: _ => .within layers .value
    | .more, .comma, .record _ _ :: _ => .within layers .name
    | _, _, _ => .break layers

def Build.finish : Build → Document × Bool
  | .done root trailing => (root, trailing)
  | .within layers _ =>
    match Build.break layers with
    | .done root trailing => (root, trailing)
    | .within _ _ => (.fault, false)

namespace Document

/-- One character: the elements it ends or forms go straight into the nesting. -/
def feed (state : Mode × Build) (c : Option Char) : Mode × Build :=
  let (ts, m) := match c with
    | some c => state.1.step c
    | none => state.1.stepOver
  (m, ts.foldl Build.step state.2)

/-- The document at the head of some input, and whether anything but blanks follows it. -/
def ofCharacters (input : List (Option Char)) : Document × Bool :=
  let (m, b) := input.foldl feed (.between, .within [] .value)
  (m.finish.foldl Build.step b).finish

def ofText (text : String) : Document × Bool := ofCharacters (text.toList.map some)

mutual

/-- Whether a document holds no fault, so that it can be skipped. -/
def skippable : Document → Bool
  | .fault => false
  | .list items => skippableItems items
  | .record members => skippableMembers members
  | _ => true

def skippableItems : List Document → Bool
  | [] => true
  | d :: ds => d.skippable && skippableItems ds

def skippableMembers : List (Option String × Document) → Bool
  | [] => true
  | (_, d) :: ds => d.skippable && skippableMembers ds

end

mutual

/-- The value that a document denotes when at most `room` containers may be nested in it. -/
def value? (room : Nat) : Document → Option Json
  | .null => some .null
  | .bool b => some (.bool b)
  | .number n => n.map .num
  | .text s => s.map .str
  | .list items => if room = 0 then none else (valueItems? (room - 1) items).map .arr
  | .record members =>
    if room = 0 then none else (valueMembers? (room - 1) members).map Json.object
  | .fault => none

def valueItems? (room : Nat) : List Document → Option (List Json)
  | [] => some []
  | d :: ds => do
    let v ← d.value? room
    let vs ← valueItems? room ds
    return v :: vs

def valueMembers? (room : Nat) : List (Option String × Document) → Option (List (String × Json))
  | [] => some []
  | (name, d) :: ds => do
    let k ← name
    let v ← d.value? room
    let vs ← valueMembers? room ds
    return (k, v) :: vs

end

mutual

/-- The document of a value. -/
def ofJson : Json → Document
  | .null => .null
  | .bool b => .bool b
  | .num n => .number (some n)
  | .str s => .text (some s)
  | .arr items => .list (ofItems items)
  | .obj members => .record (ofMembers members)

def ofItems : List Json → List Document
  | [] => []
  | v :: vs => ofJson v :: ofItems vs

def ofMembers : List (String × Json) → List (Option String × Document)
  | [] => []
  | (k, v) :: vs => (some k, ofJson v) :: ofMembers vs

end

end Document

/-- Containers nest at most this deep. -/
def depthLimit : Nat := 127

/-- Reads one JSON value that is the whole text. -/
def ofText? (text : String) : Option Json :=
  match Document.ofText text with
  | (_, true) => none
  | (d, false) => d.value? depthLimit

end Fleet.Json
