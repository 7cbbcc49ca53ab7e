import Fleet.Json.Printer
import Fleet.Text.Blank

/-!
Terms of a configuration text: literals, lists, objects, references, and parentheses as they were
written. Any term has a text of its own: a text or a template stands for itself, and every other term
stands between the marks of a template.
-/

namespace Fleet.Settings.Hcl

inductive Term where
  | null
  | bool (value : Bool)
  | number (value : Number)
  | text (value : String)
  /-- A text with parts to be filled in. -/
  | template (source : String)
  /-- A text in lines up to a mark. With a dash the lines lose their common indentation. -/
  | lines (mark : String) (dash : Bool) (content : String)
  | reference (name : String)
  | list (items : List Term)
  /-- The names are terms, too; a bare name is a reference. -/
  | object (members : List (Term × Term))
  | grouped (inner : Term)
  deriving Repr, Inhabited

/-! ### Lines without their common indentation -/

def splitLines : List Char → List Char → List (List Char)
  | [], [] => []
  | line, [] => [line.reverse]
  | '\r' :: line, '\n' :: rest => line.reverse :: splitLines [] rest
  | line, '\n' :: rest => line.reverse :: splitLines [] rest
  | line, c :: rest => splitLines (c :: line) rest

def indentOf (line : List Char) : Nat := (line.takeWhile Text.isBlank).length

/-- Takes away the indentation that all lines but empty ones have. -/
def outdent (s : String) : String :=
  let lines := splitLines [] s.toList
  match ((lines.filter fun l => !l.isEmpty).map indentOf).min?.getD 0 with
  | 0 => s
  | n => String.ofList (lines.flatMap fun l => l.drop n ++ ['\n'])

/-! ### Text -/

/-- Doubles are positional from `10 ^ -5` up to `10 ^ 16`, and large exponents have no sign. -/
def realLayout : Decimal.Layout := ⟨-5, 16, 'e', false⟩

def numberText : Number → List Char
  | .int n => Json.intText n
  | .real bits =>
    let sign := if bits >>> 63 = 1 then ['-'] else []
    sign ++ realLayout.write (Decimal.shortest (.ofBits (bits &&& 0x7FFFFFFFFFFFFFFF)))

/-- The mark that would begin a part to be filled in is written with its first character doubled. -/
def escapeMarks : List Char → List Char
  | '$' :: '\x7b' :: rest => '$' :: '$' :: '\x7b' :: escapeMarks rest
  | '%' :: '\x7b' :: rest => '%' :: '%' :: '\x7b' :: escapeMarks rest
  | c :: rest => c :: escapeMarks rest
  | [] => []

mutual

/-- A term as it would be written on one line. -/
def Term.chars : Term → List Char
  | .null => ['n', 'u', 'l', 'l']
  | .bool true => ['t', 'r', 'u', 'e']
  | .bool false => ['f', 'a', 'l', 's', 'e']
  | .number n => numberText n
  | .text s => Json.quote (String.ofList (escapeMarks s.toList))
  | .template s => '"' :: (s.toList ++ ['"'])
  | .lines mark dash content =>
    ['<', '<'] ++ (if dash then ['-'] else []) ++ mark.toList ++ '\n' :: content.toList
      ++ mark.toList
  | .reference name => name.toList
  | .list items => '[' :: (itemChars items ++ [']'])
  | .object [] => ['\x7b', '\x7d']
  | .object members => '\x7b' :: ' ' :: (memberChars members ++ [' ', '\x7d'])
  | .grouped t => '(' :: (t.chars ++ [')'])

def itemChars : List Term → List Char
  | [] => []
  | [t] => t.chars
  | t :: u :: ts => t.chars ++ ',' :: ' ' :: itemChars (u :: ts)

def memberChars : List (Term × Term) → List Char
  | [] => []
  | [(k, t)] => k.chars ++ ' ' :: '=' :: ' ' :: t.chars
  | (k, t) :: m :: ms => k.chars ++ ' ' :: '=' :: ' ' :: (t.chars ++ ',' :: ' ' :: memberChars (m :: ms))

end

/-- The text that a term stands for. -/
def Term.string : Term → String
  | .text s | .template s => s
  | .lines _ dash content => if dash then outdent content else content
  | t => String.ofList ('$' :: '\x7b' :: (t.chars ++ ['\x7d']))

/-- Sets one member of an object. A name that is written the same way keeps its place. -/
def putMember (k t : Term) : List (Term × Term) → List (Term × Term)
  | [] => [(k, t)]
  | (l, u) :: rest => if l.chars = k.chars then (l, t) :: rest else (l, u) :: putMember k t rest

/-! ### Reading -/

namespace Term

def natural? (bits : Nat) : Term → Option Nat
  | .number (.int n) => if 0 ≤ n ∧ n < bitBound bits then some n.toNat else none
  | _ => none

/-- Null stands for no value. -/
def optional {α : Type} (read : Term → α) : Term → Option α
  | .null => none
  | t => some (read t)

/-- The texts of a list. -/
def strings? : Term → Option (List String)
  | .list items => some (items.map string)
  | _ => none

def isNull : Term → Bool
  | .null => true
  | _ => false

/-- Which of several names a member's name means. A number counts them from zero. Nothing when a
term names no member; the inner result is nothing when it names none of these. -/
def nameAmong (names : List String) : Term → Option (Option String)
  | .reference name => some (names.find? (· == name))
  | .number (.int n) => if 0 ≤ n then some names[n.toNat]? else none
  | .null | .bool _ | .number (.real _) | .list _ | .object _ => none
  | .grouped (.reference _) => some none
  | .grouped t => t.nameAmong names
  | t => some (names.find? (· == t.string))

/-- One of several names: as a text, or as the name of the first member of an object, which has to
be null. -/
def choice? {α : Type} (choices : List (String × α)) : Term → Option α
  | .text s => choices.lookup s
  | .object ((k, t) :: _) =>
    match k.nameAmong (choices.map Prod.fst) with
    | some (some name) => if t.isNull then choices.lookup name else none
    | _ => none
  | _ => none

/-- The members of an object that have these names, each at most once. Others are left out. -/
def known (names : List String) :
    List (Term × Term) → List (String × Term) → Option (List (String × Term))
  | [], found => some found
  | (k, t) :: rest, found =>
    match k.nameAmong names with
    | none => none
    | some none => known names rest found
    | some (some name) =>
      if (found.lookup name).isSome then none else known names rest (found ++ [(name, t)])

/-- What an object says under these names. A list has its values in the order of the names. -/
def record? (names : List String) : Term → Option (List (String × Term))
  | .object members => known names members []
  | .list items => some (names.zip items)
  | _ => none

end Term

end Fleet.Settings.Hcl
