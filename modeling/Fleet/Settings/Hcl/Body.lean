import Fleet.Settings.Hcl.Term
import Fleet.Settings.Hcl.Token

/-!
Configuration text: attributes `name = term` and blocks `name label… { … }`, one to a line. A block
without labels is an object under its name, labels nest further objects, and several blocks of one
name make a list.
-/

namespace Fleet.Settings.Hcl

/-! ### Terms -/

/-- Where lines do not matter, their ends are dropped. -/
def dropEnds : List Token → List Token
  | .newline :: ts | .carriage :: ts => dropEnds ts
  | ts => ts

def word : String → Term
  | "true" => .bool true
  | "false" => .bool false
  | "null" => .null
  | name => .reference name

def negative : Number → Number
  | .int n => .int (-n)
  | .real bits => .ofFloat (-(Float.ofBits bits))

mutual

def term : Nat → List Token → Option (Term × List Token)
  | 0, _ => none
  | fuel + 1, ts =>
    match ts with
    | .text s :: rest => some (.text s, rest)
    | .template s :: rest => some (.template s, rest)
    | .lines mark dash content :: rest => some (.lines mark dash content, rest)
    | .number n :: rest => some (.number n, rest)
    | .sign '-' :: .number n :: rest => some (.number (negative n), rest)
    | .name n :: rest => some (word n, rest)
    | .sign '[' :: rest => (termItems fuel (dropEnds rest) []).map fun (vs, r) => (.list vs, r)
    | .sign '\x7b' :: rest =>
      (termMembers fuel (dropEnds rest) []).map fun (ms, r) => (.object ms, r)
    | .sign '(' :: rest =>
      match term fuel (dropEnds rest) with
      | some (t, rest) =>
        match dropEnds rest with
        | .sign ')' :: rest => some (.grouped t, rest)
        | _ => none
      | none => none
    | _ => none

/-- Items with commas between, and perhaps one after the last. -/
def termItems : Nat → List Token → List Term → Option (List Term × List Token)
  | 0, _, _ => none
  | fuel + 1, ts, acc =>
    match ts with
    | .sign ']' :: rest => some (acc.reverse, rest)
    | ts =>
      match term fuel ts with
      | none => none
      | some (t, rest) =>
        match dropEnds rest with
        | .sign ',' :: rest => termItems fuel (dropEnds rest) (t :: acc)
        | .sign ']' :: rest => some ((t :: acc).reverse, rest)
        | _ => none

/-- Members with a comma or the end of a line between. -/
def termMembers : Nat → List Token → List (Term × Term) → Option (List (Term × Term) × List Token)
  | 0, _, _ => none
  | fuel + 1, ts, members =>
    match ts with
    | .sign '\x7d' :: rest => some (members, rest)
    | ts =>
      match term fuel ts with
      | some (k, .sign '=' :: rest) | some (k, .sign ':' :: rest) =>
        match term fuel rest with
        | some (t, .sign ',' :: rest) | some (t, .newline :: rest) =>
          termMembers fuel (dropEnds rest) (putMember k t members)
        | some (t, .sign '\x7d' :: rest) => some (putMember k t members, rest)
        | _ => none
      | _ => none

end

/-! ### What stands under a name -/

/-- A term, or blocks, of which those with labels nest further. -/
inductive Node where
  | term (t : Term)
  | blocks (bodies : List Term)
  | labelled (members : List (String × Node))

/-- Puts a block under its labels beside what is there, or in its place when it cannot stand beside. -/
def Node.add (body : Term) : List String → Option Node → Node
  | [], some (.blocks bs) => .blocks (bs ++ [body])
  | [], _ => .blocks [body]
  | l :: ls, some (.labelled ms) =>
    .labelled
      (match ms.lookup l with
        | some n => ms.map fun (k, v) => if k = l then (k, Node.add body ls (some n)) else (k, v)
        | none => ms ++ [(l, Node.add body ls none)])
  | l :: ls, _ => .labelled [(l, Node.add body ls none)]

mutual

def Node.toTerm : Node → Term
  | .term t => t
  | .blocks [b] => b
  | .blocks bs => .list bs
  | .labelled ms => .object (nodeMembers ms)

def nodeMembers : List (String × Node) → List (Term × Term)
  | [] => []
  | (k, n) :: rest => (.text k, n.toTerm) :: nodeMembers rest

end

/-- A body being read: what stands under each name, and the names that came as attributes. -/
structure Entries where
  members : List (String × Node) := []
  attributes : List String := []

/-- What a name already has becomes `f` of it. A new name goes last. -/
def Entries.alter (name : String) (f : Option Node → Node) (es : Entries) : Entries :=
  { es with members := match es.members.lookup name with
      | some n => es.members.map fun (k, v) => if k = name then (k, f (some n)) else (k, v)
      | none => es.members ++ [(name, f none)] }

/-- An attribute comes once. It takes the place of blocks of its name. -/
def Entries.attribute (name : String) (t : Term) (es : Entries) : Option Entries :=
  if name ∈ es.attributes then none
  else
    some (Entries.alter name (fun _ => .term t) { es with attributes := name :: es.attributes })

/-- A block stands beside blocks of its name and takes the place of an attribute. -/
def Entries.block (name : String) (labels : List String) (body : Term) (es : Entries) : Entries :=
  es.alter name (Node.add body labels)

def Entries.toTerm (es : Entries) : Term := .object (nodeMembers es.members)

/-! ### Bodies -/

def labels : List Token → List String × List Token
  | .name l :: ts | .text l :: ts => let (ls, rest) := labels ts; (l :: ls, rest)
  | ts => ([], ts)

/-- An attribute or block ends its line, or the text. -/
def endLine : List Token → Option (List Token)
  | [] => some []
  | .newline :: ts => some (dropEnds ts)
  | _ => none

mutual

/-- A body up to the end of the text, or to the brace that closes it. -/
def body : Nat → Bool → List Token → Entries → Option (Term × List Token)
  | 0, _, _, _ => none
  | fuel + 1, inner, ts, es =>
    match ts with
    | [] => if inner then none else some (es.toTerm, [])
    | .sign '\x7d' :: rest => if inner then some (es.toTerm, rest) else none
    | .name k :: .sign '=' :: rest =>
      match term fuel rest with
      | none => none
      | some (t, rest) =>
        match endLine rest, es.attribute k t with
        | some rest, some es => body fuel inner rest es
        | _, _ => none
    | .name k :: rest =>
      match labels rest with
      | (ls, .sign '\x7b' :: rest) =>
        match blockBody fuel rest with
        | none => none
        | some (b, rest) =>
          match endLine rest with
          | some rest => body fuel inner rest (es.block k ls b)
          | none => none
      | _ => none
    | _ => none

/-- The inside of a block. On one line it holds at most one attribute. -/
def blockBody : Nat → List Token → Option (Term × List Token)
  | 0, _ => none
  | fuel + 1, ts =>
    match ts with
    | .newline :: rest => body fuel true (dropEnds rest) {}
    | .sign '\x7d' :: rest => some (.object [], rest)
    | .name k :: .sign '=' :: rest =>
      match term fuel rest with
      | some (t, .sign '\x7d' :: rest) => some (.object [(.text k, t)], rest)
      | _ => none
    | _ => none

end

/-- The object that a configuration text describes. -/
def parse? (s : String) : Option Term :=
  (tokens s).bind fun ts => (body (2 * ts.length + 2) false (dropEnds ts) {}).map Prod.fst

end Fleet.Settings.Hcl
