import Fleet.Json.Basic
import Fleet.Text.Alphanumeric

/-!
Names for random values. Where a run is shown, an id or a ticket is replaced by its kind and a number
in order of appearance, so that two runs can be compared; a name can be turned back into the value.
-/

namespace Fleet.Simulation

/-- The values named so far with their names, and how many there are of each kind. -/
structure Names where
  known : List (String × String) := []
  counts : List (String × Nat) := []
  deriving DecidableEq, Repr, Inhabited

def isWordChar (c : Char) : Bool := c = '_' || Text.isAlphanumeric c

def isLowerHex (c : Char) : Bool := c.isDigit || ('a' ≤ c && c ≤ 'f')

/-- Whether characters fit a pattern in which `x` is a hexadecimal digit, `y` one of 8, 9, a, b, and
anything else itself. -/
def fits : List Char → List Char → Bool
  | [], _ => true
  | p :: ps, c :: cs =>
    (if p = 'x' then isLowerHex c else if p = 'y' then ['8', '9', 'a', 'b'].contains c else p = c)
      && fits ps cs
  | _ :: _, [] => false

def idPattern : List Char := "xxxxxxxx-xxxx-4xxx-yxxx-xxxxxxxxxxxx".toList

/-- Whether a word ends here. -/
def wordEnds : List Char → Bool
  | [] => true
  | c :: _ => !isWordChar c

def beginsWith (start : String) (cs : List Char) : Bool := start.toList.isPrefixOf cs

/-- The kinds of ids that begin with their kind. -/
def idKinds : List String := ["conn", "req", "sse"]

/-- The random value at the head of a text: its kind and its length. -/
def randomAt (cs : List Char) : Option (String × Nat) :=
  let marked (kind : String) : Bool :=
    let n := kind.length + 1
    beginsWith (kind ++ "-") cs && fits idPattern (cs.drop n) && wordEnds (cs.drop (n + 36))
  match idKinds.find? marked with
  | some kind => some (kind, kind.length + 37)
  | none =>
    if fits idPattern cs && wordEnds (cs.drop 36) then some ("id", 36)
    else if beginsWith "call-" cs && fits (List.replicate 32 'x') (cs.drop 5)
        && wordEnds (cs.drop 37) then some ("call", 37)
    else if (cs.take 48).length = 48 && (cs.take 48).all Char.isAlphanum
        && wordEnds (cs.drop 48) then some ("ticket", 48)
    else none

/-- The length of a note of a place in a text that was parsed, if one stands here. -/
def placeAt (cs : List Char) : Option Nat :=
  if beginsWith " at line " cs then
    let row := (cs.drop 9).takeWhile Char.isDigit
    let rest := cs.drop (9 + row.length)
    let column := (rest.drop 8).takeWhile Char.isDigit
    if row.isEmpty || column.isEmpty || !beginsWith " column " rest then none
    else some (9 + row.length + 8 + column.length)
  else none

/-- The length of a name at the head of a text. -/
def nameAt (cs : List Char) : Option Nat :=
  (idKinds ++ ["id", "call", "ticket"]).findSome? fun kind =>
    let head := kind ++ "-#"
    let digits := (cs.drop head.length).takeWhile Char.isDigit
    if beginsWith head cs && !digits.isEmpty then some (head.length + digits.length) else none

namespace Names

/-- The name of a value, a new one if need be. -/
def name (ns : Names) (kind value : String) : Names × String :=
  match ns.known.lookup value with
  | some n => (ns, n)
  | none =>
    let k := (ns.counts.lookup kind).getD 0 + 1
    let n := kind ++ "-#" ++ toString k
    (⟨ns.known ++ [(value, n)], (kind, k) :: ns.counts.filter (·.1 ≠ kind)⟩, n)

/-- The value of a name. A name that stands for nothing is itself. -/
def value (ns : Names) (name : String) : String :=
  ((ns.known.find? (·.2 = name)).map Prod.fst).getD name

/-- Names the values in characters, of which there are at most `fuel`. -/
def hideChars : Nat → Names → Bool → List Char → List Char → Names × List Char
  | 0, ns, _, cs, acc => (ns, acc.reverse ++ cs)
  | _ + 1, ns, _, [], acc => (ns, acc.reverse)
  | fuel + 1, ns, inWord, c :: rest, acc =>
    match if !inWord && isWordChar c then randomAt (c :: rest) else none with
    | some (kind, n) =>
      let (ns, name) := ns.name kind (String.ofList ((c :: rest).take n))
      hideChars fuel ns true ((c :: rest).drop n) (name.toList.reverse ++ acc)
    | none =>
      match if c = ' ' then placeAt (c :: rest) else none with
      | some n => hideChars fuel ns inWord ((c :: rest).drop n) acc
      | none => hideChars fuel ns (isWordChar c) rest (c :: acc)

def hideText (ns : Names) (s : String) : Names × String :=
  if s.utf8ByteSize < 17 then (ns, s)
  else
    let (ns, cs) := hideChars (s.length + 1) ns false s.toList []
    (ns, String.ofList cs)

mutual

/-- Names the values in a document, in the order of reading. -/
def hide (ns : Names) : Json → Names × Json
  | .str s => let (ns, s) := ns.hideText s; (ns, .str s)
  | .arr vs => let (ns, vs) := hideItems ns vs; (ns, .arr vs)
  | .obj ms => let (ns, ms) := hideMembers ns ms; (ns, Json.object ms)
  | v => (ns, v)

def hideItems (ns : Names) : List Json → Names × List Json
  | [] => (ns, [])
  | v :: vs =>
    let (ns, v) := hide ns v
    let (ns, vs) := hideItems ns vs
    (ns, v :: vs)

def hideMembers (ns : Names) : List (String × Json) → Names × List (String × Json)
  | [] => (ns, [])
  | (k, v) :: ms =>
    let (ns, k) := ns.hideText k
    let (ns, v) := hide ns v
    let (ns, ms) := hideMembers ns ms
    (ns, (k, v) :: ms)

end

def revealChars (ns : Names) : Nat → Bool → List Char → List Char → List Char
  | 0, _, cs, acc => acc.reverse ++ cs
  | _ + 1, _, [], acc => acc.reverse
  | fuel + 1, inWord, c :: rest, acc =>
    match if inWord then none else nameAt (c :: rest) with
    | some n =>
      let value := ns.value (String.ofList ((c :: rest).take n))
      revealChars ns fuel true ((c :: rest).drop n) (value.toList.reverse ++ acc)
    | none => revealChars ns fuel (isWordChar c) rest (c :: acc)

def revealText (ns : Names) (s : String) : String :=
  if s.contains '#' then String.ofList (revealChars ns (s.length + 1) false s.toList []) else s

mutual

/-- Puts the values back for their names. -/
def reveal (ns : Names) : Json → Json
  | .str s => .str (ns.revealText s)
  | .arr vs => .arr (revealItems ns vs)
  | .obj ms => Json.object (revealMembers ns ms)
  | v => v

def revealItems (ns : Names) : List Json → List Json
  | [] => []
  | v :: vs => reveal ns v :: revealItems ns vs

def revealMembers (ns : Names) : List (String × Json) → List (String × Json)
  | [] => []
  | (k, v) :: ms => (ns.revealText k, reveal ns v) :: revealMembers ns ms

end

end Names

/-! ### Values that look random -/

def digits (base width n : Nat) : String :=
  let ds := Nat.toDigits base n
  String.ofList (List.replicate (width - ds.length) '0' ++ ds)

def freshId (n : Nat) : String := "00000000-0000-4000-8000-" ++ digits 16 12 n

def freshTicket (n : Nat) : String := "T" ++ digits 10 47 n

def freshCall (n : Nat) : String := "call-" ++ digits 16 32 n

/-! ### Runs step by step -/

/-- Runs steps one after another. -/
def steps {σ : Type} (f : σ → Json → σ × Json) (s : σ) : List Json → List Json × σ
  | [] => ([], s)
  | j :: rest =>
    let (s, r) := f s j
    let (rs, s) := steps f s rest
    (r :: rs, s)

/-- Runs steps one after another and names random values after each; a step may use the names. -/
def namedSteps {σ : Type} (f : σ → Json → σ × Json) (s : σ) (js : List Json) : List Json × σ :=
  let (rs, s, _) := steps (fun (s, ns) j =>
    let (s, r) := f s (Names.reveal ns j)
    let (ns, r) := Names.hide ns r
    ((s, ns), r)) (s, ({} : Names)) js
  (rs, s)

/-- The same for steps that may turn out impossible; nothing when one does. -/
def namedTrials {σ : Type} (f : σ → Json → Option (σ × Json)) (s : σ) (js : List Json) :
    Option (List Json × σ) :=
  let (rs, s) := namedSteps (fun (s : Option σ) j => match s.bind (f · j) with
    | some (s, r) => (some s, r)
    | none => (none, .null)) (some s) js
  s.map fun s => (rs, s)

end Fleet.Simulation
