import Fleet.Json.Document
import Fleet.Json.Printer
import Fleet.Text.Escape
import Fleet.Text.Utf8

/-!
Reading typed values out of documents. A reader takes members in the order they stand and stops at
the first thing that does not fit; a `Form` lists the members of a record with their defaults, and
a record may also be given as a list of its members' values in that order.
-/

namespace Fleet.Json

/-- What stood where something else was expected. -/
inductive Found where
  | boolean (value : Bool)
  | integer (value : Int)
  | real (bits : UInt64)
  | text (value : String)
  | null
  | sequence
  | map
  deriving DecidableEq, Repr

/-- One step on the way to a place in a document. -/
inductive Segment where
  | name (key : String)
  | index (i : Nat)
  /-- A member whose name could not be read. -/
  | unknown
  deriving DecidableEq, Repr

inductive ReadError where
  /-- The text is no JSON from here on. -/
  | malformed
  | missingField (name : String)
  | duplicateField (name : String)
  | unknownVariant (name : String) (known : List String)
  | invalidType (found : Found) (expected : String)
  | invalidValue (found : Found) (expected : String)
  | invalidLength (length : Nat) (expected : String)
  | custom (text : String)
  /-- An error in a part of the document. -/
  | within (segment : Segment) (cause : ReadError)
  deriving DecidableEq, Repr

def Found.describe : Found → String
  | .boolean b => s!"boolean `{b}`"
  | .integer n => s!"integer `{n}`"
  | .real bits =>
    let digits := String.ofList (realText bits)
    s!"floating point `{digits}`"
  | .text s => "string " ++ Text.quoted s
  | .null => "null"
  | .sequence => "sequence"
  | .map => "map"

def tick (s : String) : String := s!"`{s}`"

/-- The names one of which was expected. -/
def oneOf : List String → String
  | [] => "there are no variants"
  | [a] => "expected " ++ tick a
  | [a, b] => "expected " ++ tick a ++ " or " ++ tick b
  | names => "expected one of " ++ ", ".intercalate (names.map tick)

def ReadError.message : ReadError → String
  | .malformed => "<json syntax error>"
  | .missingField name => s!"missing field `{name}`"
  | .duplicateField name => s!"duplicate field `{name}`"
  | .unknownVariant name [] => s!"unknown variant `{name}`, there are no variants"
  | .unknownVariant name known => s!"unknown variant `{name}`, " ++ oneOf known
  | .invalidType found expected => s!"invalid type: {found.describe}, expected {expected}"
  | .invalidValue found expected => s!"invalid value: {found.describe}, expected {expected}"
  | .invalidLength length expected => s!"invalid length {length}, expected {expected}"
  | .custom text => text
  | .within _ cause => cause.message

/-- The way to the part of the document that is at fault. -/
def ReadError.path : ReadError → List Segment
  | .within segment cause => segment :: cause.path
  | _ => []

/-- What is at fault, without its place. -/
def ReadError.root : ReadError → ReadError
  | .within _ cause => cause.root
  | e => e

/-- A path as it is told, names separated by points. -/
def pathText : List Segment → String → String
  | [], text => text
  | .index i :: rest, text => pathText rest (text ++ s!"[{i}]")
  | .name key :: rest, text =>
    pathText rest (if text.isEmpty then key else text ++ "." ++ key)
  | .unknown :: rest, text => pathText rest (if text.isEmpty then "?" else text ++ ".?")

/-- The message with the place in front, if the place has any name or number. -/
def ReadError.located (e : ReadError) : String :=
  if e.path.all (· = .unknown) then e.message else pathText e.path "" ++ ": " ++ e.message

/-- Puts an error into the part of the document that it comes from. -/
def inside {α : Type} (segment : Segment) : Except ReadError α → Except ReadError α
  | .ok a => .ok a
  | .error e => .error (.within segment e)

/-- Where a document comes from: a text read as it goes, the rest of a tagged value that was set
aside, or a value. -/
inductive Source where
  | stream
  | aside
  | value
  deriving DecidableEq, Repr

/-- The source, and how many more containers may be entered in a stream. -/
structure Context where
  source : Source
  room : Nat
  deriving DecidableEq, Repr

def Reader (α : Type) := Context → Document → Except ReadError α

def Context.enter (ctx : Context) : Except ReadError Context :=
  if ctx.source = .stream ∧ ctx.room = 0 then .error .malformed
  else .ok { ctx with room := ctx.room - 1 }

/-- The error for a document of the wrong kind. -/
def mismatch (d : Document) (expected : String) : ReadError :=
  match d with
  | .null => .invalidType .null expected
  | .bool b => .invalidType (.boolean b) expected
  | .number (some (.int n)) => .invalidType (.integer n) expected
  | .number (some (.real bits)) => .invalidType (.real bits) expected
  | .text (some s) => .invalidType (.text s) expected
  | .list _ => .invalidType .sequence expected
  | .record _ => .invalidType .map expected
  | .number none | .text none | .fault => .malformed

mutual

/-- The way to the first part that denotes no value, when at most `room` containers may be nested. -/
def Document.failure (room : Nat) : Document → Option (List Segment)
  | .number none | .text none | .fault => some []
  | .list items => if room = 0 then some [] else failureInItems (room - 1) 0 items
  | .record members => if room = 0 then some [] else failureInMembers (room - 1) members
  | _ => none

def failureInItems (room i : Nat) : List Document → Option (List Segment)
  | [] => none
  | d :: ds =>
    match d.failure room with
    | some path => some (.index i :: path)
    | none => failureInItems room (i + 1) ds

def failureInMembers (room : Nat) : List (Option String × Document) → Option (List Segment)
  | [] => none
  | (none, _) :: _ => some [.unknown]
  | (some k, d) :: ds =>
    match d.failure room with
    | some path => some (.name k :: path)
    | none => failureInMembers room ds

end

/-- The value of a document, whatever it is. -/
def Document.whole (ctx : Context) (d : Document) : Except ReadError Json :=
  let room := if ctx.source = .stream then ctx.room else depthLimit
  match d.value? room with
  | some v => .ok v
  | none => .error (((d.failure room).getD []).foldr .within .malformed)

/-- What an unknown member holds is passed over. -/
def Document.skip (ctx : Context) (d : Document) : Except ReadError Unit :=
  if ctx.source = .stream ∧ !d.skippable then .error .malformed else .ok ()

namespace Reader

def text : Reader String
  | _, .text (some s) => .ok s
  | _, d => .error (mismatch d "a string")

def boolean : Reader Bool
  | _, .bool b => .ok b
  | _, d => .error (mismatch d "a boolean")

/-- Integers of a range, which has a name. -/
def integer (low high : Int) (range : String) : Reader Int
  | _, .number (some (.int n)) =>
    if low ≤ n ∧ n ≤ high then .ok n else .error (.invalidValue (.integer n) range)
  | _, d => .error (mismatch d range)

def natural (bits : Nat) (range : String) : Reader Nat := fun ctx d =>
  (integer 0 (bitBound bits - 1) range ctx d).map Int.toNat

def nat64 : Reader Nat := natural 64 "u64"

def int64 : Reader Int := integer (-bitBound 63) (bitBound 63 - 1) "i64"

def any : Reader Json := fun ctx d => d.whole ctx

/-- Null stands for nothing. -/
def optional {α : Type} (r : Reader α) : Reader (Option α)
  | _, .null => .ok none
  | ctx, d => (r ctx d).map some

/-- Reads items, of which the first has the number `i`. -/
def each {α : Type} (r : Reader α) (ctx : Context) (i : Nat) :
    List Document → Except ReadError (List α)
  | [] => .ok []
  | d :: ds => do
    let a ← inside (.index i) (r ctx d)
    let as ← each r ctx (i + 1) ds
    return a :: as

def list {α : Type} (r : Reader α) : Reader (List α)
  | ctx, .list items => do r.each (← ctx.enter) 0 items
  | _, d => .error (mismatch d "a sequence")

/-- Sets the entry of one name, keeping the order of names. -/
def put {α : Type} (name : String) (value : α) : List (String × α) → List (String × α)
  | [] => [(name, value)]
  | (k, v) :: rest =>
    if name < k then (name, value) :: (k, v) :: rest
    else if name = k then (name, value) :: rest
    else (k, v) :: put name value rest

def entries {α : Type} (r : Reader α) (ctx : Context) :
    List (Option String × Document) → List (String × α) → Except ReadError (List (String × α))
  | [], acc => .ok acc
  | (none, _) :: _, _ => .error (.within .unknown .malformed)
  | (some k, d) :: rest, acc => do
    let a ← inside (.name k) (r ctx d)
    entries r ctx rest (put k a acc)

/-- Values by name. -/
def table {α : Type} (r : Reader α) : Reader (List (String × α))
  | ctx, .record members => do r.entries (← ctx.enter) members []
  | _, d => .error (mismatch d "a map")

/-- Null. What was set aside may also be a record without members. -/
def nothing : Reader Unit
  | _, .null => .ok ()
  | ⟨.aside, _⟩, .record [] => .ok ()
  | _, d => .error (mismatch d "unit")

def named {α : Type} (choices : List (String × α)) (name : String) : Except ReadError α :=
  match choices.lookup name with
  | some a => .ok a
  | none => .error (.unknownVariant name (choices.map Prod.fst))

/-- One of several names, which may also stand as the only member of a record that holds nothing. -/
def choice {α : Type} (choices : List (String × α)) : Reader α
  | _, .text (some s) => named choices s
  | ctx, .record members =>
    if ctx.source = .stream then
      match members with
      | (some k, d) :: rest => do
        let inner ← ctx.enter
        let a ← named choices k
        inside (.name k) (nothing inner d)
        if rest.isEmpty then return a else throw .malformed
      | _ => .error .malformed
    else
      match members with
      | [(some k, d)] => do
        let a ← named choices k
        nothing ctx d
        return a
      | _ => .error (.invalidValue .map "map with a single key")
  | ctx, d =>
    if ctx.source = .stream then .error .malformed else .error (mismatch d "string or map")

end Reader

/-! ### Records -/

/-- One member of a record: its name, other names for it, and what its value has to be. -/
structure Slot where
  name : String
  others : List String
  check : Reader Unit

/-- The members of a record, and the record made of those that are there. -/
structure Form (α : Type) where
  slots : List Slot
  build : Context → List (String × Document) → Except ReadError α

namespace Form

def required {α : Type} (name : String) (r : Reader α) : Form α where
  slots := [⟨name, [], fun ctx d => (r ctx d).map fun _ => ()⟩]
  build ctx found :=
    match found.lookup name with
    | some d => r ctx d
    | none => .error (.missingField name)

/-- A member that may be missing, under several names. -/
def defaultedAs {α : Type} (name : String) (others : List String) (r : Reader α) (absent : α) :
    Form α where
  slots := [⟨name, others, fun ctx d => (r ctx d).map fun _ => ()⟩]
  build ctx found :=
    match found.lookup name with
    | some d => r ctx d
    | none => .ok absent

def defaulted {α : Type} (name : String) (r : Reader α) (absent : α) : Form α :=
  defaultedAs name [] r absent

/-- A member that may be missing or null. -/
def optional {α : Type} (name : String) (r : Reader α) : Form (Option α) :=
  defaulted name r.optional none

instance : Applicative Form where
  pure a := ⟨[], fun _ _ => .ok a⟩
  seq f g :=
    { slots := f.slots ++ (g ()).slots
      build := fun ctx found => do
        let h ← f.build ctx found
        let a ← (g ()).build ctx found
        return h a }

/-- The members that belong to slots, in the order they stand. -/
def collect (slots : List Slot) (ctx : Context) :
    List (Option String × Document) → List (String × Document) →
      Except ReadError (List (String × Document))
  | [], found => .ok found
  | (none, _) :: _, _ => .error (.within .unknown .malformed)
  | (some k, d) :: rest, found =>
    match slots.find? fun s => s.name == k || s.others.contains k with
    | none => do
      inside (.name k) (d.skip ctx)
      collect slots ctx rest found
    | some s =>
      if (found.lookup s.name).isSome then .error (.duplicateField s.name)
      else do
        inside (.name k) (s.check ctx d)
        collect slots ctx rest (found ++ [(s.name, d)])

/-- The items of a list taken as members; the other part is what is left over. -/
def distribute (ctx : Context) (i : Nat) :
    List Slot → List Document → Except ReadError (List (String × Document) × List Document)
  | [], rest => .ok ([], rest)
  | _ :: _, [] => .ok ([], [])
  | s :: slots, d :: ds => do
    inside (.index i) (s.check ctx d)
    let (found, rest) ← distribute ctx (i + 1) slots ds
    return ((s.name, d) :: found, rest)

def elements (n : Nat) : String := if n = 1 then "1 element" else s!"{n} elements"

/-- A list is too short when it ends before a member that has no default. -/
def tooShort (title : String) (slots : List Slot) : ReadError → ReadError
  | .missingField name =>
    .invalidLength (slots.findIdx fun s => s.name == name)
      (title ++ " with " ++ elements slots.length)
  | e => e

def tooLong (ctx : Context) (taken total : Nat) : ReadError :=
  match ctx.source with
  | .stream => .malformed
  | .aside => .invalidLength total (elements taken ++ " in sequence")
  | .value => .invalidLength total "fewer elements in array"

/-- A record with a title for messages. -/
def reader {α : Type} (title : String) (form : Form α) : Reader α
  | ctx, .record members => do
    let inner ← ctx.enter
    let found ← collect form.slots inner members []
    form.build inner found
  | ctx, .list items => do
    let inner ← ctx.enter
    let (found, rest) ← distribute inner 0 form.slots items
    let a ← (form.build inner found).mapError (tooShort title form.slots)
    if rest.isEmpty then return a
    else throw (tooLong ctx form.slots.length items.length)
  | _, d => .error (mismatch d title)

end Form

/-! ### Tagged records -/

namespace Reader

/-- Splits off the tag, which is read at once; the other members are set aside as they are. -/
def untag {α : Type} (tag : String) (choices : List (String × α)) (ctx : Context) :
    List (Option String × Document) → Option α → List (Option String × Document) →
      Except ReadError (α × List (Option String × Document))
  | [], some a, rest => .ok (a, rest)
  | [], none, _ => .error (.missingField tag)
  | (none, _) :: _, _, _ => .error .malformed
  | (some k, d) :: members, seen, rest =>
    if k = tag then
      if seen.isSome then .error (.duplicateField tag)
      else do
        let a ← tagOf ctx d
        untag tag choices ctx members (some a) rest
    else do
      let _ ← d.whole ctx
      untag tag choices ctx members seen (rest ++ [(some k, d)])
where
  tagOf (_ : Context) : Document → Except ReadError α
    | .text (some s) => named choices s
    | d => .error (mismatch d "variant identifier")

/-- A record whose member `tag` says how the others are read. -/
def tagged {α : Type} (title tag : String) (choices : List (String × Reader α)) : Reader α
  | ctx, .record members => do
    let inner ← ctx.enter
    let (r, rest) ← untag tag choices inner members none []
    r ⟨.aside, inner.room⟩ (.record rest)
  | ctx, .list items => do
    let inner ← ctx.enter
    match items with
    | [] => throw (.missingField tag)
    | d :: rest =>
      let r ← untag.tagOf choices inner d
      let _ ← each any inner 1 rest
      r ⟨.aside, inner.room⟩ (.list rest)
  | _, d => .error (mismatch d title)

/-- Reads a document that is to be the whole input. -/
def whole {α : Type} (r : Reader α) (input : Document × Bool) : Except ReadError α := do
  let a ← r ⟨.stream, depthLimit⟩ input.1
  if input.2 then throw .malformed else return a

/-- Reads a text that is one document. -/
def ofText {α : Type} (r : Reader α) (s : String) : Except ReadError α := r.whole (Document.ofText s)

/-- Reads bytes that are one document. -/
def ofBytes {α : Type} (r : Reader α) (bytes : List UInt8) : Except ReadError α :=
  r.whole (Document.ofCharacters (Text.characters bytes))

/-- Reads the document at the head of bytes, whatever follows it. -/
def ofHead {α : Type} (r : Reader α) (bytes : List UInt8) : Except ReadError α :=
  r ⟨.stream, depthLimit⟩ (Document.ofCharacters (Text.characters bytes)).1

/-- Reads a value. -/
def ofJson {α : Type} (r : Reader α) (v : Json) : Except ReadError α :=
  r ⟨.value, depthLimit⟩ (.ofJson v)

end Reader

end Fleet.Json
