import Fleet.Text.Utf8

/-!
Media types: `type/subtype`, with parameters after semicolons. The last plus in a subtype, unless it
begins it, sets a suffix apart. What names JSON is an `application` type with subtype or suffix `json`.
-/

namespace Fleet.Http

def isTokenChar (c : Char) : Bool := c.isAlphanum || "!#$%&'*+-.^_|~".contains c || c.toNat = 96

/-- A character between quotes. -/
def isQuotedChar (c : Char) : Bool := ' ' ≤ c && c.toNat < 127

/-- Where a parameter is being read. -/
inductive ParameterPlace where
  | before
  | name
  | equals
  | bare
  | quoted (filled : Bool)
  | after
  deriving DecidableEq, Repr

/-- One more character of the parameters. A quoted value holds something, if only a quote. -/
def ParameterPlace.step (p : ParameterPlace) (c : Char) : Option ParameterPlace :=
  match p with
  | .before => if c = ' ' then some .before else if isTokenChar c then some .name else none
  | .name => if c = '=' then some .equals else if isTokenChar c then some .name else none
  | .equals => if c = '"' then some (.quoted false) else if isTokenChar c then some .bare else none
  | .bare => if c = ';' then some .before else if isTokenChar c then some .bare else none
  | .quoted filled =>
    if c = '"' && filled then some .after
    else if isQuotedChar c then some (.quoted true)
    else none
  | .after => if c = ';' then some .before else if c = ' ' then some .after else none

def parametersFrom : ParameterPlace → List Char → Option ParameterPlace
  | p, [] => some p
  | p, c :: cs => (p.step c).bind (parametersFrom · cs)

/-- Whether these are parameters; the last semicolon may stand without one. -/
def areParameters (cs : List Char) : Bool :=
  match parametersFrom .before cs with
  | some .before | some .equals | some .bare | some .after => true
  | _ => false

def lower (cs : List Char) : List Char := cs.map Char.toLower

/-- A subtype without its suffix, and the suffix. -/
def splitSuffix (cs : List Char) : List Char × Option (List Char) :=
  let back := cs.reverse
  match back.dropWhile (· ≠ '+') with
  | _ :: d :: front => ((d :: front).reverse, some (back.takeWhile (· ≠ '+')).reverse)
  | _ => (cs, none)

/-- Whether a subtype or its suffix is `json`. -/
def isJsonSubtype (cs : List Char) : Bool :=
  let (subtype, suffix) := splitSuffix cs
  subtype = "json".toList || suffix = some "json".toList

/-- Whether a content type names JSON. -/
def isJsonType (s : String) : Bool :=
  let cs := s.toList
  let kind := cs.takeWhile (· ≠ '/')
  let rest := (cs.dropWhile (· ≠ '/')).drop 1
  let subtype := rest.takeWhile (· ≠ ';')
  lower kind = "application".toList && isJsonSubtype (lower subtype) &&
    subtype.all isTokenChar && areParameters ((rest.dropWhile (· ≠ ';')).drop 1)

end Fleet.Http
