import Fleet.Control.Reports
import Fleet.Disk
import Fleet.Text.Utf8

/-!
Answers to the calls of machines: packages of skills, which are directories of small text files, and
searches in a user's notes.
-/

namespace Fleet.Control

open Json (Form Reader)

structure SkillPackage where
  name : String
  /-- Contents by name. -/
  files : List (String × String)
  deriving DecidableEq, Repr

namespace SkillPackage

def toJson (p : SkillPackage) : Json :=
  Json.object [("name", .str p.name),
    ("files", Json.object (p.files.map fun (k, v) => (k, .str v)))]

/-- Longer files are left out. -/
def fileLimit : Nat := 256 * 1024

def isNameChar (c : Char) : Bool := c.isAlphanum || c = '-' || c = '_' || c = '.'

/-- A skill's name is that of a directory and never leads out of its parent. -/
def isName (name : String) : Bool :=
  match name.toList with
  | [] => false
  | c :: cs => c ≠ '.' && (c :: cs).all isNameChar

/-- The text of a file that belongs to a package. -/
def text? (d : Disk) (p : Path) : Option String :=
  match d.entry? p with
  | some (.file content) => if fileLimit < content.length then none else Text.decode? content
  | _ => none

/-- The package of a skill below a directory of skills. -/
def load (d : Disk) (root : Path) (name : String) : Except Error SkillPackage :=
  if !isName name then .error (.notFound s!"Invalid skill name '{name}'")
  else
    let dir := root ++ [name]
    match d.list dir with
    | .error _ => .error (.notFound s!"Skill '{name}' not found")
    | .ok names =>
      .ok ⟨name, names.filterMap fun n => (text? d (dir ++ [n])).map (n, ·)⟩

end SkillPackage

/-- Where skills are kept, if anywhere. -/
structure Router where
  disk : Disk := {}
  skills : Option Path := none
  deriving DecidableEq, Repr, Inhabited

namespace Router

def nameForm : Form String := .required "name" .text

def searchForm : Form (String × Option Nat) :=
  (·, ·) <$> .required "query" .text <*> .optional "limit" (.natural 64 "usize")

def skillPackage (r : Router) (params : Json) : Except Error Json := do
  let name ← ((nameForm.reader "struct SkillPackageParams").ofJson params).mapError .serialization
  match r.skills with
  | none => throw (.notFound s!"Skill '{name}' not available")
  | some root => return (← SkillPackage.load r.disk root name).toJson

def memorySearch (reports : Reports) (user : String) (params : Json) : Except Error Json := do
  let (query, limit) ←
    ((searchForm.reader "struct MemorySearchParams").ofJson params).mapError .serialization
  return Json.object [("hits", .arr ((reports.search user query limit).map Hit.toJson))]

/-- The fault that a machine sees for an error. -/
def fault : Error → Fault
  | .notFound text => ⟨Code.skillNotFound, text⟩
  | .serialization e => ⟨Code.requestFailed, "Invalid params: " ++ e.message⟩
  | e => e.fault

/-- Answers one call of a user's machine. -/
def answer (r : Router) (reports : Reports) (user method : String) (params : Json) :
    Except Fault Json :=
  if method = Method.skillPackage then (r.skillPackage params).mapError fault
  else if method = Method.memorySearch then (memorySearch reports user params).mapError fault
  else .error ⟨Code.methodNotFound, s!"Unknown method '{method}'"⟩

end Router

end Fleet.Control
