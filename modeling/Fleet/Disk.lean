import Fleet.Error

/-!
A tree of directories and files, as far as sessions and skills need one. Paths are lists of names
below a root that is always there; an operation fails for the reason the system would give.
-/

namespace Fleet

abbrev Path := List String

namespace Disk

inductive Entry where
  | directory
  | file (content : List UInt8)
  deriving DecidableEq, Repr

inductive Failure where
  | notFound
  | alreadyThere
  | notDirectory
  | isDirectory
  deriving DecidableEq, Repr

namespace Failure

def message : Failure → String
  | notFound => "No such file or directory (os error 2)"
  | alreadyThere => "File exists (os error 17)"
  | notDirectory => "Not a directory (os error 20)"
  | isDirectory => "Is a directory (os error 21)"

def toError (f : Failure) : Error := .io f.message

end Failure

end Disk

structure Disk where
  entries : List (Path × Disk.Entry) := []
  deriving DecidableEq, Repr, Inhabited

namespace Disk

/-- What stands at a path, whether or not one can get there. -/
def entry? (d : Disk) : Path → Option Entry
  | [] => some .directory
  | p => d.entries.lookup p

/-- Follows the names of a path from a place that was reached. -/
def follow (d : Disk) (here : Path) : List String → Except Failure Entry
  | [] =>
    match d.entry? here with
    | some e => .ok e
    | none => .error .notFound
  | name :: rest =>
    match d.entry? here with
    | some .directory => follow d (here ++ [name]) rest
    | some (.file _) => .error .notDirectory
    | none => .error .notFound

def find (d : Disk) (p : Path) : Except Failure Entry := d.follow [] p

def setAt (p : Path) (e : Entry) : List (Path × Entry) → List (Path × Entry)
  | [] => [(p, e)]
  | (q, f) :: rest => if q = p then (q, e) :: rest else (q, f) :: setAt p e rest

def set (d : Disk) (p : Path) (e : Entry) : Disk := ⟨setAt p e d.entries⟩

def drop (d : Disk) (p : Path) : Disk := ⟨d.entries.filter fun e => e.1 ≠ p⟩

/-- The name of an entry that lies directly in a directory. -/
def nameIn (dir : Path) (p : Path) : Option String :=
  if p.dropLast = dir then p.getLast? else none

/-- The names in a directory, in no particular order. -/
def list (d : Disk) (dir : Path) : Except Failure (List String) :=
  match d.find dir with
  | .ok .directory => .ok (d.entries.filterMap fun e => nameIn dir e.1)
  | .ok (.file _) => .error .notDirectory
  | .error f => .error f

def read (d : Disk) (p : Path) : Except Failure (List UInt8) :=
  match d.find p with
  | .ok (.file content) => .ok content
  | .ok .directory => .error .isDirectory
  | .error f => .error f

/-- Whether an entry can be made at a path: its directory is there. -/
def checkParent (d : Disk) (p : Path) : Except Failure Unit :=
  match d.find p.dropLast with
  | .ok .directory => .ok ()
  | .ok (.file _) => .error .notDirectory
  | .error f => .error f

/-- Writes a whole file. -/
def write (d : Disk) (p : Path) (content : List UInt8) : Except Failure Disk := do
  d.checkParent p
  match d.entry? p with
  | some .directory => throw .isDirectory
  | _ => return d.set p (.file content)

/-- Makes the directories along a path that are not there yet. -/
def makeFrom (here : Path) : List String → Disk → Except Failure Disk
  | [], d =>
    match d.entry? here with
    | some .directory => .ok d
    | some (.file _) => .error .alreadyThere
    | none => .ok (d.set here .directory)
  | name :: rest, d =>
    match d.entry? here with
    | some (.file _) => .error .notDirectory
    | some .directory => makeFrom (here ++ [name]) rest d
    | none => makeFrom (here ++ [name]) rest (d.set here .directory)

def makeAll (d : Disk) (p : Path) : Except Failure Disk := makeFrom [] p d

/-- Moves a file, over another one if need be. -/
def rename (d : Disk) (source target : Path) : Except Failure Disk := do
  let content ← d.read source
  d.checkParent target
  match d.entry? target with
  | some .directory => throw .isDirectory
  | _ => return (d.drop source).set target (.file content)

def remove (d : Disk) (p : Path) : Except Failure Disk := do
  match ← d.find p with
  | .directory => throw .isDirectory
  | .file _ => return d.drop p

end Disk

end Fleet
