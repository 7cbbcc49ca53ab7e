import Fleet.Disk
import Fleet.Graph.State
import Fleet.Time.Reading
import Fleet.Text.Utf8

/-!
The states of a session after its runs, one file each, numbered. A new one is written beside its
place and moved there, and then the oldest are removed.
-/

namespace Fleet.Graph

open Json (Form Reader)

inductive RunStatus where
  | completed
  | failed
  | cancelled
  deriving DecidableEq, Repr

namespace RunStatus

def name : RunStatus → String
  | completed => "completed"
  | failed => "failed"
  | cancelled => "cancelled"

def all : List RunStatus := [.completed, .failed, .cancelled]

def reader : Reader RunStatus := .choice (all.map fun st => (st.name, st))

end RunStatus

structure Checkpoint where
  sessionId : String
  index : Nat
  status : RunStatus
  state : State
  /-- Why the run failed. -/
  error : Option String
  createdAt : Instant
  deriving DecidableEq, Repr

namespace Checkpoint

def toJson (c : Checkpoint) : Json :=
  Json.object ([("sessionId", .str c.sessionId), ("index", .nat c.index),
    ("status", .str c.status.name), ("state", c.state.toJson)]
    ++ member? "error" Json.str c.error ++ [("createdAt", c.createdAt.toJson)])

def form : Form Checkpoint :=
  Checkpoint.mk <$> .required "sessionId" .text <*> .required "index" .nat64
    <*> .required "status" RunStatus.reader <*> .required "state" State.reader
    <*> .optional "error" .text <*> .required "createdAt" Instant.reader

def reader : Reader Checkpoint := form.reader "struct Checkpoint"

def bytes (c : Checkpoint) : List UInt8 := Text.encode (Json.print c.toJson)

/-- How many are kept. -/
def retention : Nat := 10

/-- Indices have 64 bits and start over after the last one. -/
def after (index : Nat) : Nat := (index + 1) % bitBound 64

def pad (digits : List Char) : List Char := List.replicate (8 - digits.length) '0' ++ digits

def fileName (index : Nat) : String := String.ofList (pad (Nat.toDigits 10 index)) ++ ".json"

def number (digits : List Char) : Nat := digits.foldl (fun n c => 10 * n + (c.toNat - 48)) 0

/-- The index in a file's name: at least eight digits, and no more than 64 bits. -/
def indexOf? (name : String) : Option Nat :=
  let cs := name.toList
  let stem := cs.take (cs.length - 5)
  if cs.drop (cs.length - 5) = ".json".toList ∧ 8 ≤ stem.length ∧ stem.all Char.isDigit then
    if number stem < bitBound 64 then some (number stem) else none
  else none

def directory (root : Path) : Path := root ++ ["checkpoints"]

def file (root : Path) (index : Nat) : Path := directory root ++ [fileName index]

/-- Where a checkpoint is written before it is moved to its place. -/
def draft (root : Path) (index : Nat) : Path := directory root ++ [fileName index ++ ".tmp"]

/-- The indices of a session's checkpoints, in order. -/
def indices (d : Disk) (root : Path) : Except Error (List Nat) :=
  match d.list (directory root) with
  | .ok names => .ok ((names.filterMap indexOf?).mergeSort fun a b => decide (a ≤ b))
  | .error .notFound => .ok []
  | .error f => .error f.toError

def load (d : Disk) (root : Path) (index : Nat) : Except Error Checkpoint := do
  let content ← (d.read (file root index)).mapError Disk.Failure.toError
  (reader.ofBytes content).mapError .serialization

/-- The newest checkpoint that can be read. -/
def latest (d : Disk) (root : Path) : Except Error (Option Checkpoint) := do
  let found ← indices d root
  return found.reverse.findSome? fun i => (load d root i).toOption

/-- The index of the next checkpoint. -/
def nextIndex (found : List Nat) : Nat :=
  match found.getLast? with
  | some last => after last
  | none => 1

/-- The indices that are too many. -/
def surplus (found : List Nat) : List Nat := found.take (found.length - retention)

/-- Writes a checkpoint beside its place and moves it there. A draft that cannot be moved stays. -/
def place (d : Disk) (root : Path) (c : Checkpoint) : Except Disk.Failure Unit × Disk :=
  match d.write (draft root c.index) c.bytes with
  | .error f => (.error f, d)
  | .ok d =>
    match d.rename (draft root c.index) (file root c.index) with
    | .error f => (.error f, d)
    | .ok d => (.ok (), d)

/-- Removes checkpoints; one that cannot be removed stays. -/
def prune (d : Disk) (root : Path) (found : List Nat) : Disk :=
  (surplus found).foldl (fun d i => ((d.remove (file root i)).toOption).getD d) d

/-- The next checkpoint of a session, and the disk with it. -/
def append (d : Disk) (root : Path) (session : String) (status : RunStatus) (s : State)
    (error : Option String) (now : Instant) : Except Error Checkpoint × Disk :=
  match d.makeAll (directory root) with
  | .error f => (.error f.toError, d)
  | .ok d =>
    match indices d root with
    | .error e => (.error e, d)
    | .ok found =>
      let c : Checkpoint := ⟨session, nextIndex found, status, s, error, now⟩
      match place d root c with
      | (.error f, d) => (.error f.toError, d)
      | (.ok (), d) => (.ok c, prune d root (found ++ [c.index]))

end Checkpoint

end Fleet.Graph
