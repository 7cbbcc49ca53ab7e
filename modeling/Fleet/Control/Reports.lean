import Fleet.Bits
import Fleet.Error
import Fleet.Method
import Fleet.Text.Alphanumeric
import Fleet.Text.Blank
import Fleet.Text.Case

/-!
What machines report: snapshots of sessions, notes to remember, token usage, and records for audit
and evolution. Each list is bounded and loses its oldest entries; notes can be searched by words.
-/

namespace Fleet.Control

open Json (Form Reader)

structure Snapshot where
  sessionId : String
  sequence : Nat
  state : Json
  deriving DecidableEq, Repr

structure Note where
  sessionId : Option String
  content : String
  deriving DecidableEq, Repr

structure Usage where
  inputTokens : Nat := 0
  outputTokens : Nat := 0
  reports : Nat := 0
  deriving DecidableEq, Repr, Inhabited

structure Record where
  userId : String
  payload : Json
  deriving DecidableEq, Repr

structure Hit where
  content : String
  sessionId : Option String
  /-- How many of the words asked for the note has, of how many. -/
  matched : Nat
  terms : Nat
  deriving DecidableEq, Repr

/-- One report, as it is read from its payload. -/
inductive Report where
  | snapshot (sessionId : String) (sequence : Option Nat) (state : Json)
  | note (sessionId : Option String) (content : String)
  | usage (inputTokens outputTokens : Nat)
  | audit (payload : Json)
  | evolution (payload : Json)
  deriving DecidableEq, Repr

structure Reports where
  /-- By user and session, oldest first. -/
  snapshots : List ((String × String) × List Snapshot) := []
  notes : List (String × List Note) := []
  usage : List (String × Usage) := []
  audit : List Record := []
  evolution : List Record := []
  deriving DecidableEq, Repr, Inhabited

namespace Snapshot

def toJson (s : Snapshot) : Json :=
  Json.object [("sessionId", .str s.sessionId), ("sequence", .nat s.sequence), ("state", s.state)]

end Snapshot

namespace Usage

def toJson (u : Usage) : Json :=
  Json.object [("inputTokens", .nat u.inputTokens), ("outputTokens", .nat u.outputTokens),
    ("reports", .nat u.reports)]

/-- Counts end at the largest number of 64 bits. -/
def limit : Nat := bitBound 64 - 1

def saturate (n : Nat) : Nat := min n limit

def add (u : Usage) (inputTokens outputTokens : Nat) : Usage :=
  ⟨saturate (u.inputTokens + inputTokens), saturate (u.outputTokens + outputTokens),
    saturate (u.reports + 1)⟩

end Usage

namespace Hit

def score (h : Hit) : Float := Float.ofNat h.matched / Float.ofNat h.terms

def toJson (h : Hit) : Json :=
  Json.object [("content", .str h.content), ("score", .num (.ofFloat h.score)),
    ("sessionId", Json.ofOption (h.sessionId.map Json.str))]

end Hit

namespace Report

def snapshotForm : Form Report :=
  .snapshot <$> .required "sessionId" .text <*> .optional "sequence" .nat64
    <*> .defaulted "state" .any .null

def noteForm : Form Report :=
  .note <$> .optional "sessionId" .text <*> .required "content" .text

def usageForm : Form Report :=
  .usage <$> .defaulted "inputTokens" .nat64 0 <*> .defaulted "outputTokens" .nat64 0

/-- Reads a report of a method. -/
def read (method : String) (payload : Json) : Except Error Report :=
  let reading (r : Reader Report) : Except Error Report :=
    (r.ofJson payload).mapError .serialization
  if method = Method.snapshot then reading (snapshotForm.reader "struct SnapshotPayload")
  else if method = Method.memoryWrite then reading (noteForm.reader "struct MemoryWritePayload")
  else if method = Method.usage then reading (usageForm.reader "struct UsagePayload")
  else if method = Method.audit then .ok (.audit payload)
  else if method = Method.evolution then .ok (.evolution payload)
  else .error (.protocol s!"Unknown fire-and-forget method '{method}'")

end Report

namespace Reports

def snapshotLimit : Nat := 3
def noteLimit : Nat := 5000
def auditLimit : Nat := 1000
def evolutionLimit : Nat := 500
def defaultHits : Nat := 5

/-- Adds an item at the end and keeps the last `limit` ones. -/
def pushBounded {α : Type} (limit : Nat) (xs : List α) (x : α) : List α :=
  let all := xs ++ [x]
  all.drop (all.length - limit)

/-- Changes the value of one key, which starts as `fresh`. -/
def change {κ α : Type} [DecidableEq κ] (key : κ) (fresh : α) (f : α → α) :
    List (κ × α) → List (κ × α)
  | [] => [(key, f fresh)]
  | (k, a) :: rest => if k = key then (k, f a) :: rest else (k, a) :: change key fresh f rest

def snapshotsOf (r : Reports) (user session : String) : List Snapshot :=
  (r.snapshots.lookup (user, session)).getD []

def notesOf (r : Reports) (user : String) : List Note := (r.notes.lookup user).getD []

def usageOf (r : Reports) (user : String) : Usage := (r.usage.lookup user).getD {}

/-- The number of the next snapshot of a session. -/
def nextSequence (held : List Snapshot) : Nat :=
  match held.getLast? with
  | some s => Usage.saturate (s.sequence + 1)
  | none => 1

/-- The snapshot that is kept for what a machine sent. -/
def snapshotFor (r : Reports) (user session : String) (sequence : Option Nat) (state : Json) :
    Snapshot :=
  ⟨session, sequence.getD (nextSequence (r.snapshotsOf user session)), state⟩

/-- Takes one report of a user. A blank note is passed over. -/
def accept (r : Reports) (user : String) : Report → Reports
  | .snapshot session sequence state =>
    let s := r.snapshotFor user session sequence state
    { r with snapshots := change (user, session) [] (pushBounded snapshotLimit · s) r.snapshots }
  | .note session content =>
    if Text.isAllBlank content then r
    else { r with notes := change user [] (pushBounded noteLimit · ⟨session, content⟩) r.notes }
  | .usage input output =>
    { r with usage := change user {} (Usage.add · input output) r.usage }
  | .audit payload => { r with audit := pushBounded auditLimit r.audit ⟨user, payload⟩ }
  | .evolution payload =>
    { r with evolution := pushBounded evolutionLimit r.evolution ⟨user, payload⟩ }

/-- Takes a report as it comes in; one that cannot be read changes nothing. -/
def handle (r : Reports) (user method : String) (payload : Json) : Except Error Reports :=
  (Report.read method payload).map (r.accept user)

/-! ### Search -/

/-- The runs of letters and digits in a text. -/
def runs : List Char → List Char → List (List Char)
  | acc, [] => [acc.reverse]
  | acc, c :: cs =>
    if Text.isAlphanumeric c then runs (c :: acc) cs else acc.reverse :: runs [] cs

/-- The words of a text in small letters, each once. Words of a single byte do not count. -/
def words (s : String) : List String :=
  (((runs [] s.toList).map String.ofList).filter fun w => decide (1 < w.utf8ByteSize)).map Text.lower
    |>.eraseDups

def hit? (terms : List String) (n : Note) : Option Hit :=
  let held := words n.content
  let matched := (terms.filter fun t => held.contains t).length
  if matched = 0 then none else some ⟨n.content, n.sessionId, matched, terms.length⟩

/-- The notes of a user that have a word of the query: more words first, then the later note. -/
def search (r : Reports) (user query : String) (limit : Option Nat) : List Hit :=
  let terms := words query
  let hits := (r.notesOf user).reverse.filterMap (hit? terms)
  (hits.mergeSort fun a b => decide (b.matched ≤ a.matched)).take (limit.getD defaultHits)

end Reports

end Fleet.Control
