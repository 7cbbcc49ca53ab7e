import Fleet.Graph.Checkpoint
import Fleet.Graph.Node

/-!
A session whose runs are walks through a graph. Runs take turns on the session's state; each ends
with a checkpoint and then one terminal event. A cancel reaches the runs accepted before it.
-/

namespace Fleet.Graph

/-- An accepted message. Runs that share a token are cancelled together. -/
structure Run where
  id : Nat
  token : Nat
  message : String
  deriving DecidableEq, Repr

/-- What the run that holds the state is doing. -/
inductive Stage where
  | walking (w : Walk)
  /-- The state is set and the checkpoint tried; its index, if it was written. -/
  | saved (outcome : Outcome) (index : Option Nat)
  deriving DecidableEq, Repr

structure Session where
  id : String
  nodes : List Node := standard
  state : State := {}
  stopped : Bool := false
  /-- The token of the next run. -/
  token : Nat := 0
  /-- The tokens that were cancelled. -/
  spent : List Nat := []
  /-- How many runs there have been. -/
  count : Nat := 0
  /-- Runs that wait for the state. -/
  queue : List Run := []
  active : Option (Run × Stage) := none
  deriving DecidableEq, Repr

/-- The directory of a session below a workspace. -/
def sessionRoot (workspace : Path) (id : String) : Path := workspace ++ [".semibot", "sessions", id]

namespace Outcome

def status : Outcome → RunStatus
  | completed => .completed
  | cancelled => .cancelled
  | failed _ => .failed

def event : Outcome → Event
  | completed => .done false
  | cancelled => .done true
  | failed cause => .error ⟨Code.runFailed, cause.message⟩

def failure : Outcome → Option String
  | failed cause => some cause.message
  | _ => none

end Outcome

namespace Session

def isCancelled (s : Session) (r : Run) : Bool := s.spent.contains r.token

/-- A new run for a message. -/
def accept (s : Session) (message : String) : Except Error Session := do
  checkSessionId s.id
  if s.stopped then throw (.session s!"Session {s.id} is stopped")
  return { s with queue := s.queue ++ [⟨s.count, s.token, message⟩], count := s.count + 1 }

/-- Cancels all runs so far. Later ones get a token that is not spent. -/
def cancel (s : Session) : Session :=
  { s with spent := s.token :: s.spent, token := s.token + 1 }

def stop (s : Session) : Session := { s.cancel with stopped := true }

/-- The state that a session starts from: the conversation it is given, or its last checkpoint. -/
def opening (d : Disk) (root : Path) (p : StartSession) : Except Error State :=
  match p.history with
  | some history => .ok { messages := history }
  | none => (Checkpoint.latest d root).map fun c => (c.map Checkpoint.state).getD {}

/-- Makes the session's directory and takes up its state. -/
def start (s : Session) (d : Disk) (workspace : Path) (p : StartSession) :
    Except Error Session × Disk :=
  match checkSessionId s.id with
  | .error e => (.error e, d)
  | .ok () =>
    let root := sessionRoot workspace s.id
    match d.makeAll root with
    | .error f => (.error f.toError, d)
    | .ok d => ((opening d root p).map fun st => { s with state := st }, d)

/-! ### Steps of runs -/

/-- A waiting run takes the state, which nobody may hold. -/
def enter (s : Session) (r : Run) : Option Session :=
  if s.active.isNone ∧ r ∈ s.queue then
    let working := s.state.push (.user r.message)
    let walk := if s.isCancelled r then .ended .cancelled working else .ready s.nodes working
    some { s with queue := s.queue.filter (· ≠ r), active := some (r, .walking walk) }
  else none

def follow (s : Session) (r : Run) (t : Stride) : Session × List Sent :=
  ({ s with
      active := some (r, .walking t.walk)
      spent := if t.cancels then r.token :: s.spent else s.spent }, t.sent)

/-- The run takes its next node; `fresh` is an id for a tool call. -/
def walk (s : Session) (fresh : String) : Option (Session × List Sent) :=
  match s.active with
  | some (r, .walking (.ready rest st)) =>
    some (s.follow r (Walk.step s.id fresh (s.isCancelled r) (.ready rest st)))
  | _ => none

/-- The memory answers the run. -/
def answer (s : Session) (outcome : Except Error Json) : Option (Session × List Sent) :=
  match s.active with
  | some (r, .walking (.recalling id rest st)) =>
    some (s.follow r (Walk.answer outcome (.recalling id rest st)))
  | _ => none

/-- A cancelled run stops waiting for the memory. -/
def giveUp (s : Session) : Option Session :=
  match s.active with
  | some (r, .walking (.recalling id rest st)) =>
    if s.isCancelled r then
      some { s with active := some (r, .walking (Walk.giveUp (.recalling id rest st))) }
    else none
  | _ => none

/-- A run that is over sets the state and writes its checkpoint. -/
def save (s : Session) (d : Disk) (workspace : Path) (now : Instant) : Option (Session × Disk) :=
  match s.active with
  | some (r, .walking (.ended outcome st)) =>
    let (c, d) := Checkpoint.append d (sessionRoot workspace s.id) s.id outcome.status st
      outcome.failure now
    let index := match c with
      | .ok c => some c.index
      | .error _ => none
    some ({ s with state := st, active := some (r, .saved outcome index) }, d)
  | _ => none

def snapshot (s : Session) (index : Nat) : Sent :=
  .report Method.snapshot (Json.object
    [("sessionId", .str s.id), ("sequence", .nat index), ("state", s.state.toJson)])

/-- After its checkpoint a run tells its end and leaves the state to the next one. -/
def tell (s : Session) : Option (Session × List Sent) :=
  match s.active with
  | some (_, .saved outcome index) =>
    some ({ s with active := none }, (index.map s.snapshot).toList ++ [.event outcome.event])
  | _ => none

end Session

end Fleet.Graph
