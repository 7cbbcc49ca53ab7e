import Fleet.Control.Connections
import Fleet.Simulation.Names

/-!
Runs of connections without sockets: frames stay in the outbox until a step shows them.
-/

namespace Fleet.Simulation

open Control (Connections)

structure ConnectionsRun where
  connections : Connections := {}
  /-- The connections by name. -/
  names : List (String × Nat) := []
  /-- Calls by name that have not been shown as ended. -/
  unshown : List (String × Nat) := []
  /-- Outcomes that have not been shown. -/
  ended : List (String × Except Error Json) := []
  now : Nat := 0

namespace ConnectionsRun

def number (r : ConnectionsRun) (name : String) : Nat :=
  (r.names.lookup name).getD r.connections.opened.length

def connection? (r : ConnectionsRun) (name : String) : Option Control.Connection :=
  r.connections.opened[r.number name]?

/-- Opens a connection under a name; the writer of an older one of that name goes. -/
def connect (r : ConnectionsRun) (name user org : String) : ConnectionsRun :=
  let old := r.connections.change (r.number name) Control.Connection.hangUp
  let k := old.opened.length
  { r with
    connections := old.connect ("conn-" ++ freshId k) user org
    names := r.names.filter (fun n => n.1 ≠ name) ++ [(name, k)] }

/-- Makes a call under a name, on a connection or on the user's current one. -/
def request (r : ConnectionsRun) (name : String) (connection : Option String) (user method : String)
    (params : Json) (timeoutMs : Nat) : ConnectionsRun :=
  let n := r.connections.inquiries.length
  let call : Call := ⟨"req-" ++ freshId n, method, params⟩
  let made := match connection with
    | some c => r.connections.call (r.number c) call timeoutMs r.now
    | none => r.connections.callUser user call timeoutMs r.now
  match made with
  | .ok s => { r with connections := s, unshown := r.unshown ++ [(name, n)] }
  | .error e => { r with ended := r.ended ++ [(name, .error e)] }

/-- Ends the calls whose time is up. -/
def expire (r : ConnectionsRun) : ConnectionsRun :=
  { r with connections := r.connections.expireDue r.now }

def advance (r : ConnectionsRun) (ms : Nat) : ConnectionsRun := { r with now := r.now + ms }.expire

/-- The outcomes to be shown, and the run without them. -/
def takeEnded (r : ConnectionsRun) : List (String × Except Error Json) × ConnectionsRun :=
  let outcome (c : String × Nat) := (r.connections.outcome? c.2).map (c.1, ·)
  (r.ended ++ r.unshown.filterMap outcome,
    { r with ended := [], unshown := r.unshown.filter fun c => (outcome c).isNone })

/-- The frames of each connection, taken out of its outbox. -/
def takeFrames (r : ConnectionsRun) : List (String × List Frame) × ConnectionsRun :=
  let frames := r.names.map fun (name, k) => (name, (r.connections.opened[k]?.map (·.outbox)).getD [])
  (frames.filter fun f => !f.2.isEmpty,
    { r with connections.opened := r.connections.opened.map fun c => { c with outbox := [] } })

end ConnectionsRun

/-- Outcomes by name, several of one name in their order. -/
def gather {α : Type} : List (String × α) → List (String × List α)
  | [] => []
  | (k, a) :: rest =>
    let others := gather rest
    (k, a :: (others.lookup k).getD []) :: others.filter fun o => o.1 ≠ k

end Fleet.Simulation
