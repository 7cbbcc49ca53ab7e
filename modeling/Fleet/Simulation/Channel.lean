import Fleet.Graph.Node

/-!
A control channel that follows a script: it answers calls by their method and records what was sent.
-/

namespace Fleet.Simulation

inductive Answer where
  | give (outcome : Except Error Json)
  /-- The caller waits until the script is looked at again. -/
  | hang
  deriving Repr

inductive Answers where
  | always (a : Answer)
  /-- One after another, then the usual answer. -/
  | each (as : List Answer)
  deriving Repr

/-- What was sent, oldest first; events and reports with their session or method. -/
structure Traffic where
  events : List (String × Event) := []
  requests : List (String × Json) := []
  reports : List (String × Json) := []
  deriving Repr

structure Channel where
  answers : List (String × Answers) := []
  /-- Events and reports are lost. -/
  offline : Bool := false
  traffic : Traffic := {}
  deriving Repr

namespace Channel

/-- The answer to a method that the script does not name. -/
def usual (method : String) : Except Error Json :=
  if method = Method.memorySearch then .ok (Json.object [("hits", .arr [])])
  else .error (.remote ⟨Code.methodNotFound, method⟩)

def setAnswers (method : String) (a : Answers) (all : List (String × Answers)) :
    List (String × Answers) := (method, a) :: all.filter (·.1 ≠ method)

/-- Looks up the answer to a call. Nothing while it hangs. -/
def look (c : Channel) (method : String) : Option (Except Error Json) × Channel :=
  match c.answers.lookup method with
  | some (.always (.give r)) => (some r, c)
  | some (.always .hang) => (none, c)
  | some (.each (a :: rest)) =>
    let c := { c with answers := setAnswers method (.each rest) c.answers }
    match a with
    | .give r => (some r, c)
    | .hang => (none, c)
  | some (.each []) | none => (some (usual method), c)

def take (c : Channel) (session : String) (s : Sent) : Channel :=
  let t := c.traffic
  match s with
  | .event e => if c.offline then c else { c with traffic.events := t.events ++ [(session, e)] }
  | .call method params => { c with traffic.requests := t.requests ++ [(method, params)] }
  | .report method payload =>
    if c.offline then c else { c with traffic.reports := t.reports ++ [(method, payload)] }

def takeAll (c : Channel) (session : String) (sent : List Sent) : Channel :=
  sent.foldl (fun c s => c.take session s) c

end Channel

namespace Traffic

def eventJson (e : String × Event) : Json :=
  Json.object [("session", .str e.1), ("event", e.2.toJson)]

def requestJson (r : String × Json) : Json :=
  Json.object [("method", .str r.1), ("params", r.2)]

def reportJson (r : String × Json) : Json :=
  Json.object [("method", .str r.1), ("payload", r.2)]

def unlessEmpty (name : String) (vs : List Json) : List (String × Json) :=
  if vs.isEmpty then [] else [(name, .arr vs)]

/-- The kinds of traffic that there are. -/
def members (t : Traffic) : List (String × Json) :=
  unlessEmpty "events" (t.events.map eventJson) ++
    unlessEmpty "requests" (t.requests.map requestJson) ++
    unlessEmpty "reports" (t.reports.map reportJson)

end Traffic

end Fleet.Simulation
