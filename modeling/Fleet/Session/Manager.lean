import Fleet.Bridge.Link
import Fleet.Graph.Session

/-!
The sessions of a machine. A request is worked off in steps, with other requests in between; each
started session has an adapter, which plays its runs, and a place in the table of sessions.
-/

namespace Fleet.Session

structure Info where
  sessionId : String
  userId : String
  agentId : String
  runtime : Runtime
  stopped : Bool := false
  deriving DecidableEq, Repr

inductive Adapter where
  | graph (s : Graph.Session)
  | bridge (l : Bridge.Link)
  deriving DecidableEq, Repr

/-- A request that is under way. -/
inductive Task where
  /-- The session's old adapter has to end before a new one is made. -/
  | replacing (old : Nat) (process : Option Nat) (p : StartSession)
  /-- The new adapter is not started yet. -/
  | opening (key : Nat) (p : StartSession)
  /-- The new adapter is started and has no place in the table yet. -/
  | opened (key : Nat) (p : StartSession)
  | stopping (key : Nat) (process : Option Nat) (info : Info)
  deriving DecidableEq, Repr

inductive Progress where
  | waits (t : Task)
  | done (outcome : Except Error Json)
  deriving Repr

structure Manager where
  workspace : Path := []
  /-- The table: each session with the key of its adapter. -/
  entries : List (String × Info × Nat) := []
  /-- All adapters by key, also of sessions that are gone. -/
  adapters : List Adapter := []
  deriving DecidableEq, Repr, Inhabited

namespace Info

def toJson (i : Info) : Json :=
  Json.object [("sessionId", .str i.sessionId), ("userId", .str i.userId),
    ("agentId", .str i.agentId), ("runtimeType", .str i.runtime.name),
    ("status", .str (if i.stopped then "stopped" else "active"))]

def ofStart (p : StartSession) : Info := ⟨p.sessionId, p.userId, p.agentId, p.runtime, false⟩

end Info

namespace Adapter

def make (p : StartSession) : Adapter :=
  match p.runtime with
  | .semigraph => .graph { id := p.sessionId }
  | .openclaw => .bridge { session := p.sessionId }

/-- Starts the adapter; what it needs on the disk is made. -/
def start (a : Adapter) (d : Disk) (workspace : Path) (p : StartSession) :
    Except Error Adapter × Disk :=
  match a with
  | graph s => let (r, d) := s.start d workspace p; (r.map graph, d)
  | bridge l => (.ok (bridge (l.start p)), d)

def message (a : Adapter) (text : String) : Except Error Adapter :=
  match a with
  | graph s => (s.accept text).map graph
  | bridge l => (l.send (.userMessage text)).map bridge

def cancel : Adapter → Except Error Adapter
  | graph s => .ok (graph s.cancel)
  | bridge l => (l.send .cancel).map bridge

/-- Stops the adapter; there may be a process to wait for. -/
def stop : Adapter → Adapter × Option Nat
  | graph s => (graph s.stop, none)
  | bridge l => let (l, process) := l.stop; (bridge l, process)

/-- Whether the adapter no longer waits for a process. -/
def atRest (a : Adapter) (process : Option Nat) : Bool :=
  match a, process with
  | bridge l, some key => l.hasExited key
  | _, _ => true

/-- Nobody refers to the adapter any more. -/
def discard : Adapter → Adapter
  | graph s => graph s
  | bridge l => bridge l.discard

end Adapter

namespace Manager

def find? (m : Manager) (id : String) : Option (Info × Nat) := m.entries.lookup id

def count (m : Manager) : Nat := m.entries.length

def get? (m : Manager) (id : String) : Option Info := (m.find? id).map Prod.fst

def unknown (id : String) : Error := .session s!"Session {id} not found"

def withoutEntry (m : Manager) (id : String) : Manager :=
  { m with entries := m.entries.filter fun e => e.1 ≠ id }

def setAdapter (m : Manager) (key : Nat) (a : Adapter) : Manager :=
  { m with adapters := m.adapters.set key a }

def stopAdapter (m : Manager) (key : Nat) : Manager × Option Nat :=
  match m.adapters[key]? with
  | none => (m, none)
  | some a => let (a, process) := a.stop; (m.setAdapter key a, process)

/-- Makes an adapter for a session, which is to be started next. -/
def make (m : Manager) (p : StartSession) : Manager × Progress :=
  ({ m with adapters := m.adapters ++ [.make p] }, .waits (.opening m.adapters.length p))

/-- A start of a session with the same runtime is acknowledged again; one with another runtime
replaces it. -/
def beginStart (m : Manager) (p : StartSession) : Manager × Progress :=
  match checkSessionId p.sessionId with
  | .error e => (m, .done (.error e))
  | .ok () =>
    match m.find? p.sessionId with
    | none => m.make p
    | some (info, key) =>
      if info.runtime = p.runtime then (m, .done (.ok info.toJson))
      else
        let (m, process) := (m.withoutEntry p.sessionId).stopAdapter key
        (m, .waits (.replacing key process p))

/-- Hands something to a session's adapter. -/
def withAdapter (m : Manager) (id : String) (f : Adapter → Except Error Adapter) (answer : Json) :
    Manager × Progress :=
  match (m.find? id).bind fun (_, key) => (m.adapters[key]?).map (key, ·) with
  | none => (m, .done (.error (unknown id)))
  | some (key, a) =>
    match f a with
    | .ok a => (m.setAdapter key a, .done (.ok answer))
    | .error e => (m, .done (.error e))

def beginStop (m : Manager) (id : String) : Manager × Progress :=
  match m.find? id with
  | none => (m, .done (.error (unknown id)))
  | some (info, key) =>
    let (m, process) := (m.withoutEntry id).stopAdapter key
    (m, .waits (.stopping key process info))

/-- Takes up a request and works it off as far as it goes at once. -/
def begin (m : Manager) (method : String) (params : Json) : Manager × Progress :=
  let reading {α : Type} (r : Json.Reader α) (f : α → Manager × Progress) : Manager × Progress :=
    match r.ofJson params with
    | .ok a => f a
    | .error e => (m, .done (.error (.serialization e)))
  if method = Method.startSession then reading StartSession.reader m.beginStart
  else if method = Method.userMessage then
    reading UserMessage.reader fun p =>
      m.withAdapter p.sessionId (·.message p.message) (Json.object [("accepted", .bool true)])
  else if method = Method.cancelSession then
    reading SessionRef.reader fun p =>
      m.withAdapter p.sessionId Adapter.cancel (Json.object [("cancelled", .bool true)])
  else if method = Method.stopSession then
    reading SessionRef.reader fun p => m.beginStop p.sessionId
  else (m, .done (.error (.remote ⟨Code.methodNotFound, s!"Unknown method '{method}'"⟩)))

/-- Gives a started adapter its place. An adapter that stood there is forgotten. -/
def insert (m : Manager) (key : Nat) (p : StartSession) : Manager :=
  let m := match (m.find? p.sessionId).bind fun (_, old) => (m.adapters[old]?).map (old, ·) with
    | some (old, a) => m.setAdapter old a.discard
    | none => m
  let m := m.withoutEntry p.sessionId
  { m with entries := m.entries ++ [(p.sessionId, .ofStart p, key)] }

/-- Goes on with a request, unless it has to wait for a process. -/
def step (m : Manager) (d : Disk) : Task → Option (Manager × Disk × Progress)
  | .replacing key process p =>
    if (m.adapters[key]?).all (·.atRest process) then
      let (m, next) := m.make p
      some (m, d, next)
    else none
  | .opening key p =>
    match m.adapters[key]? with
    | none => none
    | some a =>
      match a.start d m.workspace p with
      | (.ok a, d) => some (m.setAdapter key a, d, .waits (.opened key p))
      | (.error e, d) => some (m, d, .done (.error e))
  | .opened key p => some (m.insert key p, d, .done (.ok (Info.ofStart p).toJson))
  | .stopping key process info =>
    if (m.adapters[key]?).all (·.atRest process) then
      some (m, d, .done (.ok { info with stopped := true }.toJson))
    else none

end Manager

end Fleet.Session
