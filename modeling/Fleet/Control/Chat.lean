import Fleet.Control.Hub

/-!
What browsers ask of sessions: to take a message, to cancel, to stop. A request goes on in moves
between which everything else may move; it waits for the lock of the user's rows and for answers of
the machine.
-/

namespace Fleet.Control

inductive Ask where
  | message (orgId : String) (request : ChatRequest)
  | cancel
  | stop
  deriving Repr

/-- One request of one user for one session. -/
structure Errand where
  userId : String
  sessionId : String
  ask : Ask
  deriving Repr

/-- How far a request has come. -/
inductive Errand.Stage where
  /-- Asks for the user's machine, knowing whether it was connected. -/
  | ensuring (connected : Bool)
  /-- Waits for the machine to start the session on a connection. -/
  | starting (call : Nat) (connectionId : String)
  /-- Waits for the machine's answer. -/
  | calling (call : Nat)
  | ended (outcome : Except Error Json)
  deriving Repr

namespace Errand

def otherOwner (session : String) : Error := .session s!"Session {session} belongs to another user"

def unknown (session : String) : Error := .session s!"Session {session} not found"

/-- A stop has its effect whatever the machine answers. -/
def conclude (e : Errand) (outcome : Except Error Json) (h : Hub) : Stage × Hub :=
  match e.ask with
  | .stop => (.ended outcome, (h.dropRoute e.sessionId).closeFeeds e.sessionId)
  | _ => (.ended outcome, h)

/-- Calls the user's machine. -/
def call (e : Errand) (m : Moment) (method : String) (params : Json) (waiting : Nat → Stage)
    (h : Hub) : Stage × Hub :=
  let request : Call := ⟨"req-" ++ m.fresh, method, params⟩
  match h.connections.callUser e.userId request h.settings.ws.requestTimeout m.clock with
  | .ok c => (waiting h.connections.inquiries.length, { h with connections := c })
  | .error err => e.conclude (.error err) h

def deliver (e : Errand) (m : Moment) (request : ChatRequest) (h : Hub) : Stage × Hub :=
  e.call m Method.userMessage (UserMessage.toJson ⟨e.sessionId, request.message⟩) .calling h

def startParams (e : Errand) (r : ChatRequest) : StartSession where
  sessionId := e.sessionId
  userId := e.userId
  agentId := r.agentId
  runtime := r.runtime
  agentConfig := r.agentConfig
  mcpConfig := r.mcpConfig
  skills := r.skills
  history := r.history

def startSession (e : Errand) (m : Moment) (request : ChatRequest) (connection : String) (h : Hub) :
    Stage × Hub :=
  e.call m Method.startSession (e.startParams request).toJson (.starting · connection)
    (h.pruneRoutes e.userId connection)

/-- Goes on with a machine that is ready, if the session is free or the user's own. -/
def dispatch (e : Errand) (m : Moment) (request : ChatRequest) (h : Hub) : Stage × Hub :=
  match h.connections.connectionId? e.userId with
  | none => (.ended (.error Connections.disconnected), h)
  | some connection =>
    match h.route? e.sessionId with
    | none => e.startSession m request connection h
    | some r =>
      if r.userId ≠ e.userId then (.ended (.error (otherOwner e.sessionId)), h)
      else if r.connectionId ≠ connection then e.startSession m request connection h
      else e.deliver m request h

/-- Calls the machine about a session that is the user's own. -/
def refer (e : Errand) (m : Moment) (method : String) (h : Hub) : Stage × Hub :=
  if h.owner? e.sessionId = some e.userId then
    e.call m method (SessionRef.toJson ⟨e.sessionId⟩) .calling h
  else (.ended (.error (unknown e.sessionId)), h)

/-- Takes up a request. -/
def begin (e : Errand) (m : Moment) (h : Hub) : Stage × Hub :=
  match e.ask with
  | .message _ _ =>
    match checkSessionId e.sessionId with
    | .error err => (.ended (.error err), h)
    | .ok () => (.ensuring (h.connections.isConnected e.userId), h)
  | .cancel => e.refer m Method.cancelSession h
  | .stop => e.refer m Method.stopSession h

def routeOn (e : Errand) (r : ChatRequest) (connection : String) : Route :=
  ⟨e.sessionId, e.userId, r.agentId, r.runtime, connection⟩

/-- The next move. Nothing while the request waits and when it has ended. -/
def next (e : Errand) (m : Moment) (h : Hub) : Stage → Option (Stage × Hub)
  | .ensuring connected =>
    match e.ask with
    | .message org request =>
      let (r, h) := h.perform (h.policy.ensure m.vm e.userId org connected)
      match r.bind Vm.Outcome.result with
      | .error err => some (.ended (.error err), h)
      | .ok _ => some (e.dispatch m request h)
    | _ => none
  | .starting n connection =>
    match e.ask, h.connections.outcome? n with
    | .message _ _, some (.error err) => some (.ended (.error err), h)
    | .message _ request, some (.ok _) =>
      some (e.deliver m request (h.setRoute (e.routeOn request connection)))
    | _, _ => none
  | .calling n => (h.connections.outcome? n).map fun o => e.conclude o h
  | .ended _ => none

end Errand

namespace Errand.Stage

/-- The call that a request waits for. -/
def call? : Stage → Option Nat
  | .starting n _ | .calling n => some n
  | _ => none

def outcome? : Stage → Option (Except Error Json)
  | .ended o => some o
  | _ => none

end Errand.Stage

end Fleet.Control
