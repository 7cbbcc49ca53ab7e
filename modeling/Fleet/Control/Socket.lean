import Fleet.Control.Hub

/-!
The life of one machine's socket: it waits for credentials, admits the machine and greets it, then
handles its messages in their order until the machine goes, falls silent or is replaced.
-/

namespace Fleet.Control

inductive Ending where
  | clean
  | timeout
  | rejected
  deriving DecidableEq, Repr

/-- How far a socket has come. Connections go by their number. -/
inductive Socket.Stage where
  /-- Waits for credentials. -/
  | expecting (deadline : Nat)
  | admitting (credentials : Credentials)
  /-- Admitted and current; its row is not marked yet. -/
  | greeting (connection : Nat)
  /-- Handles messages; without a heartbeat it ends at the deadline. -/
  | live (connection deadline : Nat)
  /-- Waits for the writer. Whether it was still its user's current connection. -/
  | leaving (connection : Nat) (current : Bool) (ending : Ending)
  | ended (ending : Ending)
  deriving DecidableEq, Repr

structure Socket where
  stage : Socket.Stage
  /-- Messages that have arrived and were not taken yet, oldest first. -/
  inbox : List Arrival := []
  /-- Frames that were written to the machine. -/
  written : List Frame := []
  /-- Whether nothing more is written. -/
  shut : Bool := false
  deriving DecidableEq, Repr

namespace Socket

def noCredentials : Error := .auth "No auth frame received in time"

def unexpected (f : Frame) : Error := .auth s!"Expected auth frame, got '{f.kind}'"

/-- Tells a machine why it is turned away. -/
def reject (s : Socket) (e : Error) : Socket :=
  { s with stage := .ended .rejected, written := s.written ++ [.error e.fault], shut := true }

/-- A machine that goes before it said who it is gets no answer. -/
def forsake (s : Socket) : Socket := { s with stage := .ended .rejected, shut := true }

/-- The first text decides. -/
def expect (s : Socket) (text : String) : Socket :=
  match Frame.parse text with
  | .error e => s.reject e
  | .ok (.auth c) => { s with stage := .admitting c }
  | .ok f => s.reject (unexpected f)

/-- Admits a machine: its connection becomes the user's current one. -/
def enrol (s : Socket) (m : Moment) (c : Credentials) (h : Hub) : Socket × Hub :=
  match h.authenticate m c with
  | (.error e, h) => (s.reject e, h)
  | (.ok (), h) =>
    let k := h.connections.opened.length
    let connections := (h.connections.connect ("conn-" ++ m.fresh) c.userId c.orgId).register k
    ({ s with stage := .greeting k }, { h with connections := connections })

def push (h : Hub) (k : Nat) (f : Frame) : Hub :=
  match h.connections.send k f with
  | .ok c => { h with connections := c }
  | .error _ => h

/-- Marks the machine's row and queues the welcome. -/
def greet (s : Socket) (m : Moment) (k : Nat) (c : Connection) (h : Hub) : Socket × Hub :=
  let (_, h) := h.perform (Vm.Work.markConnected m.vm.now c.userId)
  let welcome : Frame := .init ⟨c.id, h.secrets, h.settings.ws.heartbeatInterval⟩
  ({ s with stage := .live k (m.clock + h.settings.ws.heartbeatTimeout) }, push h k welcome)

/-- What a frame of a live machine does. Frames that no machine sends do nothing. -/
def handle (m : Moment) (k : Nat) (user : String) (h : Hub) : Frame → Hub
  | .heartbeat _ => (h.perform (Vm.Work.recordHeartbeat m.vm.now user)).2
  | .request call =>
    let outcome := h.router.answer h.reports user call.method call.params
    push { h with resume := h.resume.record m.clock user call outcome } k
      (.response (.ofOutcome call.id outcome))
  | .response reply => { h with connections := (h.connections.resolve k reply).2 }
  | .fireAndForget method payload =>
    match h.reports.handle user method payload with
    | .ok r => { h with reports := r }
    | .error _ => h
  | .sessionEvent session event data =>
    if h.owner? session = some user then h.forward session ⟨event, data⟩ else h
  | .resume ids =>
    let (results, resume) := h.resume.resolve m.clock user ids
    push { h with resume := resume } k (.resumeResponse results)
  | .auth _ | .init _ | .resumeResponse _ | .error _ => h

/-- Ends the connection's part: it is no longer current, its calls end, and its writer finishes. -/
def leave (s : Socket) (k : Nat) (c : Connection) (ending : Ending) (h : Hub) : Socket × Hub :=
  let (current, connections) := h.connections.unregister c.userId c.id
  let connections := (connections.failPending k).2.close k
  ({ s with stage := .leaving k current ending }, { h with connections := connections })

/-- Takes up a text of a live machine. A heartbeat moves the deadline, whatever else is in it. -/
def hear (s : Socket) (m : Moment) (k deadline : Nat) (user text : String) (h : Hub) :
    Socket × Hub :=
  match Frame.parse text with
  | .error _ => (s, h)
  | .ok f =>
    let deadline := match f with
      | .heartbeat _ => m.clock + h.settings.ws.heartbeatTimeout
      | _ => deadline
    ({ s with stage := .live k deadline }, handle m k user h f)

/-- One move of a live socket. -/
def attend (s : Socket) (m : Moment) (k deadline : Nat) (c : Connection) (h : Hub) :
    Option (Socket × Hub) :=
  if c.closing then some (s.leave k c .clean h)
  else match s.inbox with
    | .text t :: rest => some ({ s with inbox := rest }.hear m k deadline c.userId t h)
    | .other :: rest => some ({ s with inbox := rest }, h)
    | .close :: _ | .lost :: _ => some (s.leave k c .clean h)
    | [] => if deadline ≤ m.clock then some (s.leave k c .timeout h) else none

/-- The next move. Nothing while the socket waits and when it has ended. -/
def next (s : Socket) (m : Moment) (h : Hub) : Option (Socket × Hub) :=
  match s.stage with
  | .expecting deadline =>
    match s.inbox with
    | .text t :: rest => some ({ s with inbox := rest }.expect t, h)
    | .other :: rest => some ({ s with inbox := rest }, h)
    | .close :: _ | .lost :: _ => some (s.forsake, h)
    | [] => if deadline ≤ m.clock then some (s.reject noCredentials, h) else none
  | .admitting c => some (s.enrol m c h)
  | .greeting k => h.connections.opened[k]?.map fun c => s.greet m k c h
  | .live k deadline => h.connections.opened[k]?.bind fun c => s.attend m k deadline c h
  | .leaving k current ending =>
    h.connections.opened[k]?.bind fun c =>
      if s.shut then
        let h := if current then (h.perform (Vm.Work.markDisconnected m.vm.now c.userId)).2 else h
        some ({ s with stage := .ended ending }, h)
      else none
  | .ended _ => none

/-- The connection that the writer serves. -/
def connection? (s : Socket) : Option Nat :=
  match s.stage with
  | .live k _ | .leaving k _ _ => some k
  | _ => none

/-- One move of the writer: the oldest frame, and after the last one the end if the connection is to
close. -/
def write (s : Socket) (h : Hub) : Option (Socket × Hub) :=
  if s.shut then none
  else s.connection?.bind fun k => h.connections.opened[k]?.bind fun c =>
    match c.outbox with
    | f :: rest =>
      some ({ s with written := s.written ++ [f] },
        { h with connections := h.connections.change k fun c => { c with outbox := rest } })
    | [] =>
      if c.closing then
        some ({ s with shut := true },
          { h with connections := h.connections.change k Connection.hangUp })
      else none

/-- The time at which silence ends the socket. -/
def deadline? (s : Socket) : Option Nat :=
  match s.stage with
  | .expecting d | .live _ d => some d
  | _ => none

end Socket

end Fleet.Control
