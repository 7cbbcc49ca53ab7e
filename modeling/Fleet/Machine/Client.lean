import Fleet.Event
import Fleet.Machine.Reconnect
import Fleet.Settings.Machine

/-!
A machine's end of the control channel. It dials, says who it is, waits for the welcome, and then
sends heartbeats, calls and reports and answers the control plane's calls. Calls outlive the
connection they were made on: the next one names them, and those that were lost are sent again.
-/

namespace Fleet.Machine

inductive OutgoingState where
  | waiting
  | ended (outcome : Except Error Json)
  deriving Repr

/-- A call to the control plane and what has become of it. -/
structure Outgoing where
  call : Call
  deadline : Nat
  state : OutgoingState := .waiting
  deriving Repr

/-- How far the present attempt has come; each knows when it began. -/
inductive Client.Stage where
  | dialing (since : Nat)
  /-- Has said who it is and waits for the welcome. -/
  | greeting (since deadline : Nat)
  | live (since period nextBeat : Nat)
  /-- Waits for the writer. -/
  | leaving (since : Nat) (ending : AttemptEnd)
  | pausing (resumeAt : Nat)
  | stopped (result : Except Error Unit)
  deriving Repr

structure Client where
  settings : Settings.Machine
  policy : Reconnect := {}
  schedule : Schedule
  stage : Client.Stage
  /-- Whether it was asked to stop. -/
  stopping : Bool := false
  /-- Whether frames are taken for the present connection. -/
  connected : Bool := false
  /-- Frames that the writer has not taken yet, and those it has written. -/
  queue : List Frame := []
  written : List Frame := []
  inbox : List Arrival := []
  /-- All calls by number, and the numbers of those that wait, by id. -/
  outgoing : List Outgoing := []
  pending : List (String × Nat) := []
  /-- Calls of the control plane that are being worked on. -/
  serving : List Call := []
  secrets : List (String × String) := []
  connectionId : Option String := none
  deriving Repr

namespace Outgoing

def finish (o : Outgoing) (outcome : Except Error Json) : Outgoing :=
  match o.state with
  | .waiting => { o with state := .ended outcome }
  | .ended _ => o

def late (o : Outgoing) (timeoutMs : Nat) : Error :=
  .timeout s!"{o.call.method} got no response within {timeoutMs}ms"

def outcome? (o : Outgoing) : Option (Except Error Json) :=
  match o.state with
  | .ended r => some r
  | .waiting => none

end Outgoing

namespace Client

def start (settings : Settings.Machine) (policy : Reconnect) (now : Nat) : Client where
  settings := settings
  policy := policy
  schedule := policy.start
  stage := .dialing now

/-! ### Sending -/

/-- Queues a frame, if there is a connection. -/
def send (c : Client) (f : Frame) : Option Client :=
  if c.connected then some { c with queue := c.queue ++ [f] } else none

def offline : Error := .transport "control channel not connected"

/-- Sends what is of no use later. -/
def sendNow (c : Client) (f : Frame) : Except Error Client :=
  match c.send f with
  | some c => .ok c
  | none => .error offline

def report (c : Client) (method : String) (payload : Json) : Except Error Client :=
  c.sendNow (.fireAndForget method payload)

def tell (c : Client) (session : String) (e : Event) : Except Error Client :=
  c.sendNow (.sessionEvent session e.streamName e.toJson)

/-! ### Calls -/

/-- Takes up a call; its number is that of the calls before it. -/
def enter (c : Client) (call : Call) (now : Nat) : Client :=
  { c with
    outgoing := c.outgoing ++ [{ call, deadline := now + c.settings.requestTimeout }]
    pending := c.pending ++ [(call.id, c.outgoing.length)] }

/-- Makes a call. Without a connection it waits for the next one. -/
def request (c : Client) (call : Call) (now : Nat) : Client :=
  let c := c.enter call now
  (c.send (.request call)).getD c

def forget (c : Client) (id : String) : Client :=
  { c with pending := c.pending.filter fun p => p.1 ≠ id }

/-- Hands a response to the call that waits for it. -/
def complete (c : Client) (r : Reply) : Client :=
  match c.pending.lookup r.id with
  | none => c
  | some n =>
    { c.forget r.id with outgoing := c.outgoing.modify n fun o => o.finish r.outcome }

/-- The time of a call is up. -/
def expire (c : Client) (n : Nat) : Client :=
  match c.outgoing[n]? with
  | none => c
  | some o =>
    if c.pending.lookup o.call.id = some n then
      { c.forget o.call.id with
        outgoing := c.outgoing.modify n fun o => o.finish (.error (o.late c.settings.requestTimeout)) }
    else c

/-- The call that waits under an id. -/
def waiting? (c : Client) (id : String) : Option Call :=
  (c.pending.lookup id).bind fun n => c.outgoing[n]?.map Outgoing.call

/-- Sends a call again, as it was, while it waits. -/
def resend (c : Client) (id : String) : Client :=
  match c.waiting? id with
  | some call => (c.send (.request call)).getD c
  | none => c

/-- What became of one call that was open when a connection broke. -/
def reconcile (c : Client) (r : Resumed) : Client :=
  match r.status with
  | .completed => c.complete ⟨r.requestId, r.result, r.fault⟩
  | .lost => c.resend r.requestId

/-- The answer to a call of the control plane goes out on the connection that there is then. -/
def answer (c : Client) (id : String) (outcome : Except Fault Json) : Client :=
  let c := { c with serving := c.serving.filter fun s => s.id ≠ id }
  (c.send (.response (.ofOutcome id outcome))).getD c

def handle (c : Client) : Frame → Client
  | .response reply => c.complete reply
  | .resumeResponse results => results.foldl reconcile c
  | .request call => { c with serving := c.serving ++ [call] }
  | _ => c

/-! ### Attempts -/

/-- How long to wait for the welcome, in milliseconds. -/
def greetingTime : Nat := 10000

def credentials (c : Client) : Credentials :=
  ⟨c.settings.userId, c.settings.orgId, c.settings.ticket,
    if c.settings.token.isEmpty then none else some c.settings.token⟩

/-- An attempt has ended. -/
def finish (c : Client) (since now : Nat) (ending : AttemptEnd) : Client :=
  let (verdict, schedule) := c.policy.after c.schedule (now - since) ending
  let c := { c with schedule := schedule, queue := [], inbox := [], connected := false }
  match verdict with
  | .stop r => { c with stage := .stopped r }
  | .again pause => { c with stage := .pausing (now + pause) }

/-- The control plane was reached, or not. -/
def dialed (c : Client) (now : Nat) (reached : Except String Unit) : Client :=
  match c.stage, reached with
  | .dialing since, .error text =>
    c.finish since now
      (.failed (.transport s!"Failed to connect to {c.settings.controlPlaneUrl}: {text}"))
  | .dialing since, .ok () =>
    { c with
      stage := .greeting since (now + greetingTime)
      inbox := []
      written := [.auth c.credentials] }
  | _, _ => c

/-- The time between heartbeats: the one the control plane asks for, or else its own. -/
def period (c : Client) (w : Welcome) : Nat :=
  if w.heartbeatIntervalMs > 0 then w.heartbeatIntervalMs else c.settings.heartbeatInterval

/-- Frames are taken for the new connection. -/
def connect (c : Client) (since now : Nat) (w : Welcome) : Client :=
  { c with
    secrets := w.secrets
    connectionId := some w.connectionId
    connected := true
    stage := .live since (c.period w) (now + c.period w) }

/-- Names the calls that wait, if there are any. -/
def announce (c : Client) : Client :=
  if c.pending.isEmpty then c else (c.send (.resume (c.pending.map Prod.fst))).getD c

/-- Frames are taken before the calls are named, so that a call made meanwhile is either named or sent. -/
def welcome (c : Client) (since now : Nat) (w : Welcome) : Client := (c.connect since now w).announce

/-- A text that came before the welcome. -/
def expect (c : Client) (since now : Nat) (text : String) : Client :=
  match Frame.parse text with
  | .error e => c.finish since now (.failed e)
  | .ok (.init w) => c.welcome since now w
  | .ok (.error f) => c.finish since now (.failed (.auth s!"{f.code}: {f.message}"))
  | .ok _ => c

def closedEarly : Error := .transport "connection closed before init"

def unwelcomed : Error := .timeout "no init frame from control plane"

def leave (c : Client) (since : Nat) (ending : AttemptEnd) : Client :=
  { c with connected := false, stage := .leaving since ending }

def hear (c : Client) (text : String) : Client :=
  match Frame.parse text with
  | .ok f => c.handle f
  | .error _ => c

/-- The next move. Nothing while the client waits and when it has stopped. Heartbeats tell the wall
clock. -/
def next (c : Client) (now : Nat) (wall : Int) : Option Client :=
  match c.stage with
  | .dialing _ | .stopped _ => none
  | .greeting since deadline =>
    match c.inbox with
    | .text t :: rest => some ({ c with inbox := rest }.expect since now t)
    | .other :: rest => some { c with inbox := rest }
    | .close :: _ | .lost :: _ => some (c.finish since now (.failed closedEarly))
    | [] => if deadline ≤ now then some (c.finish since now (.failed unwelcomed)) else none
  | .live since period nextBeat =>
    if c.stopping then some (c.leave since .shutdown)
    else match c.inbox with
      | .text t :: rest => some ({ c with inbox := rest }.hear t)
      | .other :: rest => some { c with inbox := rest }
      | .close :: _ | .lost :: _ => some (c.leave since .closed)
      | [] =>
        if nextBeat ≤ now then
          let c := { c with stage := .live since period (now + period) }
          some ((c.send (.heartbeat (some wall))).getD c)
        else none
  | .leaving since ending => if c.queue.isEmpty then some (c.finish since now ending) else none
  | .pausing t =>
    if c.stopping then some { c with stage := .stopped (.ok ()) }
    else if t ≤ now then some { c with stage := .dialing now }
    else none

/-- The writer takes the oldest frame. -/
def write (c : Client) : Option Client :=
  match c.queue with
  | [] => none
  | f :: rest => some { c with queue := rest, written := c.written ++ [f] }

/-- The writer fails. What it has not taken is lost, and no more is taken for this connection. -/
def lose (c : Client) : Client := { c with queue := [], connected := false }

/-- How the client ended, if it has. -/
def result? (c : Client) : Option (Except Error Unit) :=
  match c.stage with
  | .stopped r => some r
  | _ => none

end Client

end Fleet.Machine
