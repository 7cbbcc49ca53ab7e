import Fleet.Frame.Basic

/-!
The connections of machines, of which each user has at most one current one, and the calls that wait
for a machine. A call ends once: with the first response that bears its id, when its time is up, or
when its connection gives it up. Connections and calls are numbered in the order they begin.
-/

namespace Fleet.Control

/-- The near end of one machine's connection. -/
structure Connection where
  id : String
  userId : String
  orgId : String
  /-- Frames that the writer has not taken yet, oldest first. -/
  outbox : List Frame := []
  /-- Whether there is a writer that will take frames. -/
  writable : Bool := true
  /-- The numbers of the calls that wait, by the ids of their requests. -/
  pending : List (String × Nat) := []
  /-- Whether it was asked to close. -/
  closing : Bool := false
  deriving DecidableEq, Repr

inductive InquiryState where
  | waiting
  | ended (outcome : Except Error Json)
  /-- Its caller has gone; a response would be for nobody. -/
  | deserted
  deriving Repr

/-- A call to a machine and what has become of it. -/
structure Inquiry where
  /-- The number of the connection it was made on. -/
  connection : Nat
  request : Call
  timeoutMs : Nat
  /-- When its time is up, in milliseconds. -/
  deadline : Nat
  state : InquiryState := .waiting
  deriving Repr

structure Connections where
  opened : List Connection := []
  /-- The number of each user's current connection. -/
  current : List (String × Nat) := []
  inquiries : List Inquiry := []
  deriving Repr

namespace Inquiry

def isWaiting (q : Inquiry) : Bool :=
  match q.state with
  | .waiting => true
  | _ => false

/-- An outcome counts while the call waits. -/
def finish (q : Inquiry) (outcome : Except Error Json) : Inquiry :=
  match q.state with
  | .waiting => { q with state := .ended outcome }
  | _ => q

def desert (q : Inquiry) : Inquiry :=
  match q.state with
  | .waiting => { q with state := .deserted }
  | _ => q

def abandoned (q : Inquiry) : Error :=
  .transport s!"Connection closed before '{q.request.method}' completed"

def late (q : Inquiry) : Error :=
  .timeout s!"'{q.request.method}' got no response within {q.timeoutMs}ms"

/-- The outcome, if the call has ended. -/
def outcome? (q : Inquiry) : Option (Except Error Json) :=
  match q.state with
  | .ended o => some o
  | _ => none

end Inquiry

namespace Connection

def closed (c : Connection) : Error := .transport s!"Connection {c.id} closed"

/-- Queues a frame for the writer. -/
def push (c : Connection) (f : Frame) : Except Error Connection :=
  if c.writable then .ok { c with outbox := c.outbox ++ [f] } else .error c.closed

def forget (id : String) (c : Connection) : Connection :=
  { c with pending := c.pending.filter fun p => p.1 ≠ id }

/-- The writer goes, and with it the frames it has not taken. -/
def hangUp (c : Connection) : Connection := { c with outbox := [], writable := false }

end Connection

namespace Connections

/-- No current connection of the user. -/
def disconnected : Error := .notReady "disconnected" none none

def change (s : Connections) (k : Nat) (f : Connection → Connection) : Connections :=
  { s with opened := s.opened.modify k f }

/-- Opens a connection, whose number is that of the ones before it. -/
def connect (s : Connections) (id user org : String) : Connections :=
  { s with opened := s.opened ++ [{ id := id, userId := user, orgId := org }] }

def currentOf (s : Connections) (user : String) : Option Connection :=
  (s.current.lookup user).bind fun k => s.opened[k]?

def isConnected (s : Connections) (user : String) : Bool := (s.current.lookup user).isSome

def connectionId? (s : Connections) (user : String) : Option String :=
  (s.currentOf user).map Connection.id

/-- How many users have a current connection. -/
def count (s : Connections) : Nat := s.current.length

def send (s : Connections) (k : Nat) (f : Frame) : Except Error Connections :=
  match s.opened[k]? with
  | none => .error disconnected
  | some c => (c.push f).map fun c => s.change k fun _ => c

/-- Makes a call on a connection; its number is that of the calls before it. -/
def call (s : Connections) (k : Nat) (request : Call) (timeoutMs now : Nat) :
    Except Error Connections :=
  (s.send k (.request request)).map fun s =>
    let n := s.inquiries.length
    { s.change k fun c => { c with pending := c.pending ++ [(request.id, n)] } with
      inquiries := s.inquiries ++ [{ connection := k, request, timeoutMs, deadline := now + timeoutMs }] }

/-- Makes a call on the user's current connection. -/
def callUser (s : Connections) (user : String) (request : Call) (timeoutMs now : Nat) :
    Except Error Connections :=
  match s.current.lookup user with
  | none => .error disconnected
  | some k => s.call k request timeoutMs now

/-- Hands a response to the call that waits for it. Whether there was one. -/
def resolve (s : Connections) (k : Nat) (r : Reply) : Bool × Connections :=
  match s.opened[k]?.bind fun c => c.pending.lookup r.id with
  | none => (false, s)
  | some n =>
    ((s.inquiries[n]?.map Inquiry.isWaiting).getD false,
      { s.change k (Connection.forget r.id) with
        inquiries := s.inquiries.modify n fun q => q.finish r.outcome })

/-- Ends the calls that wait on a connection, and counts them. -/
def failPending (s : Connections) (k : Nat) : Nat × Connections :=
  match s.opened[k]? with
  | none => (0, s)
  | some c =>
    (c.pending.length,
      { s.change k fun c => { c with pending := [] } with
        inquiries := c.pending.foldl
          (fun qs p => qs.modify p.2 fun q => q.finish (.error q.abandoned)) s.inquiries })

def close (s : Connections) (k : Nat) : Connections :=
  s.change k fun c => { c with closing := true }

/-- Makes a connection its user's current one. The one before ends its calls and closes. -/
def register (s : Connections) (k : Nat) : Connections :=
  match s.opened[k]? with
  | none => s
  | some c =>
    let t := { s with current := (c.userId, k) :: s.current.filter fun u => u.1 ≠ c.userId }
    match s.current.lookup c.userId with
    | none => t
    | some previous => (t.failPending previous).2.close previous

/-- Whether the connection was the user's current one, which it then is no longer. -/
def unregister (s : Connections) (user id : String) : Bool × Connections :=
  if s.connectionId? user = some id then
    (true, { s with current := s.current.filter fun u => u.1 ≠ user })
  else (false, s)

/-- The time of a call is up. -/
def expire (s : Connections) (n : Nat) : Connections :=
  match s.inquiries[n]? with
  | none => s
  | some q =>
    if q.isWaiting then
      { s.change q.connection (Connection.forget q.request.id) with
        inquiries := s.inquiries.modify n fun q => q.finish (.error q.late) }
    else s

/-- The caller of a call goes. -/
def desert (s : Connections) (n : Nat) : Connections :=
  { s with inquiries := s.inquiries.modify n Inquiry.desert }

/-- The outcome of a call, if it has ended. -/
def outcome? (s : Connections) (n : Nat) : Option (Except Error Json) :=
  s.inquiries[n]?.bind Inquiry.outcome?

/-- The calls whose time is up. -/
def due (s : Connections) (now : Nat) : List Nat :=
  (List.range s.inquiries.length).filter fun n =>
    (s.inquiries[n]?.map fun q => q.isWaiting && q.deadline ≤ now).getD false

def expireDue (s : Connections) (now : Nat) : Connections := (s.due now).foldl expire s

/-- The next time at which a call's time is up. -/
def nextDeadline (s : Connections) : Option Nat :=
  ((s.inquiries.filter Inquiry.isWaiting).map Inquiry.deadline).min?

end Connections

end Fleet.Control
