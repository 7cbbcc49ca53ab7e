import Fleet.Frame.Text
import Fleet.Time.Reading

/-!
One row per attempt to give a user a machine. A row is live until it has failed or was ended; a
user's rows are a history of which at most the last is live.
-/

namespace Fleet.Vm

open Json (Form Reader)

inductive Status where
  /-- Brought up for the first time. -/
  | starting
  /-- Brought up again. -/
  | provisioning
  | ready
  | disconnected
  | failed
  | terminated
  deriving DecidableEq, Repr, Inhabited

namespace Status

def name : Status → String
  | .starting => "starting"
  | .provisioning => "provisioning"
  | .ready => "ready"
  | .disconnected => "disconnected"
  | .failed => "failed"
  | .terminated => "terminated"

def all : List Status := [.starting, .provisioning, .ready, .disconnected, .failed, .terminated]

def ofName? (s : String) : Option Status := all.find? fun st => st.name == s

/-- Nothing more happens to a row in this status. -/
def isTerminal : Status → Bool
  | .failed | .terminated => true
  | _ => false

/-- A bootstrap is under way. -/
def isPending : Status → Bool
  | .starting | .provisioning => true
  | _ => false

def reader : Reader Status := .choice (all.map fun st => (st.name, st))

end Status

structure Row where
  id : String
  userId : String
  orgId : String
  status : Status
  /-- What the machine has to show when it connects. -/
  ticket : String
  ticketConsumedAt : Option Instant
  attempts : Nat
  lastBootstrapAt : Option Instant
  lastError : Option String
  lastHeartbeatAt : Option Instant
  disconnectedAt : Option Instant
  createdAt : Instant
  updatedAt : Instant
  deriving DecidableEq, Repr, Inhabited

namespace Row

/-- The row of a first attempt. -/
def start (id userId orgId ticket : String) (now : Instant) : Row where
  id := id
  userId := userId
  orgId := orgId
  status := .starting
  ticket := ticket
  ticketConsumedAt := none
  attempts := 1
  lastBootstrapAt := some now
  lastError := none
  lastHeartbeatAt := none
  disconnectedAt := none
  createdAt := now
  updatedAt := now

def isLive (r : Row) : Bool := !r.status.isTerminal

/-- Whole milliseconds since the last bootstrap, and the largest 64-bit number when there was none.
A clock that went back counts as no time. -/
def msSinceBootstrap (r : Row) (now : Instant) : Nat :=
  match r.lastBootstrapAt with
  | some at_ => (now.millisSince at_).toNat
  | none => bitBound 64 - 1

def instant? (t : Option Instant) : Json := Json.ofOption (t.map Instant.toJson)

def toJson (r : Row) : Json :=
  Json.object [("id", .str r.id), ("userId", .str r.userId), ("orgId", .str r.orgId),
    ("status", .str r.status.name), ("connectTicket", .str r.ticket),
    ("ticketConsumedAt", instant? r.ticketConsumedAt), ("bootstrapAttempts", .nat r.attempts),
    ("lastBootstrapAt", instant? r.lastBootstrapAt),
    ("bootstrapLastError", Json.ofOption (r.lastError.map Json.str)),
    ("lastHeartbeatAt", instant? r.lastHeartbeatAt), ("disconnectedAt", instant? r.disconnectedAt),
    ("createdAt", r.createdAt.toJson), ("updatedAt", r.updatedAt.toJson)]

def form : Form Row :=
  Row.mk <$> .required "id" .text <*> .required "userId" .text <*> .required "orgId" .text
    <*> .required "status" Status.reader <*> .required "connectTicket" .text
    <*> .optional "ticketConsumedAt" Instant.reader
    <*> .required "bootstrapAttempts" (.natural 32 "u32")
    <*> .optional "lastBootstrapAt" Instant.reader <*> .optional "bootstrapLastError" .text
    <*> .optional "lastHeartbeatAt" Instant.reader <*> .optional "disconnectedAt" Instant.reader
    <*> .required "createdAt" Instant.reader <*> .required "updatedAt" Instant.reader

def reader : Reader Row := form.reader "struct VmInstance"

/-- The part of a row that its user gets to see. -/
def view (r : Row) : Json :=
  Json.object [("status", .str r.status.name),
    ("lastError", Json.ofOption (r.lastError.map Json.str)), ("bootstrapAttempts", .nat r.attempts),
    ("lastHeartbeatAt", instant? r.lastHeartbeatAt), ("updatedAt", r.updatedAt.toJson)]

end Row

end Fleet.Vm
