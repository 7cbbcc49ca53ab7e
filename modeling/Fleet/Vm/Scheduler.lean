import Fleet.Settings.ControlPlane
import Fleet.Token.Signed
import Fleet.Vm.Launch
import Fleet.Vm.Store

/-!
Decides when a user's machine is brought up. Each operation reads the user's last row, writes what
follows from it and may launch a bootstrap; failures of the store and of the launcher are inputs, as
are the clock, new row ids and new tickets.
-/

namespace Fleet.Vm

/-- What one operation finds around it. -/
structure Surroundings where
  now : Instant
  /-- The wall clock in whole seconds, for tokens. -/
  wall : Nat := 0
  /-- An id for a new row, and a ticket for a new bootstrap. -/
  freshId : String
  freshTicket : String
  /-- The launcher's answer. -/
  launched : Except Error Unit := .ok ()

structure Policy where
  settings : Settings.Vm
  signer : Token.Signer
  deriving DecidableEq, Repr

/-- The rows, the launches so far, and the failures that the next accesses to the store meet. -/
structure World where
  store : Store
  launches : List Launch := []
  faults : List (Option Error) := []
  deriving Repr

abbrev Work := ExceptT Error (StateM World)

namespace Work

/-- An access to the store, which may fail instead. -/
def access {α : Type} (f : Store → Except Error (α × Store)) : Work α := fun w =>
  let (fault, rest) := match w.faults with
    | [] => (none, [])
    | f :: fs => (f, fs)
  let w := { w with faults := rest }
  match fault with
  | some e => (.error e, w)
  | none =>
    match f w.store with
    | .error e => (.error e, w)
    | .ok (a, s) => (.ok a, { w with store := s })

def latest? (user : String) : Work (Option Row) := access fun s => .ok (s.latest? user, s)

def byStatus (status : Status) : Work (List Row) := access fun s => .ok (s.byStatus status, s)

def insert (r : Row) : Work Unit := access fun s => (s.insert r).map ((), ·)

def update (r : Row) : Work Unit := access fun s => (s.update r).map ((), ·)

/-- The user's last row, if it is live. -/
def live? (user : String) : Work (Option Row) := do
  return (← latest? user).filter Row.isLive

def record (l : Launch) : Work Unit := fun w =>
  (.ok (), { w with launches := w.launches ++ [l] })

end Work

/-- What a user who wants a machine is told. -/
structure Outcome where
  row : Row
  ready : Bool
  retryAfterMs : Option Nat
  lastError : Option String
  deriving DecidableEq, Repr

namespace Outcome

def isReady (r : Row) : Outcome := ⟨r, true, none, none⟩

def notReady (r : Row) (retry : Option Nat) : Outcome := ⟨r, false, retry, r.lastError⟩

def status (o : Outcome) : Status := o.row.status

/-- The row of a machine that is ready, and the reason otherwise. -/
def result (o : Outcome) : Except Error Row :=
  if o.ready then .ok o.row else .error (.notReady o.status.name o.retryAfterMs o.lastError)

def toJson (o : Outcome) : Json :=
  Json.object [("status", .str o.status.name), ("ready", .bool o.ready),
    ("retryAfterMs", Json.ofOption (o.retryAfterMs.map Json.nat)),
    ("lastError", Json.ofOption (o.lastError.map Json.str))]

end Outcome

namespace Row

def disconnect (r : Row) (now : Instant) : Row :=
  { r with status := .disconnected, disconnectedAt := some now, updatedAt := now }

def fail (r : Row) (code : String) (now : Instant) : Row :=
  { r with status := .failed, lastError := some code, updatedAt := now }

/-- A connected machine: no attempts, no error, a heartbeat just now. -/
def promote (r : Row) (now : Instant) : Row :=
  { r with
    status := .ready
    attempts := 0
    lastError := none
    disconnectedAt := none
    lastHeartbeatAt := some now
    updatedAt := now }

/-- The next attempt, with a ticket of its own. -/
def retry (r : Row) (ticket : String) (now : Instant) : Row :=
  { r with
    ticket := ticket
    ticketConsumedAt := none
    attempts := r.attempts + 1
    lastBootstrapAt := some now
    status := .provisioning
    updatedAt := now }

def beat (r : Row) (now : Instant) : Row := { r with lastHeartbeatAt := some now, updatedAt := now }

def consume (r : Row) (now : Instant) : Row :=
  { r with ticketConsumedAt := some now, updatedAt := now }

/-- When the machine of this row was last heard of. -/
def lastSeen (r : Row) : Instant := r.lastHeartbeatAt.getD r.updatedAt

end Row

namespace Policy

/-- Milliseconds until the next bootstrap may be launched. -/
def cooldownLeft (p : Policy) (r : Row) (now : Instant) : Nat :=
  p.settings.cooldown - r.msSinceBootstrap now

def promote (r : Row) (now : Instant) : Work Outcome := do
  let r := r.promote now
  Work.update r
  return .isReady r

/-- Launches the bootstrap of a row that has been stored. -/
def launch (p : Policy) (s : Surroundings) (r : Row) : Work Outcome := do
  let token := p.signer.issue r.userId r.orgId s.wall
  Work.record ⟨r.userId, r.orgId, token, r.ticket, p.settings.publicWsUrl⟩
  match s.launched with
  | .ok () => return .notReady r (some p.settings.readyRetry)
  | .error _ =>
    let r := r.fail Code.spawnFailed s.now
    Work.update r
    return .notReady r (some p.settings.cooldown)

def startFresh (p : Policy) (s : Surroundings) (user org : String) : Work Outcome := do
  let r := Row.start s.freshId user org s.freshTicket s.now
  Work.insert r
  p.launch s r

/-- The next step for a disconnected row: give up, wait, or launch again. -/
def recover (p : Policy) (s : Surroundings) (r : Row) (force : Bool) : Work Outcome := do
  if p.settings.maxAttempts ≤ r.attempts then
    let r := r.fail Code.attemptsExceeded s.now
    Work.update r
    return .notReady r none
  else if !force && p.cooldownLeft r s.now > 0 then
    return .notReady r (some (p.cooldownLeft r s.now))
  else
    let r := r.retry s.freshTicket s.now
    Work.update r
    p.launch s r

def demoteAndRecover (p : Policy) (s : Surroundings) (r : Row) : Work Outcome := do
  Work.update r
  p.recover s r false

/-- Asks for a user's machine. `wsReady` says that it has a live connection. -/
def ensure (p : Policy) (s : Surroundings) (user org : String) (wsReady : Bool) : Work Outcome := do
  match ← Work.latest? user with
  | none => p.startFresh s user org
  | some r =>
    match r.status with
    | .terminated => p.startFresh s user org
    | .failed =>
      if r.lastError = some Code.attemptsExceeded then return .notReady r none
      else if p.cooldownLeft r s.now > 0 then
        return .notReady r (some (p.cooldownLeft r s.now))
      else p.startFresh s user org
    | .starting | .provisioning =>
      if wsReady then promote r s.now
      else if p.settings.bootstrapTimeout ≤ r.msSinceBootstrap s.now then
        p.demoteAndRecover s { r.disconnect s.now with lastError := some Code.timedOut }
      else return .notReady r (some p.settings.readyRetry)
    | .ready =>
      if wsReady then return .isReady r else p.demoteAndRecover s (r.disconnect s.now)
    | .disconnected => if wsReady then promote r s.now else p.recover s r false

/-- Launches a bootstrap now, whatever the cooldown says. -/
def forceRebootstrap (p : Policy) (s : Surroundings) (user org : String) : Work Outcome := do
  match ← Work.live? user with
  | none => p.startFresh s user org
  | some r =>
    if r.status = .disconnected then p.recover s r true
    else
      let r := r.disconnect s.now
      Work.update r
      p.recover s r true

end Policy

namespace Work

def status (user : String) : Work (Option Row) := latest? user

/-- Takes a machine's ticket. It counts once, and again while its row is disconnected. -/
def consumeTicket (now : Instant) (user ticket : String) : Work Row := do
  match ← live? user with
  | none => throw (.auth s!"No live VM instance for user {user}")
  | some r =>
    if r.ticket.isEmpty || r.ticket ≠ ticket then throw (.auth "Connect ticket does not match")
    match r.ticketConsumedAt with
    | none =>
      let r := r.consume now
      update r
      return r
    | some _ =>
      if r.status = .disconnected then return r
      else throw (.auth s!"Connect ticket already used (status: {r.status.name})")

def markConnected (now : Instant) (user : String) : Work (Option Row) := do
  match ← live? user with
  | none => return none
  | some r =>
    let o ← Policy.promote r now
    return some o.row

def markDisconnected (now : Instant) (user : String) : Work (Option Row) := do
  match ← live? user with
  | none => return none
  | some r =>
    if r.status = .ready then
      let r := r.disconnect now
      update r
      return some r
    else return some r

def recordHeartbeat (now : Instant) (user : String) : Work Unit := do
  match ← live? user with
  | none => return ()
  | some r => update (r.beat now)

/-- A number of milliseconds as a signed 64-bit count. -/
def signed64 (ms : Nat) : Int := (ms : Int).bmod (bitBound 64)

/-- The time before which a heartbeat is stale. Nothing when it lies outside the calendar. -/
def cutoff? (now : Instant) (timeoutMs : Nat) : Option Instant :=
  let t := now.addMillis (-(signed64 timeoutMs))
  if t.InCalendar then some t else none

/-- The ready rows that look stale, before their locks are taken. -/
def staleRows (cutoff : Instant) : Work (List Row) := do
  return (← byStatus .ready).filter fun r => decide (r.lastSeen < cutoff)

/-- Demotes the row of one candidate if it is still the user's live row and ready. -/
def demoteStale (now : Instant) (candidate : Row) : Work Bool := do
  match ← live? candidate.userId with
  | none => return false
  | some r =>
    if r.id = candidate.id ∧ r.status = .ready then
      update (r.disconnect now)
      return true
    else return false

def demoteAll (now : Instant) : List Row → Nat → Work Nat
  | [], n => return n
  | r :: rest, n => do
    let demoted ← demoteStale now r
    demoteAll now rest (if demoted then n + 1 else n)

/-- Demotes all stale rows and counts them. -/
def sweep (now cutoff : Instant) : Work Nat := do
  demoteAll now (← staleRows cutoff) 0

end Work

end Fleet.Vm
