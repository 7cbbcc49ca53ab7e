import Fleet.Bridge.Line
import Fleet.Graph.Node
import Fleet.Text.Lines

/-!
The bridge between a session and an agent runtime. It fetches the session's skills once, then plays
one turn after another: it asks the memory, lets the runtime speak, reports, and ends the turn with
one terminal message. Time passes between steps and never beyond the deadline of an open call.
-/

namespace Fleet.Bridge

/-- A call to the control plane that waits for its response. -/
structure Waiting where
  number : Nat
  method : String
  deadline : Nat
  deriving DecidableEq, Repr

/-- The fetching of skills, one after another. -/
structure Prefetch where
  call : Waiting
  /-- The names after the one that is asked for. -/
  left : List String
  loaded : List Json
  deriving DecidableEq, Repr

structure Turn where
  message : String
  token : Nat
  deriving DecidableEq, Repr

/-- What a runtime is given for a turn. -/
structure TurnInput where
  sessionId : String
  message : String
  history : List ChatMessage
  memory : List String
  skills : List Json
  agentConfig : Json
  deriving DecidableEq, Repr

/-- What the turn that holds the history is doing. -/
inductive Stage where
  /-- Waits for the skills. -/
  | entered (session : StartPayload)
  | searching (session : StartPayload) (skills : List Json) (call : Waiting)
  | running (input : TurnInput)
  deriving DecidableEq, Repr

/-- From reading commands to the end. -/
inductive Phase where
  | reading
  /-- No more commands are read; turns may still end until then. -/
  | draining (limit : Nat)
  /-- No more turns; what is left to write is written until then. -/
  | flushing (limit : Nat)
  | ended
  deriving DecidableEq, Repr

structure Core where
  /-- The name of the runtime. -/
  runner : String
  /-- How long a call to the control plane may take. -/
  timeout : Nat
  clock : Nat := 0
  phase : Phase := .reading
  session : Option StartPayload := none
  prefetch : Option Prefetch := none
  skills : List Json := []
  history : List ChatMessage := []
  /-- The token of the next turn. Turns with lower tokens are cancelled. -/
  token : Nat := 0
  /-- The number of the last call. -/
  calls : Nat := 0
  queue : List Turn := []
  active : Option (Turn × Stage) := none
  deriving DecidableEq, Repr

namespace Core

def drainTime : Nat := 2000
def flushTime : Nat := 1000

def callId (number : Nat) : String := s!"cp-{number}"

def isCancelled (c : Core) (t : Turn) : Bool := decide (t.token < c.token)

/-- Opens a call to the control plane. -/
def call (c : Core) (method : String) (params : Json) : Waiting × Core × Message :=
  let n := c.calls + 1
  (⟨n, method, c.clock + c.timeout⟩, { c with calls := n }, .cpRequest (callId n) method params)

def fetch (c : Core) (name : String) (left : List String) (loaded : List Json) :
    Core × List Message :=
  let (w, c, m) := c.call Method.skillPackage (Json.object [("name", .str name)])
  ({ c with prefetch := some ⟨w, left, loaded⟩ }, [m])

/-! ### Commands -/

/-- The first start binds the session; others change nothing. -/
def start (c : Core) (p : StartPayload) : Core × List Message :=
  match c.session with
  | some _ => (c, [])
  | none =>
    let c := { c with session := some p }
    match p.skills with
    | [] => (c, [])
    | name :: left => c.fetch name left []

def cancel (c : Core) : Core := { c with token := c.token + 1 }

/-- Goes on with the next skill. -/
def fetched (c : Core) (p : Prefetch) (package : Option Json) : Core × List Message :=
  let loaded := p.loaded ++ package.toList
  match p.left with
  | [] => ({ c with prefetch := none, skills := loaded }, [])
  | name :: left => c.fetch name left loaded

def run (c : Core) (t : Turn) (s : StartPayload) (skills : List Json) (memory : List String) :
    Core :=
  let input : TurnInput := ⟨s.sessionId, t.message, c.history, memory, skills, s.agentConfig⟩
  { c with active := some (t, .running input) }

/-- A response ends the call that waits for it. -/
def resolve (c : Core) (id : String) (outcome : Except Fault Json) : Core × List Message :=
  match c.prefetch with
  | some p =>
    if callId p.call.number = id then c.fetched p outcome.toOption else elsewhere
  | none => elsewhere
where
  elsewhere :=
    match c.active with
    | some (t, .searching s skills w) =>
      if callId w.number = id then
        (c.run t s skills ((outcome.toOption.map memoryHits).getD []), [])
      else (c, [])
    | _ => (c, [])

/-- No more commands: everything is cancelled and may still end for a while. -/
def close (c : Core) : Core := { c.cancel with phase := .draining (c.clock + drainTime) }

def command (c : Core) : Command → Core × List Message
  | .start p => c.start p
  | .userMessage message => ({ c with queue := c.queue ++ [⟨message, c.token⟩] }, [])
  | .cancel => (c.cancel, [])
  | .stop => (c.close, [])
  | .cpResponse id result fault =>
    c.resolve id (match fault with
      | some f => .error f
      | none => .ok (result.getD .null))

/-! ### Turns -/

/-- A turn ends with one terminal message and leaves the history to the next one. -/
def conclude (c : Core) (m : Message) : Core × List Message := ({ c with active := none }, [m])

/-- A turn in the queue takes the history. Turns are tasks, and any of them may come to it first. -/
def enterAt (c : Core) (place : Nat) : Option (Core × List Message) :=
  match c.active, c.queue[place]? with
  | none, some t =>
    let c := { c with queue := c.queue.eraseIdx place }
    match c.session with
    | none => some (c, [.error ⟨Code.bridgeInternal, "user_message received before start"⟩])
    | some s => some ({ c with active := some (t, .entered s) }, [])
  | _, _ => none

/-- The first turn in the queue takes the history. -/
def enter (c : Core) : Option (Core × List Message) := c.enterAt 0

/-- Once the skills are there the turn asks the memory. -/
def search (c : Core) : Option (Core × List Message) :=
  match c.active, c.prefetch with
  | some (t, .entered s), none =>
    let (w, c, m) := c.call Method.memorySearch (Graph.Node.query t.message 3)
    some ({ c with active := some (t, .searching s c.skills w) }, [m])
  | _, _ => none

/-- A cancelled turn ends, unless it still waits for the skills. -/
def quit (c : Core) : Option (Core × List Message) :=
  match c.active with
  | some (t, .entered _) =>
    if c.isCancelled t ∧ c.prefetch.isNone then some (c.conclude (.done true)) else none
  | some (t, _) => if c.isCancelled t then some (c.conclude (.done true)) else none
  | none => none

/-- Whether the turn that holds the history is cancelled. -/
def isStopped (c : Core) : Bool := c.active.any fun x => c.isCancelled x.1

/-- The runtime speaks. Until it pauses it does not see that the turn is cancelled. -/
def speak (c : Core) (m : Message) : Option (Core × List Message) :=
  match c.active with
  | some (_, .running _) => some (c, [m])
  | _ => none

/-- The runtime speaks after a pause. -/
def say (c : Core) (m : Message) : Option (Core × List Message) :=
  if c.isStopped then none else c.speak m

def usage (c : Core) (session message reply : String) : List Message :=
  [.cpFireAndForget Method.usage (Graph.Node.usage session message reply),
    .cpFireAndForget Method.audit (Json.object [("sessionId", .str session),
      ("action", .str "openclaw_turn"), ("runner", .str c.runner)])]

/-- What a turn that failed ends with. -/
def failure : Error → Fault
  | .bridge f => f
  | e => ⟨Code.bridgeInternal, e.message⟩

/-- The runtime is done with the turn, which may have been cancelled since it last paused. -/
def settle (c : Core) (result : Except Error String) : Option (Core × List Message) :=
  match c.active with
  | some (t, .running input) =>
    match result with
    | .ok reply =>
      let history := c.history ++ [.user t.message, .assistant reply]
      let (d, ms) := conclude { c with history := history } (.done false)
      some (d, c.usage input.sessionId t.message reply ++ ms)
    | .error e => some (c.conclude (.error (failure e)))
  | _ => none

/-- The runtime is done with the turn after a pause. -/
def finish (c : Core) (result : Except Error String) : Option (Core × List Message) :=
  if c.isStopped then none else c.settle result

/-! ### Time -/

/-- The calls that are open. -/
def waiting (c : Core) : List Waiting :=
  (c.prefetch.map Prefetch.call).toList ++
    match c.active with
    | some (_, .searching _ _ w) => [w]
    | _ => []

def phaseLimit (c : Core) : List Nat :=
  match c.phase with
  | .draining t | .flushing t => [t]
  | .reading | .ended => []

/-- The times up to which the clock may run. -/
def limits (c : Core) : List Nat := c.waiting.map Waiting.deadline ++ c.phaseLimit

/-- Time passes. -/
def tick (c : Core) (ms : Nat) : Option Core :=
  if c.limits.all fun t => decide (c.clock + ms ≤ t) then some { c with clock := c.clock + ms }
  else none

/-- A call that reached its deadline fails. -/
def expire (c : Core) : Option (Core × List Message) :=
  let due (w : Waiting) : Bool := decide (w.deadline ≤ c.clock)
  match c.prefetch.filter fun p => due p.call with
  | some p => some (c.fetched p none)
  | none =>
    match c.active with
    | some (t, .searching s skills w) => if due w then some (c.run t s skills [], []) else none
    | _ => none

/-- The next step towards the end, once commands are no longer read. -/
def wind (c : Core) : Option Core :=
  match c.phase with
  | .draining limit =>
    if c.queue.isEmpty ∧ c.active.isNone then some { c with phase := .flushing (c.clock + flushTime) }
    else if limit ≤ c.clock then
      some { c with phase := .flushing (c.clock + flushTime), queue := [], active := none }
    else none
  | .flushing limit =>
    if c.prefetch.isNone ∨ limit ≤ c.clock then some { c with phase := .ended } else none
  | .reading | .ended => none

/-- One line of input. Blank and bad lines are passed over; bytes that are no text end the input. -/
def readLine (c : Core) (line : List UInt8) : Core × List Message :=
  if c.phase ≠ .reading then (c, [])
  else match Text.decode? line with
    | none => (c.close, [])
    | some text =>
      if Text.isAllBlank text then (c, [])
      else match Command.decode text with
        | .ok cmd => c.command cmd
        | .error _ => (c, [])

/-- The input has ended. -/
def endInput (c : Core) : Core := if c.phase = .reading then c.close else c

end Core

end Fleet.Bridge
