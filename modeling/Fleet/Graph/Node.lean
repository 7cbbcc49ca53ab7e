import Fleet.Event
import Fleet.Graph.State
import Fleet.Method
import Fleet.Text.Blank

/-!
A graph is a list of nodes, run one after another on a state. A node may tell events, send reports
and call the control plane; a run that is cancelled ends before its next node.
-/

namespace Fleet

/-- What a session sends to the control plane. -/
inductive Sent where
  | event (e : Event)
  | call (method : String) (params : Json)
  | report (method : String) (payload : Json)
  deriving DecidableEq, Repr

/-- The texts of the hits in an answer of the memory. -/
def memoryHits (answer : Json) : List String :=
  match (answer.get? "hits").bind Json.items? with
  | some hits => hits.filterMap fun h => (h.get? "content").bind Json.text?
  | none => []

namespace Graph

inductive Node where
  /-- Looks up what the user said last in the memory. -/
  | search (limit : Nat)
  /-- Answers the user. -/
  | respond
  | fail (cause : Error)
  /-- Adds a message to the conversation. -/
  | say (message : ChatMessage)
  /-- Cancels the run. -/
  | cancel
  deriving DecidableEq, Repr

def standard : List Node := [.search 3, .respond]

inductive Outcome where
  | completed
  | cancelled
  | failed (cause : Error)
  deriving DecidableEq, Repr

/-- Where a run stands. -/
inductive Walk where
  /-- Before the first of the nodes that are left. -/
  | ready (rest : List Node) (s : State)
  /-- Waiting for the memory's answer to a tool call. -/
  | recalling (toolCallId : String) (rest : List Node) (s : State)
  | ended (outcome : Outcome) (s : State)
  deriving DecidableEq, Repr

/-- Where a run stands after a step, what it sent, and whether it cancelled itself. -/
structure Stride where
  walk : Walk
  sent : List Sent := []
  cancels : Bool := false
  deriving DecidableEq, Repr

namespace Node

def query (text : String) (limit : Nat) : Json :=
  Json.object [("query", .str text), ("limit", .nat limit)]

/-- The reply to a message, with the notes that were recalled. -/
def replyText (message : String) (memory : List String) : String :=
  let notes := if memory.isEmpty then "" else
    "\n\nRelated notes:" ++ String.join (memory.map fun n => "\n- " ++ n)
  "Received: " ++ message ++ notes

def usage (session message reply : String) : Json :=
  Json.object [("sessionId", .str session), ("inputTokens", .nat (Text.wordCount message)),
    ("outputTokens", .nat (Text.wordCount reply))]

def respondTo (session message : String) (rest : List Node) (s : State) : Stride :=
  let reply := replyText message s.memory
  { walk := .ready rest (s.push (.assistant reply))
    sent := [
      .event (.thinking s!"Composing a reply with {s.memory.length} recalled notes"),
      .event (.text reply),
      .report Method.memoryWrite
        (Json.object [("sessionId", .str session), ("content", .str message)]),
      .report Method.usage (usage session message reply)] }

/-- Runs one node, with an id for a tool call. -/
def run (session fresh : String) (rest : List Node) (s : State) : Node → Stride
  | search limit =>
    let s := { s with memory := [] }
    match s.lastUserMessage with
    | none => { walk := .ready rest s }
    | some text =>
      { walk := .recalling fresh rest s
        sent := [.event (.toolCall fresh Method.memorySearch (query text limit)),
          .call Method.memorySearch (query text limit)] }
  | respond =>
    match s.lastUserMessage with
    | none => { walk := .ended (.failed (.internal "no user message to respond to")) s }
    | some message => respondTo session message rest s
  | fail cause => { walk := .ended (.failed cause) s }
  | say m => { walk := .ready rest (s.push m) }
  | cancel => { walk := .ready rest s, cancels := true }

end Node

namespace Walk

def state : Walk → State
  | ready _ s | recalling _ _ s | ended _ s => s

/-- Takes the next node. A run that waits or is over stays as it is. -/
def step (session fresh : String) (cancelled : Bool) : Walk → Stride
  | ready [] s => { walk := .ended .completed s }
  | ready (n :: rest) s =>
    if cancelled then { walk := .ended .cancelled s }
    else n.run session fresh rest { s with step := (s.step + 1) % bitBound 64 }
  | w => { walk := w }

/-- The memory has answered. -/
def answer (outcome : Except Error Json) : Walk → Stride
  | recalling id rest s =>
    let (memory, output, isError) := match outcome with
      | .ok v => (memoryHits v, v, false)
      | .error e => (s.memory, Json.object [("error", .str e.message)], true)
    { walk := .ready rest { s with memory := memory }
      sent := [.event (.toolResult id Method.memorySearch output isError)] }
  | w => { walk := w }

/-- A cancelled run does not wait for the memory. -/
def giveUp : Walk → Walk
  | recalling _ rest s => .ready rest s
  | w => w

end Walk

end Graph

end Fleet
