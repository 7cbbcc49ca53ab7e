import Fleet.Control.Chat
import Fleet.Control.Socket
import Fleet.Event

/-!
The whole control plane: its hub, the sockets of machines and the visits of browsers. What happens
inside it is a sequence of moves, each of which runs from one point of waiting to the next, so that
every interleaving is a list of moves.
-/

namespace Fleet.Control

/-- A browser's request and, for a message, the feed that answers it. -/
structure Visit where
  errand : Errand
  /-- The registration of the feed. -/
  feed : Option String
  stage : Errand.Stage
  /-- Whether the browser is still there. -/
  present : Bool := true
  /-- What the browser has received. -/
  received : List Feed.Notice := []
  /-- Whether the feed has ended. -/
  feedEnded : Bool := false
  deriving Repr

structure Plane where
  hub : Hub
  sockets : List Socket := []
  visits : List Visit := []

inductive Move where
  /-- A socket goes on. -/
  | socket (k : Nat)
  /-- The writer of a socket goes on. -/
  | write (k : Nat)
  /-- A visit's errand goes on. -/
  | errand (n : Nat)
  /-- A visit's feed is read. -/
  | feed (n : Nat)
  /-- The time of a call is up. -/
  | expire (q : Nat)
  deriving DecidableEq, Repr

namespace Plane

/-! ### From outside -/

/-- A machine dials in. -/
def accept (p : Plane) (m : Moment) : Plane :=
  { p with sockets := p.sockets ++ [{ stage := .expecting (m.clock + p.hub.settings.ws.authTimeout) }] }

def arrive (p : Plane) (k : Nat) (x : Arrival) : Plane :=
  { p with sockets := p.sockets.modify k fun s => { s with inbox := s.inbox ++ [x] } }

/-- A visit whose errand failed has no feed. -/
def settle (v : Visit) (h : Hub) : Hub :=
  match v.stage, v.feed with
  | .ended (.error _), some id => h.unlisten id
  | _, _ => h

/-- A browser asks. For a message its feed is there before anything is done, so that it misses
nothing. -/
def visit (p : Plane) (m : Moment) (e : Errand) : Plane :=
  let (feed, hub) := match e.ask with
    | .message _ _ =>
      let id := "sse-" ++ m.fresh
      (some id, p.hub.listen id e.sessionId)
    | _ => (none, p.hub)
  let (stage, hub) := e.begin m hub
  let v : Visit := { errand := e, feed, stage }
  { p with hub := settle v hub, visits := p.visits ++ [v] }

/-- A browser leaves. Calls made for it go on, but their answers are for nobody. -/
def abandon (p : Plane) (n : Nat) : Plane :=
  match p.visits[n]? with
  | none => p
  | some v =>
    if v.present then
      let hub := match v.stage.call? with
        | some q => { p.hub with connections := p.hub.connections.desert q }
        | none => p.hub
      let hub := match v.feed with
        | some id => hub.unlisten id
        | none => hub
      { p with hub := hub, visits := p.visits.modify n fun v => { v with present := false } }
    else p

/-! ### Moves -/

def setVisit (p : Plane) (n : Nat) (v : Visit) (h : Hub) : Plane :=
  { p with hub := h, visits := p.visits.set n v }

def setSocket (p : Plane) (k : Nat) (x : Socket × Hub) : Plane :=
  { p with hub := x.2, sockets := p.sockets.set k x.1 }

def moveErrand (p : Plane) (m : Moment) (n : Nat) : Option Plane :=
  p.visits[n]?.bind fun v =>
    if v.present then (v.errand.next m p.hub v.stage).map fun (stage, hub) =>
      let v := { v with stage := stage }
      p.setVisit n v (settle v hub)
    else none

/-- Whether the feed of a visit is being read. -/
def Visit.listens (v : Visit) : Bool :=
  v.present && !v.feedEnded && match v.stage with
    | .ended (.ok _) => true
    | _ => false

/-- A feed ends with a terminal event, or when it was closed and nothing is left. -/
def moveFeed (p : Plane) (n : Nat) : Option Plane :=
  p.visits[n]?.bind fun v => v.feed.bind fun id =>
    if Visit.listens v then
      match p.hub.readFeed id with
      | some (x, hub) =>
        let v := { v with received := v.received ++ [x] }
        if isTerminalName x.event then some (p.setVisit n { v with feedEnded := true } (hub.unlisten id))
        else some (p.setVisit n v hub)
      | none =>
        if p.hub.feedOver id then some (p.setVisit n { v with feedEnded := true } (p.hub.unlisten id))
        else none
    else none

/-- Makes a move, if it can be made now. -/
def move (p : Plane) (m : Moment) : Move → Option Plane
  | .socket k => p.sockets[k]?.bind fun s => (s.next m p.hub).map (p.setSocket k)
  | .write k => p.sockets[k]?.bind fun s => (s.write p.hub).map (p.setSocket k)
  | .errand n => p.moveErrand m n
  | .feed n => p.moveFeed n
  | .expire q =>
    if (p.hub.connections.due m.clock).contains q then
      some { p with hub := { p.hub with connections := p.hub.connections.expire q } }
    else none

/-- The moves of everything that there is. -/
def moves (p : Plane) : List Move :=
  (List.range p.sockets.length).map .socket ++ (List.range p.sockets.length).map .write ++
    (List.range p.visits.length).map .errand ++ (List.range p.visits.length).map .feed ++
    (List.range p.hub.connections.inquiries.length).map .expire

/-- The next time at which something happens by itself. -/
def nextDeadline (p : Plane) : Option Nat :=
  (p.sockets.filterMap Socket.deadline? ++ p.hub.connections.nextDeadline.toList).min?

end Plane

end Fleet.Control
