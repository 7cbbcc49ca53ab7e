import Fleet.Control.Connections
import Fleet.Control.Resume
import Fleet.Control.Router
import Fleet.Feed.Relay
import Fleet.Session.Command
import Fleet.Settings.ControlPlane
import Fleet.Vm.Scheduler

/-!
What the connections of machines and the requests of browsers share in the control plane: the rows of
machines, the connections, the feeds of browsers, what machines reported, and which user and which
connection a session belongs to.
-/

namespace Fleet.Control

/-- Where a session runs. -/
structure Route where
  sessionId : String
  userId : String
  agentId : String
  runtime : Runtime
  /-- The connection it was started on; on another one it has to be started again. -/
  connectionId : String
  deriving DecidableEq, Repr

namespace Route

def toJson (r : Route) : Json :=
  Json.object [("sessionId", .str r.sessionId), ("userId", .str r.userId),
    ("agentId", .str r.agentId), ("runtimeType", .str r.runtime.name),
    ("connectionId", .str r.connectionId)]

end Route

/-- What one move finds around it: clocks, the launcher, and an id that was never given before. -/
structure Moment where
  vm : Vm.Surroundings
  /-- A clock in milliseconds that only goes forward; deadlines are on it. -/
  clock : Nat
  fresh : String

structure Hub where
  settings : Settings.ControlPlane := {}
  policy : Vm.Policy
  /-- Secrets for the processes of machines. -/
  secrets : List (String × String) := []
  router : Router := {}
  machines : Vm.World
  connections : Connections := {}
  relay : Feed.Relay := {}
  /-- The feed of each browser that listens, by the id of its registration. -/
  feeds : List (String × Feed.Channel) := []
  reports : Reports := {}
  resume : Resume
  routes : List Route := []

/-- A hub as it starts. -/
def Hub.start (settings : Settings.ControlPlane) (policy : Vm.Policy) (store : Vm.Store) : Hub where
  settings := settings
  policy := policy
  machines := { store }
  resume := { ttl := settings.ws.resumeTtl, capacity := settings.ws.resumeMaxEntries }

namespace Hub

/-- Runs work on the rows, which no other work on the same user's rows interrupts. -/
def perform {α : Type} (h : Hub) (work : Vm.Work α) : Except Error α × Hub :=
  let (a, w) := work.run h.machines
  (a, { h with machines := w })

/-! ### Routes -/

def route? (h : Hub) (session : String) : Option Route :=
  h.routes.find? fun r => r.sessionId == session

/-- The user that a session belongs to. -/
def owner? (h : Hub) (session : String) : Option String := (h.route? session).map Route.userId

def dropRoute (h : Hub) (session : String) : Hub :=
  { h with routes := h.routes.filter fun r => r.sessionId != session }

def setRoute (h : Hub) (r : Route) : Hub :=
  { h with routes := (h.dropRoute r.sessionId).routes ++ [r] }

/-- Forgets sessions of a user that were started on other connections, unless a browser listens. -/
def pruneRoutes (h : Hub) (user connection : String) : Hub :=
  { h with routes := h.routes.filter fun r =>
      r.userId != user || r.connectionId == connection || h.relay.has r.sessionId }

/-! ### Feeds -/

def changeFeed (id : String) (f : Feed.Channel → Feed.Channel)
    (feeds : List (String × Feed.Channel)) : List (String × Feed.Channel) :=
  feeds.map fun (k, c) => (k, if k = id then f c else c)

/-- The feeds as sinks of the relay. -/
def sinks : Feed.Sinks (List (String × Feed.Channel)) where
  send id n feeds :=
    match feeds.lookup id with
    | some c => ((c.send n).1, changeFeed id (fun c => (c.send n).2) feeds)
    | none => (false, feeds)
  close id feeds := changeFeed id Feed.Channel.close feeds

/-- Lets a browser listen to a session. -/
def listen (h : Hub) (id session : String) : Hub :=
  { h with
    relay := h.relay.register ⟨id, session, id⟩
    feeds := h.feeds ++ [(id, {})] }

/-- A browser no longer listens. -/
def unlisten (h : Hub) (id : String) : Hub :=
  { h with
    relay := (h.relay.unregister id).2
    feeds := changeFeed id Feed.Channel.abandon h.feeds }

def forward (h : Hub) (session : String) (n : Feed.Notice) : Hub :=
  let (_, relay, feeds) := h.relay.forward sinks session n h.feeds
  { h with relay := relay, feeds := feeds }

/-- Ends all feeds of a session. -/
def closeFeeds (h : Hub) (session : String) : Hub :=
  let (_, relay, feeds) := h.relay.closeSession sinks session h.feeds
  { h with relay := relay, feeds := feeds }

/-- Takes the next notice out of a feed. Nothing when there is none now. -/
def readFeed (h : Hub) (id : String) : Option (Feed.Notice × Hub) :=
  (h.feeds.lookup id).bind fun c => c.read?.map fun (n, c) =>
    (n, { h with feeds := changeFeed id (fun _ => c) h.feeds })

/-- Whether a feed has ended: it takes no more, and nothing is left in it. -/
def feedOver (h : Hub) (id : String) : Bool :=
  match h.feeds.lookup id with
  | some c => !c.accepts && c.queue.isEmpty
  | none => true

/-! ### Machines -/

/-- Demotes the rows of machines that were not heard of for long. -/
def sweep (h : Hub) (m : Moment) (timeoutMs : Nat) : Hub :=
  match Vm.Work.cutoff? m.vm.now timeoutMs with
  | some cutoff => (h.perform (Vm.Work.sweep m.vm.now cutoff)).2
  | none => h

/-- Whether a machine may connect. A token is only looked at if there is one; a ticket is taken. -/
def authenticate (h : Hub) (m : Moment) (c : Credentials) : Except Error Unit × Hub :=
  if Text.isAllBlank c.userId then (.error (.auth "auth frame is missing userId"), h)
  else
    let token : Except Error Unit := match c.token with
      | none | some "" => .ok ()
      | some t => (h.policy.signer.verify m.vm.wall t).bind fun claims =>
        if claims.userId = c.userId then .ok ()
        else .error (.auth "VM token does not match userId")
    match token with
    | .error e => (.error e, h)
    | .ok () =>
      let (r, h) := h.perform (Vm.Work.consumeTicket m.vm.now c.userId c.connectTicket)
      (r.map fun _ => (), h)

end Hub

end Fleet.Control
