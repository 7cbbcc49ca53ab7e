import Fleet.Http.Service
import Fleet.Simulation.Clockwork
import Fleet.Simulation.Names
import Fleet.Simulation.Scheduler

/-!
Runs of a whole control plane: machines and browsers act by name, everything that can move does so
until it rests, and time is moved by hand.
-/

namespace Fleet.Simulation

open Control (Moment Plane)

/-- The far end of a socket. -/
structure MachineRun where
  name : String
  /-- The number of the socket. -/
  socket : Nat
  /-- What calls are answered with at once, by method, if they are. -/
  auto : Option Json
  /-- How many of the frames it was sent it has dealt with, and how many were shown. -/
  handled : Nat := 0
  shown : Nat := 0
  /-- Whether it went by itself. -/
  gone : Bool := false
  /-- Whether its end was shown. -/
  ended : Bool := false

/-- A browser's request and how much of its answer was shown. -/
structure BrowserRun where
  name : String
  request : Http.Request
  answer : Http.Response ⊕ Nat
  headShown : Bool := false
  shown : Nat := 0
  ended : Bool := false

structure ControlPlaneRun where
  plane : Plane
  /-- The clock of rows, moved by hand, unless it stands still. -/
  now : Instant
  still : Bool := false
  /-- The wall clock in seconds, for tokens. -/
  wall : Nat
  /-- The clock of deadlines, in milliseconds. -/
  clock : Nat := 0
  fresh : Nat := 0
  /-- Launches are refused. -/
  refuses : Bool := false
  /-- How often stale rows are looked for, and when next. -/
  sweepEvery : Option Nat := none
  nextSweep : Nat := 0
  machines : List MachineRun := []
  browsers : List BrowserRun := []
  launchesShown : Nat := 0

namespace ControlPlaneRun

def moment (r : ControlPlaneRun) : Moment where
  vm :=
    { now := r.now
      wall := r.wall
      freshId := freshId (2 * r.fresh)
      freshTicket := freshTicket r.fresh
      launched := if r.refuses then .error (.transport "refused") else .ok () }
  clock := r.clock
  fresh := freshId (2 * r.fresh + 1)

def setPlane (r : ControlPlaneRun) (p : Plane) : ControlPlaneRun :=
  { r with plane := p, fresh := r.fresh + 1 }

/-- The answer of a machine that answers calls at once. -/
def autoReply (auto : Json) (c : Call) : Frame :=
  let result := (auto.get? c.method).getD (Json.object [("accepted", .bool true)])
  match result.get? "error" with
  | some e =>
    let part (name : String) : String := ((e.get? name).bind Json.text?).getD ""
    .response (.err c.id ⟨part "code", part "message"⟩)
  | none => .response (.ok c.id result)

def setMachine (r : ControlPlaneRun) (m : MachineRun) : ControlPlaneRun :=
  { r with machines := r.machines.map fun x => if x.socket = m.socket then m else x }

/-- Deals with the next frame that a machine was sent. -/
def stepMachine (r : ControlPlaneRun) (m : MachineRun) : Option ControlPlaneRun :=
  (r.plane.sockets[m.socket]?.bind fun s => s.written[m.handled]?).map fun f =>
    let r := r.setMachine { m with handled := m.handled + 1 }
    match f, m.auto, m.gone with
    | .request c, some auto, false =>
      { r with plane := r.plane.arrive m.socket (.text (autoReply auto c).text) }
    | _, _, _ => r

/-- How often stale rows are looked for; a time of zero is never. -/
def sweepPeriod (r : ControlPlaneRun) : Option Nat := r.sweepEvery.filter (· ≠ 0)

def sweep (r : ControlPlaneRun) : Option ControlPlaneRun :=
  r.sweepPeriod.bind fun every =>
    if r.nextSweep ≤ r.clock then
      let plane := { r.plane with hub := r.plane.hub.sweep r.moment every }
      some { r with plane := plane, nextSweep := r.clock + every }
    else none

def step (r : ControlPlaneRun) : Option ControlPlaneRun :=
  (r.plane.moves.findSome? fun x => (r.plane.move r.moment x).map r.setPlane)
    <|> r.machines.findSome? r.stepMachine <|> r.sweep

/-- The time to what happens next by itself. -/
def next (r : ControlPlaneRun) : Option Nat :=
  let sweeps := (r.sweepPeriod.map fun _ => r.nextSweep).toList
  ((r.plane.nextDeadline.toList ++ sweeps).map (· - r.clock)).min?

def pass (ms : Nat) (r : ControlPlaneRun) : ControlPlaneRun := { r with clock := r.clock + ms }

def works : Clockwork ControlPlaneRun := ⟨step, next, pass⟩

/-- Lets everything come to rest. A millisecond goes by. -/
def settle (r : ControlPlaneRun) : ControlPlaneRun := (works.rest r).pass 1

/-- Moves the clocks; that of the rows goes first. -/
def advance (r : ControlPlaneRun) (ms : Nat) : ControlPlaneRun :=
  works.advance ms { r with now := if r.still then r.now else r.now.addMillis ms }

/-! ### Machines -/

def machine? (r : ControlPlaneRun) (name : String) : Option MachineRun :=
  r.machines.find? fun m => m.name == name

def isShut (r : ControlPlaneRun) (m : MachineRun) : Bool :=
  (r.plane.sockets[m.socket]?.map fun s => s.shut).getD true

/-- A machine sends something. Whether it still can; nothing if there is no such machine. -/
def send (r : ControlPlaneRun) (name : String) (x : Arrival) : Option Bool × ControlPlaneRun :=
  match r.machine? name with
  | none => (none, r)
  | some m =>
    if m.gone || r.isShut m then (some false, r)
    else
      let r := { r with plane := r.plane.arrive m.socket x }
      (some true, if x = .close then r.setMachine { m with gone := true } else r)

/-- A machine goes without a word. -/
def drop (r : ControlPlaneRun) (name : String) : ControlPlaneRun :=
  match r.machine? name with
  | none => r
  | some m =>
    { r with
      plane := r.plane.arrive m.socket .lost
      machines := r.machines.filter fun x => x.socket ≠ m.socket }

/-- A machine dials in; an older one of its name goes. -/
def dial (r : ControlPlaneRun) (name : String) (auto : Option Json) : ControlPlaneRun :=
  let r := r.drop name
  let k := r.plane.sockets.length
  { r.setPlane (r.plane.accept r.moment) with machines := r.machines ++ [{ name, socket := k, auto }] }

/-! ### Browsers -/

def ask (r : ControlPlaneRun) (name : String) (request : Http.Request) : ControlPlaneRun :=
  let n := r.plane.visits.length
  let (answer, plane) := Http.serve r.plane r.moment request
  let answer := match answer with
    | some a => .inl a
    | none => .inr n
  { r.setPlane plane with browsers := r.browsers ++ [{ name, request, answer }] }

/-- A browser leaves. -/
def abort (r : ControlPlaneRun) (name : String) : ControlPlaneRun :=
  r.browsers.foldl (fun r b =>
    match b.answer with
    | .inr n => if b.name = name then { r with plane := r.plane.abandon n } else r
    | .inl _ => r) r

/-! ### What is shown -/

/-- The answer to a request, if there is one yet. -/
def response? (r : ControlPlaneRun) (b : BrowserRun) : Option Http.Response :=
  let answer := match b.answer with
    | .inl a => some a
    | .inr n => r.plane.visits[n]?.bind fun v => if v.present then Http.visitResponse? v else none
  answer.map (Http.finish r.plane.hub.settings.server.corsOrigins b.request)

def headJson (a : Http.Response) : Json :=
  let body := match a.body with
    | .events => []
    | .empty => [("body", Json.str "")]
    | .text s => [("body", .str s)]
    | .json v => [("body", v)]
  Json.object ([("status", .nat a.status),
    ("headers", Json.object (a.headers.map fun (k, v) => (k, .str v)))] ++ body)

def noticeJson (n : Feed.Notice) : Json :=
  Json.object [("event", .str n.event), ("data", n.data)]

/-- What a browser received since the last look. -/
def showBrowser (r : ControlPlaneRun) (b : BrowserRun) : List Json × BrowserRun :=
  let head := if b.headShown then none else r.response? b
  let b := { b with headShown := b.headShown || head.isSome }
  let (notices, ended) := match b.answer with
    | .inr n => match r.plane.visits[n]? with
      | some v => (v.received, v.feedEnded)
      | none => ([], false)
    | .inl _ => ([], false)
  let last := if ended && !b.ended then [Json.str "end"] else []
  ((head.map headJson).toList ++ (notices.drop b.shown).map noticeJson ++ last,
    { b with shown := notices.length, ended })

/-- What a machine received since the last look. -/
def showMachine (r : ControlPlaneRun) (m : MachineRun) : List Json × MachineRun :=
  match r.plane.sockets[m.socket]? with
  | none => ([], m)
  | some s =>
    let frames := if m.gone then [] else (s.written.drop m.shown).map Frame.toJson
    let last := if s.shut && !m.ended then [Json.str "closed"] else []
    (frames ++ last, { m with shown := s.written.length, ended := s.shut })

/-- Lists by name, those of one name joined, without empty ones. -/
def joined : List (String × List Json) → List (String × Json)
  | [] => []
  | (k, vs) :: rest =>
    let others := joined rest
    if vs.isEmpty then others
    else (k, .arr (vs ++ ((others.lookup k).bind Json.items?).getD []))
      :: others.filter fun o => o.1 ≠ k

def unlessNone (name : String) (ms : List (String × Json)) : List (String × Json) :=
  if ms.isEmpty then [] else [(name, Json.object ms)]

/-- What there is to see after a step, and the run with all of it shown. -/
def look (r : ControlPlaneRun) : List (String × Json) × ControlPlaneRun :=
  let hub := r.plane.hub
  let browsers := r.browsers.map fun b => (b.name, r.showBrowser b)
  let machines := r.machines.map fun m => (m.name, r.showMachine m)
  let launches := (hub.machines.launches.drop r.launchesShown).map
    (launchJson hub.policy.signer r.wall)
  ([("vms", .nat hub.connections.count), ("sse", .nat hub.relay.count),
      ("routes", .nat hub.routes.length), ("resume", .nat hub.resume.len)]
    ++ unlessNone "http" (joined (browsers.map fun b => (b.1, b.2.1)))
    ++ unlessNone "ws" (joined (machines.map fun m => (m.1, m.2.1)))
    ++ (if launches.isEmpty || r.still then [] else [("launches", .arr launches)]),
    { r with
      browsers := browsers.map fun b => b.2.2
      machines := machines.map fun m => m.2.2
      launchesShown := hub.machines.launches.length })

end ControlPlaneRun

end Fleet.Simulation
