import Fleet.Graph.Session
import Fleet.Simulation.Channel
import Fleet.Simulation.Clockwork
import Fleet.Simulation.Names

/-!
Runs of graphs against a scripted channel: a walk alone, and a session with all that it sends.
-/

namespace Fleet.Simulation

open Fleet.Graph (Walk Session)

/-- A walk with its channel. -/
structure WalkRun where
  session : String
  walk : Walk
  channel : Channel
  cancelled : Bool := false
  /-- The run is cancelled while a call is open. -/
  cancelOnCall : Bool := false
  fresh : Nat := 0

namespace WalkRun

def follow (w : WalkRun) (t : Graph.Stride) (c : Channel) : WalkRun :=
  { w with
    walk := t.walk
    channel := c.takeAll w.session t.sent
    cancelled := w.cancelled || t.cancels
    fresh := w.fresh + 1 }

def step (w : WalkRun) : Option WalkRun :=
  match w.walk with
  | .ended .. => none
  | .ready .. => some (w.follow (w.walk.step w.session (freshCall (w.fresh + 1)) w.cancelled) w.channel)
  | .recalling .. =>
    let w := { w with cancelled := w.cancelled || w.cancelOnCall }
    match w.channel.look Method.memorySearch with
    | (some a, c) => some (w.follow (w.walk.answer a) c)
    | (none, c) => if w.cancelled then some { w with walk := w.walk.giveUp, channel := c } else none

def run (w : WalkRun) : WalkRun := Clockwork.rest ⟨step, fun _ => none, fun _ w => w⟩ w

end WalkRun

/-- A session on a disk, whose open call may hang. -/
structure SessionRun where
  session : Session
  disk : Disk := {}
  channel : Channel := {}
  now : Instant
  fresh : Nat := 0
  hangs : Bool := false

namespace SessionRun

def follow (r : SessionRun) (x : Session × List Sent) (c : Channel) : SessionRun :=
  { r with
    session := x.1
    channel := c.takeAll r.session.id x.2
    fresh := r.fresh + 1
    hangs := false }

def call (r : SessionRun) : Option SessionRun :=
  if r.hangs then none
  else match r.channel.look Method.memorySearch with
    | (some a, c) => (r.session.answer a).map (r.follow · c)
    | (none, c) => some { r with channel := c, hangs := true }

/-- The next step of a session's runs; the run that waits longest goes first. -/
def step (r : SessionRun) : Option SessionRun :=
  let s := r.session
  match s.active, s.queue with
  | none, [] => none
  | none, run :: _ => (s.enter run).map ({ r with session := · })
  | some (_, .walking (.ready ..)), _ =>
    (s.walk (freshCall (r.fresh + 1))).map (r.follow · r.channel)
  | some (_, .walking (.recalling ..)), _ =>
    match s.giveUp with
    | some s => some { r with session := s, hangs := false }
    | none => r.call
  | some (_, .walking (.ended ..)), _ =>
    (s.save r.disk [] r.now).map fun (s, d) => { r with session := s, disk := d }
  | some (_, .saved ..), _ => s.tell.map (r.follow · r.channel)

def settle (r : SessionRun) : SessionRun := Clockwork.rest ⟨step, fun _ => none, fun _ r => r⟩ r

end SessionRun

end Fleet.Simulation
