import Fleet.Session.Manager
import Fleet.Simulation.Bridge
import Fleet.Simulation.Graph

/-!
Runs of a machine's sessions against a scripted channel. Bridge processes are bridges of their own or
scripts, which read lines, write lines and end.
-/

namespace Fleet.Simulation

open Session (Adapter Manager Progress Task)

/-- A process that writes its lines after the first command, reads so many more, and ends. -/
structure Script where
  lines : List String
  reads : Nat
  exit : Bridge.Exit
  deriving Repr

/-- What bridge processes run. -/
inductive Program where
  | bridge (runner : String) (timeout : Nat) (play : Bridge.TurnInput → Bridge.Play)
  | script (s : Script)

inductive ProcessState where
  | bridge (b : BridgeRun Unit)
  | script (s : Script) (written : Bool)

/-- The far side of a process of an adapter, and how many commands it has read. -/
structure ProcessRun where
  adapter : Nat
  key : Nat
  read : Nat := 0
  state : ProcessState

structure SessionsRun where
  manager : Manager := {}
  disk : Disk := {}
  channel : Channel := {}
  now : Instant
  program : Program
  fresh : Nat := 0
  /-- The adapters whose open call hangs, and the calls of processes that hang. -/
  hung : List Nat := []
  hungCalls : List (Nat × Nat) := []
  processes : List ProcessRun := []
  /-- Requests by number, with their outcome once there is one. -/
  tasks : List (Nat × Task) := []
  outcomes : List (Nat × Except Error Json) := []
  count : Nat := 0
  /-- The lines that scripts read. -/
  stdin : List Bridge.Command := []

def Program.start : Program → ProcessState
  | .bridge runner timeout play =>
    .bridge { core := { runner, timeout }, runner := fun i _ => (.ofPlay 0 (play i), ()), memory := () }
  | .script s => .script s false

namespace SessionsRun

def link? (r : SessionsRun) (key : Nat) : Option Bridge.Link :=
  match r.manager.adapters[key]? with
  | some (.bridge l) => some l
  | _ => none

def setLink (r : SessionsRun) (key : Nat) (x : Bridge.Link × List Sent) : SessionsRun :=
  { r with
    manager := r.manager.setAdapter key (.bridge x.1)
    channel := r.channel.takeAll x.1.session x.2 }

/-- Whether a request goes on without waiting for the disk. -/
def goesOn (r : SessionsRun) : Task → Bool
  | .opening key _ => (r.link? key).isSome
  | .opened key _ => (r.link? key).isSome
  | _ => true

def settleProgress (r : SessionsRun) (n : Nat) : Progress → SessionsRun
  | .waits t => { r with tasks := r.tasks ++ [(n, t)] }
  | .done o => { r with outcomes := r.outcomes ++ [(n, o)] }

/-- One step of the request with a number. -/
def stepTask (r : SessionsRun) (n : Nat) (t : Task) : Option SessionsRun :=
  (r.manager.step r.disk t).map fun (m, d, next) =>
    let others := r.tasks.filter fun x => x.1 ≠ n
    ({ r with manager := m, disk := d, tasks := others }).settleProgress n next

def eager (r : SessionsRun) (n : Nat) : Nat → SessionsRun
  | 0 => r
  | fuel + 1 =>
    match r.tasks.lookup n with
    | some t => if r.goesOn t then ((r.stepTask n t).map (eager · n fuel)).getD r else r
    | none => r

/-- Takes up a request and works it off as far as it goes at once; its number is the old count. -/
def request (r : SessionsRun) (method : String) (params : Json) : SessionsRun :=
  let (m, next) := r.manager.begin method params
  eager (({ r with manager := m, count := r.count + 1 }).settleProgress r.count next) r.count 4

def stepTasks (r : SessionsRun) : Option SessionsRun :=
  r.tasks.findSome? fun (n, t) => r.stepTask n t

/-- A step of the runs of one adapter. -/
def stepGraph (r : SessionsRun) (key : Nat) (s : Graph.Session) : Option SessionsRun :=
  let run : SessionRun := ⟨s, r.disk, r.channel, r.now, r.fresh, r.hung.contains key⟩
  run.step.map fun t =>
    { r with
      manager := r.manager.setAdapter key (.graph t.session)
      disk := t.disk
      channel := t.channel
      fresh := t.fresh
      hung := if t.hangs then key :: r.hung.filter (· ≠ key) else r.hung.filter (· ≠ key) }

def stepAdapter (r : SessionsRun) (key : Nat) : Option SessionsRun :=
  match r.manager.adapters[key]? with
  | some (Adapter.graph s) => r.stepGraph key s
  | _ => none

def stepGraphs (r : SessionsRun) : Option SessionsRun :=
  (List.range r.manager.adapters.length).findSome? r.stepAdapter

/-- Starts the far side of a process that has none. -/
def spawn (r : SessionsRun) (key : Nat) (l : Bridge.Link) : Option SessionsRun :=
  let missing := (List.range l.processes.length).find? fun p =>
    !(r.processes.any fun q => q.adapter == key && q.key == p)
  missing.map fun p => { r with processes := r.processes ++ [⟨key, p, 0, r.program.start⟩] }

/-- Answers an open call of a link's processes. -/
def answerCall (r : SessionsRun) (key : Nat) (l : Bridge.Link) : Option SessionsRun :=
  let calls := (List.range l.processes.length).flatMap fun p =>
    ((l.processes[p]?.map (·.calls)).getD []).map (p, ·)
  match calls.find? fun (_, c) => !r.hungCalls.contains (key, c.key) with
  | none => none
  | some (p, c) =>
    match r.channel.look c.method with
    | (none, ch) => some { r with channel := ch, hungCalls := (key, c.key) :: r.hungCalls }
    | (some a, ch) => some (({ r with channel := ch }).setLink key (l.answer p c.key a, []))

def setProcess (r : SessionsRun) (p : ProcessRun) : SessionsRun :=
  { r with processes := r.processes.map fun q =>
      if q.adapter = p.adapter ∧ q.key = p.key then p else q }

def writeLines (r : SessionsRun) (key process : Nat) (lines : List String) : SessionsRun :=
  lines.foldl (fun r line =>
    match r.link? key with
    | some l => r.setLink key (l.readLine process line)
    | none => r) r

/-- A step of the far side of one process. -/
def stepProcess (r : SessionsRun) (p : ProcessRun) : Option SessionsRun := do
  let l ← r.link? p.adapter
  let near ← l.processes[p.key]?
  if near.exit.isSome then none
  else if near.killed then some (r.setLink p.adapter (l.ended p.key (.signal 9)))
  else
    let read := { p with read := p.read + 1 }
    match p.state with
    | .bridge b =>
      if b.core.phase = .ended then some (r.setLink p.adapter (l.ended p.key (.code 0)))
      else do
        let c ← near.commands[p.read]?
        let b := b.feed (Text.encode c.line)
        let r := r.setProcess { read with state := .bridge { b with out := [] } }
        some (r.writeLines p.adapter p.key (b.out.map fun m => Json.print m.toJson))
    | .script s written =>
      if written && s.reads = 0 then some (r.setLink p.adapter (l.ended p.key s.exit))
      else do
        let c ← near.commands[p.read]?
        let s' := if written then { s with reads := s.reads - 1 } else s
        let r := { r.setProcess { read with state := .script s' true } with stdin := r.stdin ++ [c] }
        some (if written then r else r.writeLines p.adapter p.key s.lines)

def stepLinks (r : SessionsRun) : Option SessionsRun :=
  (List.range r.manager.adapters.length).findSome? fun key =>
    (r.link? key).bind fun l => r.spawn key l <|> r.answerCall key l

def step (r : SessionsRun) : Option SessionsRun :=
  r.stepTasks <|> r.stepGraphs <|> r.stepLinks <|> r.processes.findSome? r.stepProcess

def settle (r : SessionsRun) : SessionsRun := Clockwork.rest ⟨step, fun _ => none, fun _ r => r⟩ r

/-- The outcome of a request, if it has one. -/
def outcome? (r : SessionsRun) (n : Nat) : Option (Except Error Json) := r.outcomes.lookup n

/-- Requests with nothing in between, then all that follows. -/
def burst (r : SessionsRun) (requests : List (String × Json)) :
    List (Option (Except Error Json)) × SessionsRun :=
  let first := r.count
  let r := (requests.foldl (fun r (method, params) => r.request method params) r).settle
  ((List.range requests.length).map fun i => r.outcome? (first + i), r)

/-- Looks at the script again for all calls that hang. -/
def release (r : SessionsRun) : SessionsRun := ({ r with hung := [], hungCalls := [] }).settle

def stopAll (r : SessionsRun) : SessionsRun :=
  (r.manager.entries.map Prod.fst).foldl (fun r id =>
    (r.request Method.stopSession (SessionRef.toJson ⟨id⟩)).settle) r

/-- A new machine on the same disk. Runs of the old one go on. -/
def restart (r : SessionsRun) : SessionsRun :=
  { r with manager := { r.manager with entries := [] }, tasks := [] }

end SessionsRun

/-- Traffic in the order of its sessions, requests in the order of their texts. -/
def Traffic.sorted (t : Traffic) : Traffic :=
  let session (p : Json) : String := ((p.get? "sessionId").bind Json.text?).getD ""
  let text (x : String × Json) : String := Json.print (Traffic.requestJson x)
  { events := t.events.mergeSort fun a b => decide (a.1 ≤ b.1)
    requests := t.requests.mergeSort fun a b => decide (text a ≤ text b)
    reports := t.reports.mergeSort fun a b => decide (session a.2 ≤ session b.2) }

end Fleet.Simulation
