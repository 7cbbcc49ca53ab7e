import Fleet.Simulation.Names
import Fleet.Vm.Locks
import Fleet.Vm.Scheduler

/-!
Runs of the scheduler on a clock that is moved by hand, with a launcher that only records.
-/

namespace Fleet.Simulation

open Vm (Launch Locks Policy Row Surroundings Work World)

structure SchedulerRun where
  policy : Policy
  world : World
  locks : Locks := {}
  now : Instant
  /-- The wall clock in seconds, for tokens. -/
  wall : Nat
  fresh : Nat := 0
  /-- Launches are refused. -/
  refuses : Bool := false

/-- A launch as it is shown: what the process is told, and what its token says. -/
def launchJson (signer : Token.Signer) (wall : Nat) (l : Launch) : Json :=
  let told := (l.environment.filter (·.1 ≠ "VM_TOKEN")).map fun (k, v) => Json.arr [.str k, .str v]
  let token := match signer.verify wall l.token with
    | .ok c => c.summary
    | .error _ => .null
  Json.object [("env", .arr told), ("token", token)]

namespace SchedulerRun

def surroundings (r : SchedulerRun) : Surroundings where
  now := r.now
  wall := r.wall
  freshId := freshId (r.fresh + 1)
  freshTicket := freshTicket (r.fresh + 1)
  launched := if r.refuses then .error (.transport "refused") else .ok ()

/-- Runs one operation under the user's lock. -/
def run {α : Type} (r : SchedulerRun) (user : String) (work : Surroundings → Work α) :
    Except Error α × SchedulerRun :=
  let locks := r.locks.request user r.fresh
  let (a, w) := (work r.surroundings).run r.world
  (a, { r with world := w, locks := locks.release user r.fresh, fresh := r.fresh + 1 })

def ensure (r : SchedulerRun) (user org : String) (wsReady : Bool) :
    Except Error Vm.Outcome × SchedulerRun :=
  r.run user fun s => r.policy.ensure s user org wsReady

/-- Sweeps as one operation. Nothing when the timeout leads out of the calendar. -/
def sweep (r : SchedulerRun) (timeoutMs : Nat) : Option (Except Error Nat × SchedulerRun) :=
  (Work.cutoff? r.now timeoutMs).map fun cutoff =>
    let (n, w) := (Work.sweep r.now cutoff).run r.world
    (n, { r with world := w })

def advance (r : SchedulerRun) (ms : Nat) : SchedulerRun := { r with now := r.now.addMillis ms }

/-- The launches since there were `n`. -/
def launchesSince (r : SchedulerRun) (n : Nat) : List Json :=
  (r.world.launches.drop n).map (launchJson r.policy.signer r.wall)

end SchedulerRun

end Fleet.Simulation
