import Fleet.Machine.Client
import Fleet.Simulation.Clockwork

/-!
Runs of a machine's client where no control plane can be reached: every attempt to dial fails.
-/

namespace Fleet.Simulation

open Machine (Client)

structure ClientRun where
  client : Client
  now : Nat := 0

namespace ClientRun

def unreachable : String := "Connection refused"

def step (r : ClientRun) : Option ClientRun :=
  match r.client.stage with
  | .dialing _ => some { r with client := r.client.dialed r.now (.error unreachable) }
  | _ => (r.client.next r.now r.now).map fun c => { r with client := c }

def next (r : ClientRun) : Option Nat :=
  match r.client.stage with
  | .pausing t => some (t - r.now)
  | _ => none

def pass (ms : Nat) (r : ClientRun) : ClientRun := { r with now := r.now + ms }

def works : Clockwork ClientRun := ⟨step, next, pass⟩

/-- How long an attempt is waited for, in milliseconds. -/
def patience : Nat := 100

/-- Waits for the client to dial in. -/
def await (r : ClientRun) : ClientRun := works.advance patience r

/-- Asks the client to stop. -/
def shutDown (r : ClientRun) : ClientRun := works.rest { r with client.stopping := true }

end ClientRun

end Fleet.Simulation
