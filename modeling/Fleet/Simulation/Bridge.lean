import Fleet.Bridge.Runner
import Fleet.Simulation.Clockwork

/-!
Runs of a bridge: its input comes in pieces, its runtime follows a plan, and time is moved by hand.
-/

namespace Fleet.Simulation

open Bridge (Core Message Play TurnInput)

inductive Act where
  | say (m : Message)
  | finish (r : Except Error String)

/-- What a runtime does, each after a delay. -/
abbrev Plan := List (Nat × Act)

def Plan.ofPlay (delay : Nat) (p : Play) : Plan :=
  match p.said.map Act.say ++ [.finish p.result] with
  | [] => []
  | a :: rest => (delay, a) :: rest.map (0, ·)

/-- A bridge with its runtime, which is asked for a plan at each turn and has a state `ρ`. -/
structure BridgeRun (ρ : Type) where
  core : Core
  runner : TurnInput → ρ → Plan × ρ
  memory : ρ
  input : Text.LineReader := {}
  plan : Option Plan := none
  /-- What was written since the last look. -/
  out : List Message := []

namespace BridgeRun

variable {ρ : Type}

def take (b : BridgeRun ρ) (x : Core × List Message) : BridgeRun ρ :=
  { b with core := x.1, out := b.out ++ x.2 }

/-- The runtime's next act, unless it has to wait. -/
def act (b : BridgeRun ρ) : Option (BridgeRun ρ) :=
  match b.core.active, b.plan with
  | some (_, .running input), none =>
    let (plan, memory) := b.runner input b.memory
    some { b with plan := some plan, memory := memory }
  | some (_, .running _), some ((0, .say m) :: rest) =>
    (b.core.say m).map fun x => { b.take x with plan := some rest }
  | some (_, .running _), some ((0, .finish r) :: _) =>
    (b.core.finish r).map fun x => { b.take x with plan := none }
  | _, _ => none

def step (b : BridgeRun ρ) : Option (BridgeRun ρ) :=
  let c := b.core
  (c.quit.map fun x => { b.take x with plan := none })
    <|> (c.expire.map b.take) <|> (c.enter.map b.take) <|> (c.search.map b.take) <|> b.act
    <|> (c.wind.map fun d => { b with core := d, plan := if d.active.isNone then none else b.plan })

def next (b : BridgeRun ρ) : Option Nat :=
  let delays := match b.plan with
    | some ((d, _) :: _) => [d]
    | _ => []
  (b.core.limits.map (· - b.core.clock) ++ delays).min?

def pass (ms : Nat) (b : BridgeRun ρ) : BridgeRun ρ :=
  let plan := match b.plan with
    | some ((d, a) :: rest) => some ((d - ms, a) :: rest)
    | p => p
  match b.core.tick ms with
  | some c => { b with core := c, plan := plan }
  | none => b

def works : Clockwork (BridgeRun ρ) := ⟨step, next, pass⟩

def settle (b : BridgeRun ρ) : BridgeRun ρ := works.rest b

/-- Bytes come in; each line is worked off before the next. -/
def feed (b : BridgeRun ρ) (bytes : List UInt8) : BridgeRun ρ :=
  let (lines, input) := b.input.feed bytes
  lines.foldl (fun b l => (b.take (b.core.readLine l)).settle) { b with input := input }

/-- The input ends, and the bridge runs to its end. -/
def close (b : BridgeRun ρ) : BridgeRun ρ :=
  let b := (b.input.rest.foldl (fun b l => b.take (b.core.readLine l)) b).settle
  works.wait { b with core := b.core.endInput }

end BridgeRun

end Fleet.Simulation
