/-!
Running a machine of small steps: it steps until it rests, and time passes from one of its timers to
the next.
-/

namespace Fleet.Simulation

structure Clockwork (σ : Type) where
  /-- A step that needs no time, if there is one. -/
  step : σ → Option σ
  /-- The time to the next timer. -/
  next : σ → Option Nat
  pass : Nat → σ → σ

namespace Clockwork

variable {σ : Type}

/-- More steps than any run here takes. -/
def enough : Nat := 1000000

def restFor (w : Clockwork σ) : Nat → σ → σ
  | 0, s => s
  | fuel + 1, s =>
    match w.step s with
    | some t => restFor w fuel t
    | none => s

/-- Steps until there is no step left. -/
def rest (w : Clockwork σ) (s : σ) : σ := w.restFor enough s

def advanceFor (w : Clockwork σ) : Nat → Nat → σ → σ
  | 0, _, s => s
  | fuel + 1, ms, s =>
    let s := w.rest s
    if ms = 0 then s
    else
      let d := match w.next s with
        | some d => min d ms
        | none => ms
      if d = 0 then s else advanceFor w fuel (ms - d) (w.pass d s)

/-- Lets time pass, with all that happens on the way. -/
def advance (w : Clockwork σ) (ms : Nat) (s : σ) : σ := w.advanceFor enough ms s

def waitFor (w : Clockwork σ) : Nat → σ → σ
  | 0, s => s
  | fuel + 1, s =>
    let s := w.rest s
    match w.next s with
    | some d => if d = 0 then s else waitFor w fuel (w.pass d s)
    | none => s

/-- Lets time pass until no timer is left. -/
def wait (w : Clockwork σ) (s : σ) : σ := w.waitFor enough s

end Clockwork

end Fleet.Simulation
