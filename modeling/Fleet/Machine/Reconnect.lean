import Fleet.Error

/-!
When a machine dials again after an attempt has ended: the pauses double up to a longest one and start
over after a connection that held, and too many rejections in a row end it all.
-/

namespace Fleet.Machine

/-- Pauses in milliseconds. -/
structure Reconnect where
  shortest : Nat := 2000
  longest : Nat := 30000
  /-- An attempt that took this long counts as one that held. -/
  healthy : Nat := 60000
  deriving DecidableEq, Repr, Inhabited

/-- How an attempt ended. -/
inductive AttemptEnd where
  /-- By request. -/
  | shutdown
  /-- After it had been accepted. -/
  | closed
  | failed (e : Error)
  deriving DecidableEq, Repr

/-- The next pause, and the rejections since the last accepted attempt. -/
structure Schedule where
  pause : Nat
  rejections : Nat := 0
  deriving DecidableEq, Repr, Inhabited

inductive Verdict where
  | stop (result : Except Error Unit)
  | again (pause : Nat)
  deriving Repr

namespace Reconnect

/-- So many rejections in a row mean that another machine has taken this one's place. -/
def rejectionLimit : Nat := 5

def start (p : Reconnect) : Schedule := ⟨p.shortest, 0⟩

/-- Pauses, and doubles the pause for the next time. -/
def pause (p : Reconnect) (s : Schedule) (elapsed rejections : Nat) : Verdict × Schedule :=
  let d := if p.healthy ≤ elapsed then p.shortest else s.pause
  (.again d, ⟨min (2 * d) p.longest, rejections⟩)

/-- What follows an attempt that took so long and ended so. -/
def after (p : Reconnect) (s : Schedule) (elapsed : Nat) : AttemptEnd → Verdict × Schedule
  | .shutdown => (.stop (.ok ()), s)
  | .closed => p.pause s elapsed 0
  | .failed (.auth text) =>
    if rejectionLimit ≤ s.rejections + 1 then (.stop (.error (.auth text)), s)
    else p.pause s elapsed (s.rejections + 1)
  | .failed _ => p.pause s elapsed s.rejections

end Reconnect

end Fleet.Machine
