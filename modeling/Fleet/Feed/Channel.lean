import Fleet.Json.Basic

/-!
The queue between the control plane and one browser's stream. It takes frames until it is closed or
the browser has gone; what was taken stays to be read.
-/

namespace Fleet.Feed

/-- One event for a browser. -/
structure Notice where
  event : String
  data : Json
  deriving DecidableEq, Repr, Inhabited

structure Channel where
  /-- Taken and not read yet, oldest first. -/
  queue : List Notice := []
  closed : Bool := false
  /-- Whether the reading side has gone. -/
  abandoned : Bool := false
  deriving DecidableEq, Repr, Inhabited

namespace Channel

def accepts (c : Channel) : Bool := !c.closed && !c.abandoned

/-- Whether the notice was taken. -/
def send (c : Channel) (n : Notice) : Bool × Channel :=
  if c.accepts then (true, { c with queue := c.queue ++ [n] }) else (false, c)

def close (c : Channel) : Channel := { c with closed := true }

/-- The reading side goes, and with it what it had not read. -/
def abandon (c : Channel) : Channel := { c with queue := [], abandoned := true }

def read? (c : Channel) : Option (Notice × Channel) :=
  match c.queue with
  | [] => none
  | n :: rest => some (n, { c with queue := rest })

theorem send_of_accepts {c : Channel} (h : c.accepts = true) (n : Notice) :
    c.send n = (true, { c with queue := c.queue ++ [n] }) := by simp [send, h]

theorem send_of_not_accepts {c : Channel} (h : c.accepts = false) (n : Notice) :
    c.send n = (false, c) := by simp [send, h]

end Channel

end Fleet.Feed
