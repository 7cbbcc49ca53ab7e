import Fleet.Frame.Basic

/-!
Outcomes of answered calls, kept for a while so that a machine whose connection broke can ask for
them again. Entries stand oldest first; they go when they are too old or too many.
-/

namespace Fleet.Control

/-- The outcome of one user's call. -/
structure Kept where
  userId : String
  call : Call
  /-- When it was kept, in milliseconds. -/
  since : Nat
  outcome : Except Fault Json
  deriving Repr

structure Resume where
  ttl : Nat
  /-- A cache always has room for one entry. -/
  capacity : Nat
  /-- Oldest first. -/
  entries : List Kept := []
  deriving Repr

namespace Kept

def isFor (userId id : String) (k : Kept) : Bool := k.userId == userId && k.call.id == id

def resumed (k : Kept) : Resumed :=
  match k.outcome with
  | .ok v => ⟨k.call.id, .completed, some v, none⟩
  | .error f => ⟨k.call.id, .completed, none, some f⟩

end Kept

namespace Resume

def room (c : Resume) : Nat := max 1 c.capacity

def len (c : Resume) : Nat := c.entries.length

/-- Drops the entries at the front that have reached their age. -/
def prune (c : Resume) (now : Nat) : Resume :=
  { c with entries := c.entries.dropWhile fun k => decide (k.since + c.ttl ≤ now) }

/-- Keeps an outcome as the newest entry, in place of an older one of the same call. -/
def record (c : Resume) (now : Nat) (userId : String) (call : Call) (outcome : Except Fault Json) :
    Resume :=
  let c := c.prune now
  let others := c.entries.filter fun k => !k.isFor userId call.id
  let all := others ++ [⟨userId, call, now, outcome⟩]
  { c with entries := all.drop (all.length - c.room) }

def find? (c : Resume) (userId id : String) : Option Kept := c.entries.find? (Kept.isFor userId id)

def get (c : Resume) (now : Nat) (userId id : String) : Option Kept × Resume :=
  let c := c.prune now
  (c.find? userId id, c)

/-- One answer per id, in the order asked. -/
def resolve (c : Resume) (now : Nat) (userId : String) (ids : List String) :
    List Resumed × Resume :=
  let c := c.prune now
  (ids.map fun id => match c.find? userId id with
    | some k => k.resumed
    | none => .missing id, c)

end Resume

end Fleet.Control
