import Fleet.Feed.Relay

/-!
Sinks in memory: each is a channel, or takes all notices until it is told to refuse.
-/

namespace Fleet.Simulation

open Feed (Channel Notice Relay Sinks)

structure MemorySink where
  channel : Channel := {}
  /-- Whether the channel's own rules hold. -/
  strict : Bool
  refuses : Bool := false
  /-- How often it was closed. -/
  closes : Nat := 0
  deriving DecidableEq, Repr

/-- The relay and the sinks by name. -/
structure RelayRun where
  relay : Relay := {}
  sinks : List (String × MemorySink) := []
  deriving DecidableEq, Repr

namespace MemorySink

def offer (s : MemorySink) (n : Notice) : Bool × MemorySink :=
  if s.refuses then (false, s)
  else if s.strict then
    let (taken, c) := s.channel.send n
    (taken, { s with channel := c })
  else (true, { s with channel.queue := s.channel.queue ++ [n] })

def close (s : MemorySink) : MemorySink :=
  { s with channel := s.channel.close, closes := s.closes + 1 }

end MemorySink

def changeSink (name : String) (f : MemorySink → MemorySink) (ss : List (String × MemorySink)) :
    List (String × MemorySink) :=
  ss.map fun (k, s) => (k, if k = name then f s else s)

def memorySinks : Sinks (List (String × MemorySink)) where
  send name n ss :=
    match ss.lookup name with
    | some s => ((s.offer n).1, changeSink name (fun s => (s.offer n).2) ss)
    | none => (false, ss)
  close name ss := changeSink name MemorySink.close ss

namespace RelayRun

def change (r : RelayRun) (name : String) (f : MemorySink → MemorySink) : RelayRun :=
  { r with sinks := changeSink name f r.sinks }

/-- Registers a connection; its sink is made when it is first named. -/
def register (r : RelayRun) (c : Feed.Connection) (strict : Bool) : RelayRun :=
  let sinks := if (r.sinks.lookup c.sink).isSome then r.sinks
    else r.sinks ++ [(c.sink, { strict := strict })]
  ⟨r.relay.register c, sinks⟩

/-- Whether somebody reads from a channel. -/
def hasReader (r : RelayRun) (name : String) : Bool :=
  match r.sinks.lookup name with
  | some s => s.strict && !s.channel.abandoned
  | none => false

/-- The reader of a channel goes. Whether there was one. -/
def hangUp (r : RelayRun) (name : String) : Bool × RelayRun :=
  if r.hasReader name then (true, r.change name fun s => { s with channel := s.channel.abandon })
  else (false, r)

def forward (r : RelayRun) (session : String) (n : Notice) : Nat × RelayRun :=
  let (k, relay, sinks) := r.relay.forward memorySinks session n r.sinks
  (k, ⟨relay, sinks⟩)

def closeSession (r : RelayRun) (session : String) : Nat × RelayRun :=
  let (k, relay, sinks) := r.relay.closeSession memorySinks session r.sinks
  (k, ⟨relay, sinks⟩)

end RelayRun

end Fleet.Simulation
