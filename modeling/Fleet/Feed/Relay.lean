import Fleet.Feed.Channel

/-!
Which browser connections listen to which session. Connections are kept by id, and beside them the
ids of each session; a connection that refuses a notice is closed and forgotten.
-/

namespace Fleet.Feed

/-- A browser connection: the session it listens to and the sink its notices go to. -/
structure Connection where
  id : String
  session : String
  sink : String
  deriving DecidableEq, Repr, Inhabited

/-- What can be done with sinks, over a state that they share. -/
structure Sinks (σ : Type) where
  /-- Offers a notice to a sink, which may refuse it. -/
  send : String → Notice → σ → Bool × σ
  close : String → σ → σ

structure Relay where
  connections : List Connection := []
  /-- The connection ids of each session that has any. -/
  sessions : List (String × List String) := []
  deriving DecidableEq, Repr, Inhabited

namespace Relay

def find? (r : Relay) (id : String) : Option Connection :=
  r.connections.find? fun c => c.id == id

def ids (r : Relay) (session : String) : List String := (r.sessions.lookup session).getD []

def count (r : Relay) : Nat := r.connections.length

def has (r : Relay) (session : String) : Bool := !(r.ids session).isEmpty

/-- Takes an id out of a session's ids. The last one takes the session along. -/
def detach (session id : String) : List (String × List String) → List (String × List String)
  | [] => []
  | (s, ids) :: rest =>
    if s = session then
      let left := ids.filter (· ≠ id)
      if left.isEmpty then rest else (s, left) :: rest
    else (s, ids) :: detach session id rest

def attach (session id : String) : List (String × List String) → List (String × List String)
  | [] => [(session, [id])]
  | (s, ids) :: rest =>
    if s = session then (s, if ids.contains id then ids else ids ++ [id]) :: rest
    else (s, ids) :: attach session id rest

/-- Forgets a connection. -/
def remove (r : Relay) (id : String) : Relay :=
  match r.find? id with
  | none => r
  | some c =>
    ⟨r.connections.filter fun d => d.id != id, detach c.session id r.sessions⟩

/-- Whether there was such a connection. -/
def unregister (r : Relay) (id : String) : Bool × Relay := ((r.find? id).isSome, r.remove id)

/-- An id that is already there listens to its new session alone. -/
def register (r : Relay) (c : Connection) : Relay :=
  let r := r.remove c.id
  ⟨r.connections ++ [c], attach c.session c.id r.sessions⟩

def targets (r : Relay) (session : String) : List Connection :=
  (r.ids session).filterMap r.find?

variable {σ : Type}

/-- Offers a notice to connections one by one and counts those that take it. -/
def offer (k : Sinks σ) (n : Notice) : List Connection → Relay → σ → Nat × Relay × σ
  | [], r, s => (0, r, s)
  | c :: rest, r, s =>
    match k.send c.sink n s with
    | (true, s) =>
      let (taken, r, s) := offer k n rest r s
      (taken + 1, r, s)
    | (false, s) => offer k n rest (r.remove c.id) (k.close c.sink s)

/-- Sends a notice to all connections of a session. -/
def forward (k : Sinks σ) (r : Relay) (session : String) (n : Notice) (s : σ) : Nat × Relay × σ :=
  offer k n (r.targets session) r s

/-- Forgets and closes all connections of a session. -/
def closeSession (k : Sinks σ) (r : Relay) (session : String) (s : σ) : Nat × Relay × σ :=
  let gone := r.targets session
  (gone.length, gone.foldl (fun r c => r.remove c.id) r,
    gone.foldl (fun s c => k.close c.sink s) s)

end Relay

end Fleet.Feed
