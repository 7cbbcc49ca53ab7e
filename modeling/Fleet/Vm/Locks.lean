/-!
One lock per user, made when it is first wanted and dropped by one who has held it, if nobody else refers to it by
then. Tasks get a lock in the order in which they asked. Asking and letting go each have several steps, between
which other tasks may move, and a task that does not hold the lock yet may be dropped.
-/

namespace Fleet.Vm

/-- A lock: whose turn it is, and who waits in turn. -/
structure Lock where
  holder : Option Nat := none
  waiting : List Nat := []
  deriving DecidableEq, Repr, Inhabited

namespace Lock

/-- A task has its turn at once or waits. -/
def queue (task : Nat) (l : Lock) : Lock :=
  match l.holder with
  | none => { l with holder := some task }
  | some _ => { l with waiting := l.waiting ++ [task] }

/-- Hands the lock to the task that waits longest. -/
def pass (l : Lock) : Lock :=
  match l.waiting with
  | [] => { l with holder := none }
  | t :: rest => { holder := some t, waiting := rest }

/-- A task gives up its place, and its turn if it was handed the lock. -/
def withdraw (task : Nat) (l : Lock) : Lock :=
  if l.holder = some task then l.pass else { l with waiting := l.waiting.filter (· ≠ task) }

end Lock

/-- How far a task is with a lock. -/
inductive Phase where
  /-- It refers to the lock and has not asked for its turn. -/
  | asking
  | waiting
  | holding
  /-- It has let go of the lock and still refers to it. -/
  | parting
  /-- It refers to the lock no more and has still to look whether anybody does. -/
  | leaving
  /-- It was dropped before it held the lock, and still refers to it. -/
  | withdrawn
  deriving DecidableEq, Repr

/-- Whether a task in this phase counts as one who refers to its lock. -/
def Phase.refers : Phase → Bool
  | .leaving => false
  | _ => true

/-- A task that is busy with a user's lock. -/
structure Task where
  id : Nat
  user : String
  lock : Nat
  phase : Phase
  deriving DecidableEq, Repr

/-- What a task does about a user's lock. -/
inductive Act where
  /-- Finds or makes the user's lock and refers to it. -/
  | refer
  | queue
  /-- Sees that its turn has come. -/
  | notice
  | unlock
  /-- Refers to the lock no more. -/
  | part
  /-- Drops the user's lock if nobody refers to it. -/
  | dismiss
  /-- Is dropped, and gives up its place. -/
  | withdraw
  /-- Refers to the lock no more, and leaves it where it is. -/
  | forsake
  deriving DecidableEq, Repr

/-- A task's step about a user's lock. -/
structure Move where
  task : Nat
  user : String
  act : Act
  deriving DecidableEq, Repr

/-- The locks by number, the numbers of those in use by user, and the tasks that are busy with one. -/
structure Locks where
  made : List Lock := []
  entries : List (String × Nat) := []
  tasks : List Task := []
  deriving DecidableEq, Repr, Inhabited

namespace Locks

def count (ls : Locks) : Nat := ls.entries.length

def task? (ls : Locks) (id : Nat) : Option Task := ls.tasks.find? (·.id = id)

def lock (ls : Locks) (n : Nat) : Lock := ls.made[n]?.getD {}

/-- Whether anybody refers to this lock. -/
def shared (ls : Locks) (n : Nat) : Bool := ls.tasks.any fun t => t.phase.refers && t.lock = n

/-- A task changes its lock and gets on. -/
def advance (ls : Locks) (t : Task) (f : Lock → Lock) (phase : Phase) : Locks :=
  { ls with
    made := ls.made.modify t.lock f
    tasks := ls.tasks.map fun u => if u.id = t.id then { u with phase } else u }

def forget (ls : Locks) (t : Task) : Locks := { ls with tasks := ls.tasks.filter (·.id ≠ t.id) }

def refer (ls : Locks) (user : String) (id : Nat) : Locks :=
  match ls.entries.lookup user with
  | some n => { ls with tasks := ⟨id, user, n, .asking⟩ :: ls.tasks }
  | none =>
    { made := ls.made ++ [{}]
      entries := (user, ls.made.length) :: ls.entries
      tasks := ⟨id, user, ls.made.length, .asking⟩ :: ls.tasks }

def queue (ls : Locks) (t : Task) : Locks :=
  let phase := match (ls.lock t.lock).holder with
    | none => .holding
    | some _ => .waiting
  ls.advance t (.queue t.id) phase

/-- Drops the user's lock unless somebody refers to it. -/
def clear (ls : Locks) (user : String) : Locks :=
  match ls.entries.lookup user with
  | some n => if ls.shared n then ls else { ls with entries := ls.entries.filter (·.1 ≠ user) }
  | none => ls

/-- A step, if the task is where it can take it. -/
def step? (ls : Locks) (m : Move) : Option Locks :=
  match ls.task? m.task with
  | none => if m.act = .refer then some (ls.refer m.user m.task) else none
  | some t =>
    if t.user ≠ m.user then none
    else match m.act, t.phase with
      | .queue, .asking => some (ls.queue t)
      | .notice, .waiting => if (ls.lock t.lock).holder = some t.id then some (ls.advance t id .holding) else none
      | .unlock, .holding => some (ls.advance t .pass .parting)
      | .part, .parting => some (ls.advance t id .leaving)
      | .dismiss, .leaving => some ((ls.clear t.user).forget t)
      | .withdraw, .asking | .withdraw, .waiting => some (ls.advance t (.withdraw t.id) .withdrawn)
      | .forsake, .withdrawn => some (ls.forget t)
      | _, _ => none

def run (ls : Locks) (moves : List Move) : Option Locks := moves.foldlM step? ls

/-- A task asks for a lock that nobody has. -/
def request (ls : Locks) (user : String) (task : Nat) : Locks :=
  (ls.run [⟨task, user, .refer⟩, ⟨task, user, .queue⟩]).getD ls

/-- A task lets go of the lock it has. -/
def release (ls : Locks) (user : String) (task : Nat) : Locks :=
  (ls.run [⟨task, user, .unlock⟩, ⟨task, user, .part⟩, ⟨task, user, .dismiss⟩]).getD ls

end Locks

end Fleet.Vm
