import Fleet.Vm.Row

/-!
Where rows are kept, in the order they were inserted. A store either answers in that order, or keeps
times as text and answers in the order of the creation time's text; both refuse a second live row
for a user.
-/

namespace Fleet.Vm

inductive Keeping where
  /-- Rows as they are, in the order of arrival. -/
  | arrival
  /-- A table with a key, a unique index on live rows, and times as text. -/
  | table
  deriving DecidableEq, Repr, Inhabited

structure Store where
  keeping : Keeping
  rows : List Row := []
  deriving DecidableEq, Repr, Inhabited

namespace Store

/-- How a table holds a time. -/
def timeText (t : Instant) : String :=
  String.ofList (Instant.civilText ' ' t ++ ['+', '0', '0', ':', '0', '0'])

def notAfter (a b : Row) : Bool := decide (timeText a.createdAt ≤ timeText b.createdAt)

/-- The rows in the order of answers. -/
def listing (s : Store) : List Row :=
  match s.keeping with
  | .arrival => s.rows
  | .table => s.rows.mergeSort notAfter

def ofUser (userId : String) (r : Row) : Bool := r.userId == userId

def history (s : Store) (userId : String) : List Row := s.listing.filter (ofUser userId)

def latest? (s : Store) (userId : String) : Option Row := (s.history userId).getLast?

def byStatus (s : Store) (status : Status) : List Row :=
  s.listing.filter fun r => r.status == status

def hasLive (rows : List Row) (userId : String) : Bool :=
  rows.any fun r => ofUser userId r && r.isLive

def refused (userId : String) : Error :=
  .store s!"User {userId} already has a non-terminal VM instance"

def unknown (id : String) : Error := .store s!"VM instance {id} not found"

def clash : Error := .store "UNIQUE constraint failed: user_vm_instances.user_id"

/-- Whether a table takes a new row: its key is new, and it is no second live row. -/
def fits (rows : List Row) (r : Row) : Bool :=
  !(rows.any fun s => s.id == r.id) && !(r.isLive && hasLive rows r.userId)

def insert (s : Store) (r : Row) : Except Error Store :=
  let refuses := match s.keeping with
    | .arrival => hasLive s.rows r.userId
    | .table => !fits s.rows r
  if refuses then .error (refused r.userId) else .ok { s with rows := s.rows ++ [r] }

/-- Replaces the first row with the id of `r`. -/
def replace (r : Row) : List Row → Option (List Row)
  | [] => none
  | s :: rest => if s.id = r.id then some (r :: rest) else (replace r rest).map (s :: ·)

def find? (s : Store) (id : String) : Option Row := s.rows.find? fun r => r.id == id

/-- A table does not let the user and the creation time of a row change. -/
def kept (old new : Row) : Row := { new with userId := old.userId, createdAt := old.createdAt }

def update (s : Store) (r : Row) : Except Error Store :=
  match s.find? r.id with
  | none => .error (unknown r.id)
  | some old =>
    let new := match s.keeping with
      | .arrival => r
      | .table => kept old r
    let others := s.rows.filter fun t => t.id != r.id
    if s.keeping = .table ∧ new.isLive ∧ hasLive others new.userId then .error clash
    else match replace new s.rows with
      | some rows => .ok { s with rows := rows }
      | none => .error (unknown r.id)

end Store

end Fleet.Vm
