import Fleet.Proofs.Time.Reading
import Fleet.Vm.Store

/-!
What a table holds of a row: texts for its status and its times, and for the rest what the row has. A row
whose times have a year of four digits is read back as it was written.
-/

namespace Fleet.Vm

structure Columns where
  id : String
  userId : String
  orgId : String
  status : String
  ticket : String
  ticketConsumedAt : Option String
  attempts : Nat
  lastBootstrapAt : Option String
  lastError : Option String
  lastHeartbeatAt : Option String
  disconnectedAt : Option String
  createdAt : String
  updatedAt : String
  deriving DecidableEq, Repr

/-- A row as it is written. -/
def Row.columns (r : Row) : Columns where
  id := r.id
  userId := r.userId
  orgId := r.orgId
  status := r.status.name
  ticket := r.ticket
  ticketConsumedAt := r.ticketConsumedAt.map Store.timeText
  attempts := r.attempts
  lastBootstrapAt := r.lastBootstrapAt.map Store.timeText
  lastError := r.lastError
  lastHeartbeatAt := r.lastHeartbeatAt.map Store.timeText
  disconnectedAt := r.disconnectedAt.map Store.timeText
  createdAt := Store.timeText r.createdAt
  updatedAt := Store.timeText r.updatedAt

namespace Columns

def time? (s : String) : Option Instant := (Instant.ofText s).toOption

/-- A column may be empty, but not hold something else than a time. -/
def timeOrNone? : Option String → Option (Option Instant)
  | none => some none
  | some s => (time? s).map some

/-- The row that is read, if its status is known and its times are times. -/
def row? (c : Columns) : Option Row := do
  let status ← Status.ofName? c.status
  let ticketConsumedAt ← timeOrNone? c.ticketConsumedAt
  let lastBootstrapAt ← timeOrNone? c.lastBootstrapAt
  let lastHeartbeatAt ← timeOrNone? c.lastHeartbeatAt
  let disconnectedAt ← timeOrNone? c.disconnectedAt
  let createdAt ← time? c.createdAt
  let updatedAt ← time? c.updatedAt
  return {
    id := c.id, userId := c.userId, orgId := c.orgId, status, ticket := c.ticket, ticketConsumedAt,
    attempts := c.attempts, lastBootstrapAt, lastError := c.lastError, lastHeartbeatAt, disconnectedAt,
    createdAt, updatedAt }

theorem time?_timeText {t : Instant} (ht : t.Stamped) : time? (Store.timeText t) = some t := by
  unfold time? Store.timeText Instant.ofText
  rw [String.toList_ofList, Instant.ofChars_civilText ht (.inr rfl) (.inr rfl)]
  rfl

theorem timeOrNone?_timeText {t? : Option Instant} (ht : ∀ t ∈ t?, t.Stamped) :
    timeOrNone? (t?.map Store.timeText) = some t? := by
  cases t? with
  | none => rfl
  | some t => simp [timeOrNone?, time?_timeText (ht t rfl)]

end Columns

theorem Status.ofName?_name (s : Status) : ofName? s.name = some s := by cases s <;> decide

/-- All times of a row. -/
def Row.times (r : Row) : List Instant :=
  r.ticketConsumedAt.toList ++ r.lastBootstrapAt.toList ++ r.lastHeartbeatAt.toList ++
    r.disconnectedAt.toList ++ [r.createdAt, r.updatedAt]

theorem Row.createdAt_mem (r : Row) : r.createdAt ∈ r.times := by simp [Row.times]

/-- A row is read back as it was written. -/
theorem Row.row?_columns {r : Row} (h : ∀ t ∈ r.times, t.Stamped) : r.columns.row? = some r := by
  simp only [Row.times, List.mem_append, Option.mem_toList, List.mem_cons, List.not_mem_nil, or_false,
    or_imp, forall_and] at h
  obtain ⟨⟨⟨⟨hconsumed, hbootstrap⟩, hheartbeat⟩, hdisconnected⟩, hcreated, hupdated⟩ := h
  unfold Columns.row? Row.columns
  simp only [Status.ofName?_name, Columns.timeOrNone?_timeText hconsumed,
    Columns.timeOrNone?_timeText hbootstrap, Columns.timeOrNone?_timeText hheartbeat,
    Columns.timeOrNone?_timeText hdisconnected, Columns.time?_timeText (hcreated _ rfl),
    Columns.time?_timeText (hupdated _ rfl)]
  rfl

end Fleet.Vm
