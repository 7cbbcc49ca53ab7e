import Fleet.Proofs.Vm.Operations

/-!
Runs of the scheduler: operations in any order, each with a clock, an id, a ticket and a launcher's
answer of its own, from an empty store. One operation is a course for its user or a sweep.
-/

namespace Fleet.Vm

inductive Operation where
  | ensure (user org : String) (wsReady : Bool)
  | force (user org : String)
  | consume (user ticket : String)
  | connected (user : String)
  | disconnected (user : String)
  | heartbeat (user : String)
  | sweep (timeoutMs : Nat)
  deriving DecidableEq, Repr

inductive Answer where
  | outcome (o : Outcome)
  | row (r : Row)
  | last (r : Option Row)
  | done
  | count (n : Nat)
  /-- A cutoff outside the calendar ends a sweep before it reads a row. -/
  | broken
  deriving DecidableEq, Repr

def Operation.work (p : Policy) (s : Surroundings) : Operation → Work Answer
  | .ensure user org wsReady => do return .outcome (← p.ensure s user org wsReady)
  | .force user org => do return .outcome (← p.forceRebootstrap s user org)
  | .consume user ticket => do return .row (← Work.consumeTicket s.now user ticket)
  | .connected user => do return .last (← Work.markConnected s.now user)
  | .disconnected user => do return .last (← Work.markDisconnected s.now user)
  | .heartbeat user => do
    Work.recordHeartbeat s.now user
    return .done
  | .sweep timeoutMs =>
    match Work.cutoff? s.now timeoutMs with
    | some cutoff => do return .count (← Work.sweep s.now cutoff)
    | none => return .broken

/-- One operation and what it finds around it. -/
structure Turn where
  surroundings : Surroundings
  operation : Operation

namespace Turn

def freshId (t : Turn) : String := t.surroundings.freshId

def freshTicket (t : Turn) : String := t.surroundings.freshTicket

def run (p : Policy) (t : Turn) (w : World) : Except Error Answer × World :=
  t.operation.work p t.surroundings w

end Turn

/-- Takes turns one after the other; their answers, and the world after the last. -/
def play (p : Policy) : List Turn → World → List (Except Error Answer) × World
  | [], w => ([], w)
  | t :: rest, w =>
    let (answers, v) := play p rest (t.run p w).2
    ((t.run p w).1 :: answers, v)

theorem play_append (p : Policy) (early late : List Turn) (w : World) :
    play p (early ++ late) w = ((play p early w).1 ++ (play p late (play p early w).2).1,
      (play p late (play p early w).2).2) := by
  induction early generalizing w with
  | nil => rfl
  | cons t rest ih => simp [play, ih]

/-- What holds of the turns to come and the world, and every turn hands on, holds along a run. -/
theorem play_leads {p : Policy} {H : List Turn → World → Prop} {early late : List Turn} {w : World}
    (step : ∀ {t rest a}, H (t :: rest) a → H rest (t.run p a).2) (h : H (early ++ late) w) :
    H late (play p early w).2 := by
  induction early generalizing w with
  | nil => exact h
  | cons t rest ih => exact ih (step h)

/-- No rows yet, kept as they arrive, by a store that does not fail. -/
def World.empty : World := { store := { keeping := .arrival } }

/-- What one operation does. -/
inductive Effect (p : Policy) (s : Surroundings) (w : World) : World → Prop
  | course {v : World} (user : String) (h : Course p s user w v) : Effect p s w v
  | sweep {v : World} (h : Sweeping p s.now w v) : Effect p s w v

variable {p : Policy} {s : Surroundings} {w v : World}

/-- An operation answers, or refuses a ticket and leaves everything as it was. -/
theorem Operation.work_cases (ho : w.Orderly) (hf : s.freshId ∉ w.ids) (op : Operation) :
    (∃ a v, op.work p s w = (.ok a, v) ∧ Effect p s w v) ∨
      (∃ text, op.work p s w = (.error (.auth text), w)) := by
  cases op with
  | ensure user org wsReady =>
    obtain ⟨o, v, hrun, hv⟩ := p.ensure_course ho hf org wsReady
    exact .inl ⟨_, v, Work.bind_of_ok hrun, .course user hv⟩
  | force user org =>
    obtain ⟨o, v, hrun, hv⟩ := p.forceRebootstrap_course ho hf org
    exact .inl ⟨_, v, Work.bind_of_ok hrun, .course user hv⟩
  | consume user ticket =>
    rcases Work.consumeTicket_cases ho.toCalm s.now user ticket with
      ⟨text, hrun⟩ | ⟨r, hl, _, hnew, hrun⟩ | ⟨r, _, _, _, _, hrun⟩
    · exact .inr ⟨text, Work.bind_of_error hrun⟩
    · exact .inl ⟨_, _, Work.bind_of_ok hrun, .course user (.quiet (.single ⟨hl, .consumed hnew⟩))⟩
    · exact .inl ⟨_, _, Work.bind_of_ok hrun, .course user .refl⟩
  | connected user =>
    obtain ⟨a, v, hrun, hv⟩ := Work.markConnected_course (p := p) (s := s) ho user
    exact .inl ⟨_, v, Work.bind_of_ok hrun, .course user hv⟩
  | disconnected user =>
    obtain ⟨a, v, hrun, hv⟩ := Work.markDisconnected_course (p := p) (s := s) ho user
    exact .inl ⟨_, v, Work.bind_of_ok hrun, .course user hv⟩
  | heartbeat user =>
    obtain ⟨v, hrun, hv⟩ := Work.recordHeartbeat_course (p := p) (s := s) ho user
    exact .inl ⟨_, v, Work.bind_of_ok hrun, .course user hv⟩
  | sweep timeoutMs =>
    cases hcut : Work.cutoff? s.now timeoutMs with
    | none =>
      simp only [work, hcut]
      exact .inl ⟨_, w, rfl, .sweep .refl⟩
    | some cutoff =>
      obtain ⟨n, v, hrun, hv⟩ := Work.sweep_apply (p := p) ho s.now cutoff
      simp only [work, hcut]
      exact .inl ⟨_, v, Work.bind_of_ok hrun, .sweep hv⟩

theorem Turn.effect (ho : w.Orderly) (t : Turn) (hf : t.freshId ∉ w.ids) :
    Effect p t.surroundings w (t.run p w).2 := by
  rcases t.operation.work_cases (p := p) ho hf with ⟨a, v, hrun, hv⟩ | ⟨text, hrun⟩
  · rw [run, hrun]
    exact hv
  · rw [run, hrun]
    exact .sweep .refl

/-- What revisions keep holds before the bootstrap, and what the bootstrap makes of it at the end. -/
theorem Effect.leads {I J : World → Prop} (h : Effect p s w v) (hw : I w)
    (hrev : ∀ {user a b}, I a → Revision p s.now user a b → I b)
    (hboot : ∀ {user a b}, I a → Bootstrap p s user a b → J b)
    (hquiet : ∀ {a}, I a → J a) : J v := by
  cases h with
  | course user h => exact h.leads hw hrev hboot hquiet
  | sweep h =>
    apply hquiet
    induction h with
    | refl => exact hw
    | tail _ h ih =>
      obtain ⟨_, h⟩ := h
      exact hrev ih h

end Fleet.Vm
