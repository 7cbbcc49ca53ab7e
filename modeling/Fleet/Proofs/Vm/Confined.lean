import Fleet.Proofs.Vm.Runs

/-!
What no operation goes beyond, on any store and whatever accesses to it fail. An operation is made of
accesses to the store and of launches for the user it was asked for; so what these keep, a turn keeps.
-/

namespace Fleet.Vm

/-- Kept by every access to a store, and by every launch for a user who may get one. -/
structure Confines (may : String → Prop) (R : World → World → Prop) : Prop where
  refl : ∀ w, R w w
  trans : ∀ {u v w}, R u v → R v w → R u w
  access : ∀ (w : World) (s : Store), s.keeping = w.store.keeping →
    R w { w with store := s, faults := w.faults.tail }
  record : ∀ (w : World) (l : Launch), may l.userId → R w (w.launching l)

/-- Whose machines an operation may bring up. -/
def Operation.Serves : Operation → String → Prop
  | .ensure user _ _, other => user = other
  | .force user _, other => user = other
  | _, _ => False

namespace Work

variable {α β : Type} {R : World → World → Prop} {may : String → Prop} {x : Work α}

def Within (R : World → World → Prop) (x : Work α) : Prop := ∀ w, R w (x w).2

/-- What follows an answer matters only for answers that are given. -/
theorem Within.bind {f : α → Work β} (h : Confines may R) (hx : x.Within R)
    (hf : ∀ a, (∃ w, (x w).1 = .ok a) → (f a).Within R) : (x >>= f).Within R := by
  intro w
  have hw := hx w
  rw [bind_apply]
  rcases hrun : x w with ⟨_ | a, v⟩ <;> rw [hrun] at hw
  · exact hw
  · exact h.trans hw (hf a ⟨w, by rw [hrun]⟩ v)

end Work

namespace Confines

open Work

variable {R : World → World → Prop} {may : String → Prop} {α β : Type}

theorem answer (h : Confines may R) (a : α) : (pure a : Work α).Within R := h.refl

theorem refusal (h : Confines may R) (e : Error) : (throw e : Work α).Within R := h.refl

theorem map (h : Confines may R) {x : Work α} (hx : x.Within R) (f : α → β) :
    (do return f (← x) : Work β).Within R :=
  hx.bind h fun _ _ => h.answer _

theorem accessed (h : Confines may R) {f : Store → Except Error (α × Store)}
    (hf : ∀ s a s', f s = .ok (a, s') → s'.keeping = s.keeping) : (Work.access f).Within R := by
  intro w
  have hstay : R w { w with faults := w.faults.tail } := h.access w w.store rfl
  have hgo {a : α} {s : Store} (hs : f w.store = .ok (a, s)) :
      R w { w with store := s, faults := w.faults.tail } := h.access w s (hf _ a s hs)
  obtain ⟨store, launches, faults⟩ := w
  unfold Work.access
  rcases faults with _ | ⟨_ | e, rest⟩
  · cases hs : f store <;> simp only [hs]
    · exact hstay
    · exact hgo hs
  · cases hs : f store <;> simp only [hs]
    · exact hstay
    · exact hgo hs
  · exact hstay

theorem written (h : Confines may R) {f : Store → Except Error Store}
    (hf : ∀ s s', f s = .ok s' → s'.keeping = s.keeping) :
    (Work.access fun s => (f s).map ((), ·)).Within R := by
  refine h.accessed fun s a s' he => ?_
  cases hs : f s with
  | error e =>
    rw [hs] at he
    cases he
  | ok u =>
    rw [hs] at he
    cases he
    exact hf s _ hs

theorem latest? (h : Confines may R) (user : String) : (Work.latest? user).Within R :=
  h.accessed fun _ _ _ he => by cases he; rfl

theorem byStatus (h : Confines may R) (status : Status) : (Work.byStatus status).Within R :=
  h.accessed fun _ _ _ he => by cases he; rfl

theorem insert (h : Confines may R) (r : Row) : (Work.insert r).Within R := by
  refine h.written fun s s' he => ?_
  obtain ⟨keeping, rows⟩ := s
  unfold Store.insert at he
  cases keeping <;> dsimp only at he <;> split at he
  all_goals cases he
  all_goals rfl

theorem update (h : Confines may R) (r : Row) : (Work.update r).Within R := by
  refine h.written fun s s' he => ?_
  unfold Store.update at he
  dsimp only at he
  repeat' split at he
  all_goals cases he
  all_goals rfl

/-- A write that ends in an answer. -/
theorem rewrite (h : Confines may R) (r : Row) (a : α) :
    (do Work.update r; return a : Work α).Within R :=
  (h.update r).bind h fun _ _ => h.answer a

theorem live? (h : Confines may R) (user : String) : (Work.live? user).Within R :=
  h.map (h.latest? user) _

/-- Rows that are read as a user's are that user's. -/
theorem userId_of_read {user : String} {r : Row}
    (h : ∃ w, (Work.latest? user w).1 = .ok (some r)) : r.userId = user := by
  obtain ⟨⟨store, launches, faults⟩, h⟩ := h
  have hr : store.latest? user = some r := by
    unfold Work.latest? Work.access at h
    rcases faults with _ | ⟨_ | e, rest⟩
    · exact Except.ok.inj h
    · exact Except.ok.inj h
    · cases h
  exact World.userId_of_latest? (w := ⟨store, launches, faults⟩) hr

theorem userId_of_live {user : String} {r : Row}
    (h : ∃ w, (Work.live? user w).1 = .ok (some r)) : r.userId = user := by
  obtain ⟨w, h⟩ := h
  rw [Work.live?, bind_apply] at h
  rcases hrun : Work.latest? user w with ⟨_ | q, v⟩ <;> rw [hrun] at h
  · cases h
  · have hq : q.filter Row.isLive = some r := Except.ok.inj h
    obtain ⟨rfl, -⟩ := Option.filter_eq_some_iff.mp hq
    exact userId_of_read ⟨w, by rw [hrun]⟩

/-! ### Operations -/

section Operations

variable {p : Policy} {s : Surroundings} {user : String} {r : Row}

theorem promote (h : Confines may R) (r : Row) (now : Instant) : (Policy.promote r now).Within R :=
  h.rewrite _ _

theorem launch (h : Confines may R) (hr : may r.userId) : (p.launch s r).Within R := by
  refine Within.bind (x := Work.record _) h (fun w => h.record w _ hr) fun _ _ => ?_
  split
  · exact h.answer _
  · exact h.rewrite _ _

theorem startFresh (h : Confines may R) (hu : may user) (org : String) :
    (p.startFresh s user org).Within R :=
  (h.insert _).bind h fun _ _ => h.launch hu

theorem recover (h : Confines may R) (hr : may r.userId) (force : Bool) :
    (p.recover s r force).Within R := by
  unfold Policy.recover
  split
  · exact h.rewrite _ _
  · split
    · exact h.answer _
    · exact (h.update _).bind h fun _ _ => h.launch hr

theorem updateThenRecover (h : Confines may R) (r : Row) (hr : may r.userId) (force : Bool) :
    (do Work.update r; p.recover s r force : Work Outcome).Within R :=
  (h.update r).bind h fun _ _ => h.recover hr force

theorem ensure (h : Confines may R) (hu : may user) (org : String) (wsReady : Bool) :
    (p.ensure s user org wsReady).Within R := by
  refine (h.latest? user).bind h fun r? hread => ?_
  cases r? with
  | none => exact h.startFresh hu org
  | some r =>
    have hr : may r.userId := (userId_of_read hread).symm ▸ hu
    have pending : (if wsReady then Policy.promote r s.now
        else if p.settings.bootstrapTimeout ≤ r.msSinceBootstrap s.now then
          p.demoteAndRecover s { r.disconnect s.now with lastError := some Code.timedOut }
        else return .notReady r (some p.settings.readyRetry) : Work Outcome).Within R := by
      split
      · exact h.promote _ _
      · split
        · exact h.updateThenRecover { r.disconnect s.now with lastError := some Code.timedOut } hr false
        · exact h.answer _
    cases hs : r.status <;> simp only [hs]
    case terminated => exact h.startFresh hu org
    case failed =>
      split
      · exact h.answer _
      · split
        · exact h.answer _
        · exact h.startFresh hu org
    case starting => exact pending
    case provisioning => exact pending
    case ready =>
      split
      · exact h.answer _
      · exact h.updateThenRecover (r.disconnect s.now) hr false
    case disconnected =>
      split
      · exact h.promote _ _
      · exact h.recover hr false

theorem forceRebootstrap (h : Confines may R) (hu : may user) (org : String) :
    (p.forceRebootstrap s user org).Within R := by
  refine (h.live? user).bind h fun r? hread => ?_
  cases r? with
  | none => exact h.startFresh hu org
  | some r =>
    have hr : may r.userId := (userId_of_live hread).symm ▸ hu
    dsimp only
    split
    · exact h.recover hr true
    · exact h.updateThenRecover (r.disconnect s.now) hr true

variable {now : Instant}

theorem consumeTicket (h : Confines may R) (user ticket : String) :
    (Work.consumeTicket now user ticket).Within R := by
  refine (h.live? user).bind h fun r? _ => ?_
  cases r? with
  | none => exact h.refusal _
  | some r =>
    dsimp only
    split
    · exact h.refusal _
    · cases r.ticketConsumedAt with
      | none => exact h.rewrite _ _
      | some _ =>
        change Within R (if r.status = .disconnected then return r
          else throw (.auth s!"Connect ticket already used (status: {r.status.name})") : Work Row)
        split
        · exact h.answer _
        · exact h.refusal _

theorem markConnected (h : Confines may R) (user : String) :
    (Work.markConnected now user).Within R := by
  refine (h.live? user).bind h fun r? _ => ?_
  cases r? with
  | none => exact h.answer _
  | some r => exact h.map (h.promote r now) _

theorem markDisconnected (h : Confines may R) (user : String) :
    (Work.markDisconnected now user).Within R := by
  refine (h.live? user).bind h fun r? _ => ?_
  cases r? with
  | none => exact h.answer _
  | some r =>
    dsimp only
    split
    · exact h.rewrite _ _
    · exact h.answer _

theorem recordHeartbeat (h : Confines may R) (user : String) :
    (Work.recordHeartbeat now user).Within R := by
  refine (h.live? user).bind h fun r? _ => ?_
  cases r? with
  | none => exact h.answer _
  | some r => exact h.update _

theorem demoteStale (h : Confines may R) (candidate : Row) :
    (Work.demoteStale now candidate).Within R := by
  refine (h.live? _).bind h fun r? _ => ?_
  cases r? with
  | none => exact h.answer _
  | some r =>
    dsimp only
    split
    · exact h.rewrite _ _
    · exact h.answer _

theorem demoteAll (h : Confines may R) (rows : List Row) (n : Nat) :
    (Work.demoteAll now rows n).Within R := by
  induction rows generalizing n with
  | nil => exact h.answer n
  | cons r rest ih => exact (h.demoteStale r).bind h fun _ _ => ih _

theorem sweep (h : Confines may R) (cutoff : Instant) : (Work.sweep now cutoff).Within R :=
  (h.map (h.byStatus _) _).bind h fun _ _ => h.demoteAll _ 0

end Operations

/-- A turn keeps what accesses keep, and launches for the users it serves. -/
theorem run {p : Policy} (h : Confines may R) (t : Turn) (ht : ∀ user, t.operation.Serves user → may user)
    (w : World) : R w (t.run p w).2 := by
  unfold Turn.run Operation.work
  cases hop : t.operation with
  | ensure user org wsReady =>
    exact h.map (h.ensure (ht user (by simp [hop, Operation.Serves])) org wsReady) _ w
  | force user org =>
    exact h.map (h.forceRebootstrap (ht user (by simp [hop, Operation.Serves])) org) _ w
  | consume user ticket => exact h.map (h.consumeTicket user ticket) _ w
  | connected user => exact h.map (h.markConnected user) _ w
  | disconnected user => exact h.map (h.markDisconnected user) _ w
  | heartbeat user => exact h.map (h.recordHeartbeat user) _ w
  | sweep timeoutMs =>
    cases hcut : Work.cutoff? t.surroundings.now timeoutMs with
    | none =>
      simp only [hcut]
      exact h.refl w
    | some cutoff =>
      simp only [hcut]
      exact h.map (h.sweep cutoff) _ w

end Confines

/-- Where no access has failed so far, none fails. -/
theorem faultless : Confines (fun _ => True) fun a b => a.faults = [] → b.faults = [] :=
  ⟨fun _ h => h, fun h h' hw => h' (h hw), fun _ _ _ h => by simp [h], fun _ _ _ h => h⟩

namespace Turn

variable {p : Policy} (t : Turn) {w : World} {user : String}

theorem keeping_eq (p : Policy) (w : World) : (t.run p w).2.store.keeping = w.store.keeping := by
  have h : Confines (fun _ => True) fun a b => b.store.keeping = a.store.keeping :=
    ⟨fun _ => rfl, fun h h' => h'.trans h, fun _ _ h => h, fun _ _ _ => rfl⟩
  exact h.run t (fun _ _ => trivial) w

theorem faults_eq (p : Policy) (hw : w.faults = []) : (t.run p w).2.faults = [] :=
  faultless.run t (fun _ _ => trivial) w hw

end Turn

end Fleet.Vm
