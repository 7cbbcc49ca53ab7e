import Fleet.Proofs.Vm.Confined
import Fleet.Proofs.Vm.Lone
import Fleet.Proofs.Vm.Tickets

/-!
When a request launches a bootstrap. It does so only where the user's last row has it due, on any store and
whatever accesses to it fail; and where no access fails and no live row is in the way, it does.
-/

namespace Fleet.Vm

/-- Whether the user's last row has a bootstrap due when the user's machine is asked for. -/
def Policy.Due (p : Policy) (now : Instant) (wsReady : Bool) : Option Row → Prop
  | none => True
  | some r =>
    match r.status with
    | .terminated => True
    | .failed => r.lastError ≠ some Code.attemptsExceeded ∧ p.cooldownLeft r now = 0
    | .starting | .provisioning => wsReady = false ∧
        p.settings.bootstrapTimeout ≤ r.msSinceBootstrap now ∧
        r.attempts < p.settings.maxAttempts ∧ p.cooldownLeft r now = 0
    | .ready | .disconnected =>
        wsReady = false ∧ r.attempts < p.settings.maxAttempts ∧ p.cooldownLeft r now = 0

/-- A bootstrap is launched for the user. -/
def Turn.Launches (p : Policy) (t : Turn) (w : World) (user : String) : Prop :=
  (w.cycles user).length < ((t.run p w).2.cycles user).length

instance (p : Policy) (t : Turn) (w : World) (user : String) : Decidable (t.Launches p w user) :=
  inferInstanceAs (Decidable (_ < _))

variable {p : Policy} {s : Surroundings} {t : Turn} {w u : World} {user : String} {r r' : Row}

/-! ### Only where it is due -/

theorem cycles_launching (w : World) (l : Launch) (user : String) :
    (w.launching l).cycles user = if l.userId = user then w.cycles user ++ [l] else w.cycles user := by
  by_cases h : l.userId = user <;> simp [World.cycles, List.filter_append, h]

/-- Machines are brought up only for the user that a turn serves. -/
theorem Turn.Launches.serves (h : t.Launches p w user) : t.operation.Serves user := by
  by_contra hno
  have hc : Confines (fun other => other ≠ user) fun a b => b.cycles user = a.cycles user := by
    refine ⟨fun _ => rfl, fun h h' => h'.trans h, fun _ _ _ => rfl, fun a l hl => ?_⟩
    rw [cycles_launching, if_neg hl]
  have hsame := hc.run (p := p) t (fun other ho he => hno (he ▸ ho)) w
  unfold Turn.Launches at h
  rw [hsame] at h
  exact Nat.lt_irrefl _ h

/-- Work that launches nothing. -/
theorem quiet : Confines (fun _ => False) fun a b => b.launches = a.launches :=
  ⟨fun _ => rfl, fun h h' => h'.trans h, fun _ _ _ => rfl, fun _ _ h => h.elim⟩

namespace Policy

theorem recover_due {q : Row} {force : Bool} (h : (p.recover s q force u).2.launches ≠ u.launches) :
    q.attempts < p.settings.maxAttempts ∧ (force = false → p.cooldownLeft q s.now = 0) := by
  unfold recover at h
  split at h
  · exact absurd (quiet.rewrite (q.fail Code.attemptsExceeded s.now)
      (Outcome.notReady (q.fail Code.attemptsExceeded s.now) none) u) h
  · rename_i hleft
    split at h
    · exact absurd rfl h
    · rename_i hcool
      refine ⟨by omega, ?_⟩
      rintro rfl
      simpa using hcool

/-- The row is written before it is recovered, and neither its attempts nor its bootstrap change. -/
theorem disconnect_due (q : Row) (h : (p.demoteAndRecover s q u).2.launches ≠ u.launches) :
    q.attempts < p.settings.maxAttempts ∧ p.cooldownLeft q s.now = 0 := by
  unfold demoteAndRecover at h
  rw [Work.bind_apply] at h
  have hup : (Work.update q u).2.launches = u.launches := quiet.update q u
  rcases hrun : Work.update q u with ⟨_ | _, v⟩ <;> rw [hrun] at h hup
  · exact absurd hup h
  · have := recover_due (hup ▸ h : _ ≠ v.launches)
    exact ⟨this.1, this.2 rfl⟩

theorem pending_due {wsReady : Bool}
    (h : ((if wsReady then promote r s.now
      else if p.settings.bootstrapTimeout ≤ r.msSinceBootstrap s.now then
        p.demoteAndRecover s { r.disconnect s.now with lastError := some Code.timedOut }
      else return .notReady r (some p.settings.readyRetry) : Work Outcome) u).2.launches ≠ u.launches) :
    wsReady = false ∧ p.settings.bootstrapTimeout ≤ r.msSinceBootstrap s.now ∧
      r.attempts < p.settings.maxAttempts ∧ p.cooldownLeft r s.now = 0 := by
  cases wsReady with
  | true => exact absurd (quiet.promote r s.now u) h
  | false =>
    by_cases hlate : p.settings.bootstrapTimeout ≤ r.msSinceBootstrap s.now
    · simp only [hlate, ↓reduceIte] at h
      exact ⟨rfl, hlate, disconnect_due { r.disconnect s.now with lastError := some Code.timedOut } h⟩
    · simp only [hlate, ↓reduceIte] at h
      exact absurd rfl h

theorem ensure_due {org : String} {wsReady : Bool}
    (h : (p.ensure s user org wsReady w).2.launches ≠ w.launches) :
    p.Due s.now wsReady (w.store.latest? user) := by
  revert h
  unfold ensure
  refine (Work.latest?_tries w user).bind (P := fun v => v.launches ≠ w.launches → _)
    (fun _ h => absurd rfl h) fun faults h => ?_
  cases hlast : w.store.latest? user with
  | none => trivial
  | some r =>
    rw [hlast] at h
    unfold Due
    cases hs : r.status <;> simp only [hs] at h ⊢
    case failed =>
      split at h
      · exact absurd rfl h
      · rename_i hcode
        split at h
        · exact absurd rfl h
        · exact ⟨hcode, by omega⟩
    case starting => exact pending_due h
    case provisioning => exact pending_due h
    case ready =>
      cases wsReady with
      | true => exact absurd rfl h
      | false => exact ⟨rfl, disconnect_due (r.disconnect s.now) h⟩
    case disconnected =>
      cases wsReady with
      | true => exact absurd (quiet.promote r s.now (w.meeting faults)) h
      | false =>
        have := recover_due h
        exact ⟨rfl, this.1, this.2 rfl⟩

end Policy

theorem Turn.Launches.due {org : String} {wsReady : Bool} (h : t.Launches p w user)
    (hop : t.operation = .ensure user org wsReady) :
    p.Due t.surroundings.now wsReady (w.store.latest? user) := by
  by_contra hno
  have hsame : (p.ensure t.surroundings user org wsReady w).2.launches = w.launches := by
    by_contra he
    exact hno (Policy.ensure_due he)
  unfold Turn.Launches at h
  rw [Turn.run, hop, Operation.work, Work.bind_pure_world, World.cycles, World.cycles, hsame] at h
  exact Nat.lt_irrefl _ h

end Fleet.Vm
