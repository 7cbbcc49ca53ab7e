import Fleet.Proofs.Vm.Change

/-!
The operations one by one, on orderly worlds: each gives an answer, and what it does is a
course of revisions and at most one bootstrap for its user. Only a ticket may be refused, and then
nothing was written.
-/

namespace Fleet.Vm

open Work World

variable {p : Policy} {s : Surroundings} {w : World} {user : String} {r r' : Row}

theorem Work.rewrite_apply (hc : w.Calm) (hl : w.live? user = some r) (hid : r'.id = r.id) :
    Work.update r' w = (.ok (), w.put r') :=
  update_apply hc (hid ▸ hc.id_of_live? hl)

namespace Policy

theorem promote_apply (hc : w.Calm) (hl : w.live? user = some r) (now : Instant) :
    promote r now w = (.ok (.isReady (r.promote now)), w.put (r.promote now)) := by
  rw [promote]
  exact bind_of_ok (rewrite_apply hc hl rfl)

theorem launch_apply (hc : w.Calm) (hr : r ∈ w.store.rows) :
    ∃ o, p.launch s r w = (.ok o, (w.put (s.settle r)).launching (p.bootstrap s r)) := by
  unfold Policy.launch Surroundings.settle
  rw [bind_of_ok (record_apply w _)]
  cases s.launched with
  | ok _ => exact ⟨_, by rw [hc.put_self hr]; rfl⟩
  | error _ =>
    refine ⟨_, bind_of_ok (update_apply (hc.launching _) ?_)⟩
    exact List.mem_map.mpr ⟨r, hr, rfl⟩

theorem startFresh_course (ho : w.Orderly) (hf : s.freshId ∉ w.ids)
    (hn : w.live? user = none) (org : String) :
    ∃ o v, p.startFresh s user org w = (.ok o, v) ∧ Course p s user w v := by
  let r := Row.start s.freshId user org s.freshTicket s.now
  have hins : Work.insert r w = (.ok (), w.add r) := insert_apply ho.toCalm (ho.hasLive_eq hn)
  have hc : (w.add r).Calm := ho.toCalm.add hf
  obtain ⟨o, ho'⟩ := launch_apply (p := p) (s := s) (r := r) hc (by simp)
  refine ⟨o, _, ?_, .launched .refl (.opened org hn)⟩
  rw [add_put w (by simp) (by simpa [r, Row.start] using hf)] at ho'
  exact (bind_of_ok hins).trans ho'

theorem recover_course (ho : w.Orderly) (hl : w.live? user = some r)
    (hs : r.status = .disconnected) (force : Bool) :
    ∃ o v, p.recover s r force w = (.ok o, v) ∧ Course p s user w v := by
  unfold recover
  by_cases hmax : p.settings.maxAttempts ≤ r.attempts
  · simp only [hmax, ↓reduceIte]
    exact ⟨_, _, bind_of_ok (rewrite_apply ho.toCalm hl rfl),
      .quiet (.single ⟨hl, .exhausted hs hmax⟩)⟩
  simp only [hmax, ↓reduceIte]
  by_cases hwait : (!force && decide (p.cooldownLeft r s.now > 0)) = true
  · simp only [hwait, ↓reduceIte]
    exact ⟨_, _, rfl, .refl⟩
  simp only [hwait]
  have hup : Work.update (r.retry s.freshTicket s.now) w =
      (.ok (), w.put (r.retry s.freshTicket s.now)) := rewrite_apply ho.toCalm hl rfl
  have hmem : r.retry s.freshTicket s.now ∈ (w.put (r.retry s.freshTicket s.now)).store.rows :=
    List.mem_map.mpr ⟨r, (ho.mem_of_live? hl).1, by simp [Row.retry]⟩
  obtain ⟨o, ho'⟩ := launch_apply (p := p) (s := s) (ho.toCalm.put _) hmem
  refine ⟨o, _, ?_, .launched .refl (.reopened hl hs (by omega))⟩
  rw [put_put w (by simp)] at ho'
  exact (bind_of_ok hup).trans ho'

/-- A live row is disconnected in one way or another, and then goes the way of disconnected rows. -/
theorem disconnect_then_recover (ho : w.Orderly) (hl : w.live? user = some r) {r' : Row}
    (h : r.Revised p s.now r') (hs : r'.status = .disconnected) (force : Bool) :
    ∃ o v, (do Work.update r'; p.recover s r' force : Work Outcome) w = (.ok o, v) ∧
      Course p s user w v := by
  have hlive : (w.put r').live? user = some r' :=
    ho.live?_put hl h.id_eq h.userId_eq (by simp [Row.isLive, hs, Status.isTerminal])
  obtain ⟨o, v, hrun, hv⟩ := recover_course (p := p) (s := s)
    (ho.put hl h.id_eq h.userId_eq) hlive hs force
  exact ⟨o, v, (bind_of_ok (rewrite_apply ho.toCalm hl h.id_eq)).trans hrun, .head ⟨hl, h⟩ hv⟩

theorem promote_course (ho : w.Orderly) (hl : w.live? user = some r) :
    ∃ o v, promote r s.now w = (.ok o, v) ∧ Course p s user w v :=
  ⟨_, _, promote_apply ho.toCalm hl s.now, .quiet (.single ⟨hl, .promoted⟩)⟩

theorem answer_course (o : Outcome) :
    ∃ o' v, (pure o : Work Outcome) w = (.ok o', v) ∧ Course p s user w v :=
  ⟨o, w, rfl, .refl⟩

/-- A row whose bootstrap is under way is promoted, given up for lost, or left to wait. -/
theorem pending_course (ho : w.Orderly) (hl : w.live? user = some r)
    (hs : r.status.isPending = true) (wsReady : Bool) :
    ∃ o v, (if wsReady then promote r s.now
      else if p.settings.bootstrapTimeout ≤ r.msSinceBootstrap s.now then
        p.demoteAndRecover s { r.disconnect s.now with lastError := some Code.timedOut }
      else return .notReady r (some p.settings.readyRetry) : Work Outcome) w = (.ok o, v) ∧
      Course p s user w v := by
  cases wsReady with
  | true => exact promote_course ho hl
  | false =>
    by_cases hlate : p.settings.bootstrapTimeout ≤ r.msSinceBootstrap s.now
    · simp only [hlate, ↓reduceIte]
      exact disconnect_then_recover ho hl (.timedOut hs hlate) rfl false
    · simp only [hlate, ↓reduceIte]
      exact answer_course _

theorem ensure_course (ho : w.Orderly) (hf : s.freshId ∉ w.ids) (org : String) (wsReady : Bool) :
    ∃ o v, p.ensure s user org wsReady w = (.ok o, v) ∧ Course p s user w v := by
  unfold ensure
  rw [bind_of_ok (latest?_apply ho.toCalm user)]
  cases hlast : w.store.latest? user with
  | none => exact startFresh_course ho hf (by simp [World.live?, hlast]) org
  | some r =>
    have hlive : w.live? user = if r.status.isTerminal then none else some r := by
      rw [World.live?, hlast, Option.filter_some, Row.isLive]
      cases r.status.isTerminal <;> rfl
    cases hs : r.status <;> simp only [hs] at hlive ⊢
    case terminated => exact startFresh_course ho hf hlive org
    case failed =>
      split
      · exact answer_course _
      · split
        · exact answer_course _
        · exact startFresh_course ho hf hlive org
    case starting => exact pending_course ho hlive (by simp [hs, Status.isPending]) wsReady
    case provisioning => exact pending_course ho hlive (by simp [hs, Status.isPending]) wsReady
    case ready =>
      cases wsReady with
      | true => exact answer_course _
      | false => exact disconnect_then_recover ho hlive (.disconnected (by simp [hs])) rfl false
    case disconnected =>
      cases wsReady with
      | true => exact promote_course ho hlive
      | false => exact recover_course ho hlive hs false

theorem forceRebootstrap_course (ho : w.Orderly) (hf : s.freshId ∉ w.ids) (org : String) :
    ∃ o v, p.forceRebootstrap s user org w = (.ok o, v) ∧ Course p s user w v := by
  unfold forceRebootstrap
  rw [bind_of_ok (live?_apply ho.toCalm user)]
  cases hl : w.live? user with
  | none => exact startFresh_course ho hf hl org
  | some r =>
    by_cases hs : r.status = .disconnected
    · simp only [hs, ↓reduceIte]
      exact recover_course ho hl hs true
    · simp only [hs, ↓reduceIte]
      exact disconnect_then_recover ho hl (.disconnected hs) rfl true

end Policy

namespace Work

variable {now : Instant}

/-- A ticket is refused without a trace, or taken for the first time, or taken again while its row
is disconnected. -/
theorem consumeTicket_cases (hc : w.Calm) (now : Instant) (user ticket : String) :
    (∃ text, consumeTicket now user ticket w = (.error (.auth text), w)) ∨
    (∃ r, w.live? user = some r ∧ r.ticket = ticket ∧ r.ticketConsumedAt = none ∧
      consumeTicket now user ticket w = (.ok (r.consume now), w.put (r.consume now))) ∨
    (∃ r, w.live? user = some r ∧ r.ticket = ticket ∧ r.ticketConsumedAt.isSome = true ∧
      r.status = .disconnected ∧ consumeTicket now user ticket w = (.ok r, w)) := by
  unfold consumeTicket
  rw [bind_of_ok (live?_apply hc user)]
  cases hl : w.live? user with
  | none => exact .inl ⟨_, rfl⟩
  | some r =>
    by_cases hbad : (r.ticket.isEmpty || decide (r.ticket ≠ ticket)) = true
    · refine .inl ⟨"Connect ticket does not match", ?_⟩
      simp only [hbad, ↓reduceIte]
      exact bind_of_error (throw_apply _ w)
    have hticket : r.ticket = ticket := by
      simp only [Bool.or_eq_true, decide_eq_true_eq, not_or, not_not] at hbad
      exact hbad.2
    simp only [hbad]
    cases hused : r.ticketConsumedAt with
    | none =>
      refine .inr (.inl ⟨r, rfl, hticket, hused, ?_⟩)
      exact bind_of_ok (rewrite_apply hc hl rfl)
    | some at_ =>
      by_cases hs : r.status = .disconnected
      · refine .inr (.inr ⟨r, rfl, hticket, by simp [hused], hs, ?_⟩)
        simp only [hs, ↓reduceIte]
        rfl
      · refine .inl ⟨s!"Connect ticket already used (status: {r.status.name})", ?_⟩
        simp only [hs, ↓reduceIte]
        rfl

theorem markConnected_course (ho : w.Orderly) (user : String) :
    ∃ a v, markConnected s.now user w = (.ok a, v) ∧ Course p s user w v := by
  unfold markConnected
  rw [bind_of_ok (live?_apply ho.toCalm user)]
  cases hl : w.live? user with
  | none => exact ⟨_, w, rfl, .refl⟩
  | some r =>
    exact ⟨_, _, bind_of_ok (Policy.promote_apply ho.toCalm hl s.now),
      .quiet (.single ⟨hl, .promoted⟩)⟩

theorem markDisconnected_course (ho : w.Orderly) (user : String) :
    ∃ a v, markDisconnected s.now user w = (.ok a, v) ∧ Course p s user w v := by
  unfold markDisconnected
  rw [bind_of_ok (live?_apply ho.toCalm user)]
  cases hl : w.live? user with
  | none => exact ⟨_, w, rfl, .refl⟩
  | some r =>
    by_cases hs : r.status = .ready
    · simp only [hs, ↓reduceIte]
      exact ⟨_, _, bind_of_ok (rewrite_apply ho.toCalm hl rfl),
        .quiet (.single ⟨hl, .disconnected (by simp [hs])⟩)⟩
    · simp only [hs, ↓reduceIte]
      exact ⟨_, w, rfl, .refl⟩

theorem recordHeartbeat_course (ho : w.Orderly) (user : String) :
    ∃ v, recordHeartbeat s.now user w = (.ok (), v) ∧ Course p s user w v := by
  unfold recordHeartbeat
  rw [bind_of_ok (live?_apply ho.toCalm user)]
  cases hl : w.live? user with
  | none => exact ⟨w, rfl, .refl⟩
  | some r =>
    exact ⟨_, rewrite_apply ho.toCalm hl rfl, .quiet (.single ⟨hl, .beaten⟩)⟩

/-- A stale row that is still its user's ready row is disconnected, and nothing else happens. -/
theorem demoteStale_apply (ho : w.Orderly) (now : Instant) (candidate : Row) :
    ∃ b v, demoteStale now candidate w = (.ok b, v) ∧
      Revisions p now candidate.userId w v := by
  unfold demoteStale
  rw [bind_of_ok (live?_apply ho.toCalm candidate.userId)]
  cases hl : w.live? candidate.userId with
  | none => exact ⟨_, w, rfl, .refl⟩
  | some r =>
    by_cases hs : r.id = candidate.id ∧ r.status = .ready
    · simp only [hs, and_self, ↓reduceIte]
      exact ⟨_, _, bind_of_ok (rewrite_apply ho.toCalm hl rfl),
        .single ⟨hl, .disconnected (by simp [hs.2])⟩⟩
    · simp only [hs, ↓reduceIte]
      exact ⟨_, w, rfl, .refl⟩

theorem demoteAll_apply (ho : w.Orderly) (now : Instant) (rows : List Row) (n : Nat) :
    ∃ m v, demoteAll now rows n w = (.ok m, v) ∧ Sweeping p now w v := by
  induction rows generalizing w n with
  | nil => exact ⟨n, w, rfl, .refl⟩
  | cons r rest ih =>
    obtain ⟨b, u, hrun, hu⟩ := demoteStale_apply (p := p) ho now r
    have hstep : Sweeping p now w u :=
      Relation.ReflTransGen.mono (fun _ _ h => ⟨r.userId, h⟩) _ _ hu
    obtain ⟨m, v, hrest, hv⟩ := ih (ho.sweeping hstep) (if b then n + 1 else n)
    exact ⟨m, v, (bind_of_ok hrun).trans hrest, hstep.trans hv⟩

theorem sweep_apply (ho : w.Orderly) (now cutoff : Instant) :
    ∃ n v, sweep now cutoff w = (.ok n, v) ∧ Sweeping p now w v := by
  have hrows : staleRows cutoff w = (.ok ((w.store.byStatus .ready).filter
      fun r => decide (r.lastSeen < cutoff)), w) := by
    rw [staleRows, bind_of_ok (byStatus_apply ho.toCalm .ready)]
    rfl
  rw [sweep, bind_of_ok hrows]
  exact demoteAll_apply ho now _ 0

end Work

end Fleet.Vm
