import Fleet.Proofs.Vm.Storing

/-!
Ready rows are their users' last ones, on either kind of store, whatever accesses to it fail and wherever its
clock goes. A row becomes ready only as the last one that is answered for its user, and while it is live no other
row of that user is taken in.
-/

namespace Fleet.Vm

open Work World

/-- No id twice, each ready row is answered as the last one of its user, and rows bear only times that were
shown. -/
structure World.Foremost (shown : Instant → Prop) (w : World) : Prop where
  distinct : w.ids.Nodup
  last : ∀ r ∈ w.store.rows, r.status = .ready → w.store.latest? r.userId = some r
  times : ∀ r ∈ w.store.rows, ∀ t ∈ r.times, shown t

namespace World.Foremost

variable {shown : Instant → Prop} {p : Policy} {s : Surroundings} {t : Turn} {w : World} {r r' : Row}
  {user : String} {now : Instant} {α : Type}

theorem vacant (keeping : Keeping) (faults : List (Option Error)) : (World.vacant keeping faults).Foremost shown :=
  ⟨List.nodup_nil, fun _ hr => absurd hr List.not_mem_nil, fun _ hr => absurd hr List.not_mem_nil⟩

theorem meeting (hw : w.Foremost shown) (faults : List (Option Error)) : (w.meeting faults).Foremost shown :=
  ⟨hw.distinct, hw.last, hw.times⟩

theorem launching (hw : w.Foremost shown) (l : Launch) : (w.launching l).Foremost shown :=
  ⟨hw.distinct, hw.last, hw.times⟩

/-! ### Writes -/

/-- A row that is written is not ready, or it was the last one of its user. -/
theorem put (hw : w.Foremost shown) (hr : r ∈ w.store.rows) (h : r.Renewed now r') (hnow : shown now)
    (hlast : r'.status = .ready → w.store.latest? r.userId = some r) : (w.put r').Foremost shown := by
  have hread (user : String) := latest?_put_map hw.distinct hr h.id_eq h.userId_eq h.createdAt_eq user
  refine ⟨(put_ids w r').symm ▸ hw.distinct, fun q hq hs => ?_, fun q hq t ht => ?_⟩
  · rcases mem_put hq with rfl | ⟨hq, hne⟩
    · rw [hread, h.userId_eq, hlast hs, Option.map_some, if_pos h.id_eq.symm]
    · rw [hread, hw.last q hq hs, Option.map_some, if_neg hne]
  · rcases mem_put hq with rfl | ⟨hq, -⟩
    · rcases h.times t ht with ht | rfl
      · exact hw.times r hr t ht
      · exact hnow
    · exact hw.times q hq t ht

/-- A user who gets a new row has no ready one. -/
theorem add (hw : w.Foremost shown) (hf : s.freshId ∉ w.ids) (hno : Store.hasLive w.store.rows user = false)
    (hnow : shown s.now) (org : String) :
    (w.add (.start s.freshId user org s.freshTicket s.now)).Foremost shown := by
  refine ⟨?_, fun q hq hs => ?_, fun q hq t ht => ?_⟩
  · rw [add_ids]
    exact List.concat_eq_append ▸ hw.distinct.concat hf
  · rcases List.mem_append.mp hq with hq | hq
    · have hlive : q.isLive = true := by simp [Row.isLive, hs, Status.isTerminal]
      have hne : user ≠ q.userId := fun heq => not_live_of_hasLive hno hq heq.symm hlive
      have hsame : (w.add (.start s.freshId user org s.freshTicket s.now)).only q.userId = w.only q.userId :=
        (only_add w _ q.userId).trans (if_neg hne)
      rw [← latest?_only, hsame, latest?_only]
      exact hw.last q hq hs
    · rw [List.mem_singleton.mp hq] at hs
      cases hs
  · rcases List.mem_append.mp hq with hq | hq
    · exact hw.times q hq t ht
    · rw [List.mem_singleton.mp hq] at ht
      have : t = s.now := by simpa [Row.times, Row.start] using ht
      exact this ▸ hnow

theorem update (hw : w.Foremost shown) (hr : r ∈ w.store.rows) (h : r.Renewed now r') (hnow : shown now)
    (hlast : r'.status = .ready → w.store.latest? r.userId = some r) : (Work.update r' w).2.Foremost shown :=
  (update_tries hw.distinct hr h.id_eq h.userId_eq h.createdAt_eq).last hw.meeting
    (hw.put hr h hnow hlast).meeting

/-- A write that ends in an answer. -/
theorem rewrite (hw : w.Foremost shown) (hr : r ∈ w.store.rows) (h : r.Renewed now r') (hnow : shown now)
    (hlast : r'.status = .ready → w.store.latest? r.userId = some r) (a : α) :
    ((do Work.update r'; return a : Work α) w).2.Foremost shown := by
  rw [bind_pure_world (Work.update r') (fun _ => a)]
  exact hw.update hr h hnow hlast

/-! ### Operations -/

theorem promote (hw : w.Foremost shown) (hl : w.store.latest? user = some r) (hnow : shown now) :
    (Policy.promote r now w).2.Foremost shown :=
  hw.rewrite (mem_of_latest? hl) (r.renewed_promote now) hnow (fun _ => userId_of_latest? hl ▸ hl) _

theorem launch (hw : w.Foremost shown) (hr : r ∈ w.store.rows) (hnow : shown s.now) :
    (p.launch s r w).2.Foremost shown := by
  unfold Policy.launch
  rw [bind_of_ok (record_apply w _)]
  cases s.launched with
  | ok _ => exact hw.launching _
  | error _ => exact (hw.launching _).rewrite hr (r.renewed_fail s.now _) hnow nofun _

theorem startFresh (hw : w.Foremost shown) (hf : s.freshId ∉ w.ids) (hnow : shown s.now) (user org : String) :
    (p.startFresh s user org w).2.Foremost shown := by
  unfold Policy.startFresh
  cases hlive : Store.hasLive w.store.rows user with
  | true =>
    obtain ⟨e, faults, hrun⟩ := insert_refused (w := w) (r := .start s.freshId user org s.freshTicket s.now) rfl hlive
    rw [bind_of_error hrun]
    exact hw.meeting faults
  | false =>
    refine (insert_tries w _).bind hw.meeting fun faults => ?_
    exact ((hw.add hf hlive hnow org).meeting faults).launch (by simp) hnow

theorem recover (hw : w.Foremost shown) (hr : r ∈ w.store.rows) (hnow : shown s.now) (force : Bool) :
    (p.recover s r force w).2.Foremost shown := by
  unfold Policy.recover
  split
  · exact hw.rewrite hr (r.renewed_fail s.now _) hnow nofun _
  · split
    · exact hw
    · have h := r.renewed_retry s.now s.freshTicket
      refine (update_tries hw.distinct hr h.id_eq h.userId_eq h.createdAt_eq).bind hw.meeting fun faults => ?_
      exact ((hw.put hr h hnow nofun).meeting faults).launch (mem_put_self hr h.id_eq) hnow

/-- A row is written as disconnected, and the next bootstrap may follow. -/
theorem disconnect {q : Row} (hw : w.Foremost shown) (hr : r ∈ w.store.rows) (h : r.Renewed s.now q)
    (hs : q.status = .disconnected) (hnow : shown s.now) (force : Bool) :
    ((do Work.update q; p.recover s q force : Work Outcome) w).2.Foremost shown := by
  have hput := hw.put hr h hnow fun hready => nomatch hs.symm.trans hready
  refine (update_tries hw.distinct hr h.id_eq h.userId_eq h.createdAt_eq).bind hw.meeting fun faults => ?_
  exact (hput.meeting faults).recover (mem_put_self hr h.id_eq) hnow force

theorem pending (hw : w.Foremost shown) (hl : w.store.latest? user = some r) (hnow : shown s.now)
    (wsReady : Bool) : ((if wsReady then Policy.promote r s.now
      else if p.settings.bootstrapTimeout ≤ r.msSinceBootstrap s.now then
        p.demoteAndRecover s { r.disconnect s.now with lastError := some Code.timedOut }
      else return .notReady r (some p.settings.readyRetry) : Work Outcome) w).2.Foremost shown := by
  split
  · exact hw.promote hl hnow
  · split
    · have h := r.renewed_disconnect s.now
      exact hw.disconnect (p := p) (q := { r.disconnect s.now with lastError := some Code.timedOut })
        (mem_of_latest? hl) ⟨h.id_eq, h.userId_eq, h.createdAt_eq, h.times⟩ rfl hnow false
    · exact hw

theorem ensure (hw : w.Foremost shown) (hf : s.freshId ∉ w.ids) (hnow : shown s.now) (user org : String)
    (wsReady : Bool) : (p.ensure s user org wsReady w).2.Foremost shown := by
  refine (latest?_tries w user).bind hw.meeting fun faults => ?_
  have hmet := hw.meeting faults
  cases hl : w.store.latest? user with
  | none => exact hmet.startFresh hf hnow user org
  | some r =>
    have hr := mem_of_latest? hl
    cases hs : r.status <;> simp only [hs]
    case terminated => exact hmet.startFresh hf hnow user org
    case failed =>
      split
      · exact hmet
      · split
        · exact hmet
        · exact hmet.startFresh hf hnow user org
    case starting => exact hmet.pending hl hnow wsReady
    case provisioning => exact hmet.pending hl hnow wsReady
    case ready =>
      split
      · exact hmet
      · exact hmet.disconnect hr (r.renewed_disconnect s.now) rfl hnow false
    case disconnected =>
      split
      · exact hmet.promote hl hnow
      · exact hmet.recover hr hnow false

/-- An operation that reads a user's live row first. -/
theorem reading {f : Option Row → Work α} (hw : w.Foremost shown) (user : String)
    (absent : ∀ faults, (f none (w.meeting faults)).2.Foremost shown)
    (present : ∀ r faults, w.store.latest? user = some r → (f (some r) (w.meeting faults)).2.Foremost shown) :
    ((Work.live? user >>= f) w).2.Foremost shown := by
  refine (live?_tries w user).bind hw.meeting fun faults => ?_
  cases hl : w.live? user with
  | none => exact absent faults
  | some r => exact present r faults (latest?_of_live? hl).1

theorem forceRebootstrap (hw : w.Foremost shown) (hf : s.freshId ∉ w.ids) (hnow : shown s.now)
    (user org : String) : (p.forceRebootstrap s user org w).2.Foremost shown := by
  refine hw.reading user (fun faults => (hw.meeting faults).startFresh hf hnow user org) fun r faults hl => ?_
  dsimp only
  split
  · exact (hw.meeting faults).recover (mem_of_latest? hl) hnow true
  · exact (hw.meeting faults).disconnect (mem_of_latest? hl) (r.renewed_disconnect s.now) rfl hnow true

theorem consumeTicket (hw : w.Foremost shown) (hnow : shown now) (user ticket : String) :
    (Work.consumeTicket now user ticket w).2.Foremost shown := by
  refine hw.reading user hw.meeting fun r faults hl => ?_
  dsimp only
  split
  · exact hw.meeting faults
  · cases r.ticketConsumedAt with
    | none =>
      exact (hw.meeting faults).rewrite (mem_of_latest? hl) (r.renewed_consume now) hnow
        (fun _ => userId_of_latest? hl ▸ hl) _
    | some _ =>
      change ((if r.status = .disconnected then return r
        else throw (.auth s!"Connect ticket already used (status: {r.status.name})") : Work Row) _).2.Foremost shown
      split <;> exact hw.meeting faults

theorem markConnected (hw : w.Foremost shown) (hnow : shown now) (user : String) :
    (Work.markConnected now user w).2.Foremost shown := by
  refine hw.reading user hw.meeting fun r faults hl => ?_
  dsimp only
  rw [bind_pure_world (Policy.promote r now) fun o => some o.row]
  exact (hw.meeting faults).promote hl hnow

theorem markDisconnected (hw : w.Foremost shown) (hnow : shown now) (user : String) :
    (Work.markDisconnected now user w).2.Foremost shown := by
  refine hw.reading user hw.meeting fun r faults hl => ?_
  dsimp only
  split
  · exact (hw.meeting faults).rewrite (mem_of_latest? hl) (r.renewed_disconnect now) hnow nofun _
  · exact hw.meeting faults

theorem recordHeartbeat (hw : w.Foremost shown) (hnow : shown now) (user : String) :
    (Work.recordHeartbeat now user w).2.Foremost shown :=
  hw.reading user hw.meeting fun r faults hl =>
    (hw.meeting faults).update (mem_of_latest? hl) (r.renewed_beat now) hnow fun _ => userId_of_latest? hl ▸ hl

theorem demoteStale (hw : w.Foremost shown) (hnow : shown now) (candidate : Row) :
    (Work.demoteStale now candidate w).2.Foremost shown := by
  refine hw.reading candidate.userId hw.meeting fun r faults hl => ?_
  dsimp only
  split
  · exact (hw.meeting faults).rewrite (mem_of_latest? hl) (r.renewed_disconnect now) hnow nofun _
  · exact hw.meeting faults

theorem demoteAll (hw : w.Foremost shown) (hnow : shown now) (rows : List Row) (n : Nat) :
    (Work.demoteAll now rows n w).2.Foremost shown := by
  induction rows generalizing w n with
  | nil => exact hw
  | cons c rest ih =>
    have hstep := hw.demoteStale hnow c
    rw [Work.demoteAll, bind_apply]
    rcases hrun : Work.demoteStale now c w with ⟨e | b, v⟩ <;> rw [hrun] at hstep
    · exact hstep
    · exact ih hstep _

theorem sweep (hw : w.Foremost shown) (hnow : shown now) (cutoff : Instant) :
    (Work.sweep now cutoff w).2.Foremost shown :=
  (staleRows_tries w cutoff).bind hw.meeting fun faults => (hw.meeting faults).demoteAll hnow _ 0

theorem run (hw : w.Foremost shown) (hf : t.freshId ∉ w.ids) (hnow : shown t.surroundings.now) :
    (t.run p w).2.Foremost shown := by
  obtain ⟨s, op⟩ := t
  unfold Turn.run
  cases op with
  | ensure user org wsReady =>
    exact (bind_pure_world (p.ensure s user org wsReady) Answer.outcome w) ▸ hw.ensure hf hnow user org wsReady
  | force user org =>
    exact (bind_pure_world (p.forceRebootstrap s user org) Answer.outcome w) ▸ hw.forceRebootstrap hf hnow user org
  | consume user ticket =>
    exact (bind_pure_world (Work.consumeTicket s.now user ticket) Answer.row w) ▸ hw.consumeTicket hnow user ticket
  | connected user =>
    exact (bind_pure_world (Work.markConnected s.now user) Answer.last w) ▸ hw.markConnected hnow user
  | disconnected user =>
    exact (bind_pure_world (Work.markDisconnected s.now user) Answer.last w) ▸ hw.markDisconnected hnow user
  | heartbeat user =>
    exact (bind_pure_world (Work.recordHeartbeat s.now user) (fun _ => Answer.done) w) ▸ hw.recordHeartbeat hnow user
  | sweep timeout =>
    dsimp only [Operation.work]
    cases cutoff? s.now timeout with
    | none => exact hw
    | some cutoff => exact (bind_pure_world (Work.sweep s.now cutoff) Answer.count w) ▸ hw.sweep hnow cutoff

theorem play {turns : List Turn} (hw : w.Foremost shown) (h : Apart turns w)
    (hnow : ∀ t ∈ turns, shown t.surroundings.now) : (play p turns w).2.Foremost shown :=
  h.keeps (I := Foremost shown) (fun t ht _ _ hf hu => hu.run hf (hnow t ht)) hw

end World.Foremost

end Fleet.Vm
