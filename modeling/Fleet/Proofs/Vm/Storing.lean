import Fleet.Proofs.Vm.Isolation
import Fleet.Proofs.Vm.Launching
import Fleet.Proofs.Vm.Rebuilding

/-!
What is launched was stored. On either kind of store, and whatever accesses to it fail, an operation that has
a bootstrap due first writes the row that holds its ticket; where that fails nothing is launched, and where the
launcher refuses the row is written again as failed.
-/

namespace Fleet.Vm

/-- Whether an operation has a bootstrap to launch, by the last row of its user. -/
def Operation.Due (p : Policy) (now : Instant) (w : World) : Operation → Prop
  | .ensure user _ wsReady => p.Due now wsReady (w.store.latest? user)
  | .force user _ => ∀ r, w.live? user = some r → r.attempts < p.settings.maxAttempts
  | _ => False

/-- The next access to the store does not fail. -/
def World.Answers (w : World) : Prop := ∀ e, w.faults.head? ≠ some (some e)

/-- Reads a user's last row, of which the answer is known. -/
def Work.consult (user : String) : Work Unit := do
  let _ ← latest? user
  return ()

/-- A turn gets ready, writes the row of a bootstrap, and launches the bootstrap, for any failures ahead. -/
structure Turn.Stores (p : Policy) (t : Turn) (w : World) (user : String) (prepare write : Work Unit) (r : Row) :
    Prop where
  /-- The user's last row is read, and may be written as disconnected. -/
  prepares : prepare = Work.consult user ∨ ∃ q, prepare = (do Work.consult user; Work.update q)
  writes : write = Work.insert r ∨ write = Work.update r
  userId_eq : r.userId = user
  ticket_eq : r.ticket = t.freshTicket
  pending : r.status.isPending = true
  lastBootstrapAt_eq : r.lastBootstrapAt = some t.surroundings.now
  runs : ∀ faults, t.run p (w.meeting faults) =
    (do prepare; write; return .outcome (← p.launch t.surroundings r) : Work Answer) (w.meeting faults)
  /-- A failure on the way is the answer, and nothing is launched. -/
  unwritten : ∀ faults e v, (do prepare; write : Work Unit) (w.meeting faults) = (.error e, v) →
    t.run p (w.meeting faults) = (.error e, v) ∧ v.launches = w.launches
  /-- The row is its user's last one when the bootstrap with its ticket is launched, which is the only one. -/
  written : ∀ faults v, (do prepare; write : Work Unit) (w.meeting faults) = (.ok (), v) →
    v.store.latest? user = some r ∧ v.launches = w.launches ∧
      (t.run p (w.meeting faults)).2.launches = v.launches ++ [p.bootstrap t.surroundings r]
  /-- The launcher's refusal is answered with the row as failed, and the user is left with no live row. -/
  refused : ∀ faults v e, (do prepare; write : Work Unit) (w.meeting faults) = (.ok (), v) → v.Answers →
    t.surroundings.launched = .error e → ∃ o, (t.run p (w.meeting faults)).1 = .ok (.outcome o) ∧
      o = .notReady (r.fail Code.spawnFailed t.surroundings.now) (some p.settings.cooldown) ∧
      (t.run p (w.meeting faults)).2.store.latest? user = some o.row ∧
      Store.hasLive (t.run p (w.meeting faults)).2.store.rows user = false

variable {p : Policy} {s : Surroundings} {t : Turn} {w u v : World} {user org : String} {r r' q : Row}
  {prepare write : Work Unit}

/-! ### The last row after a write -/

namespace World

/-- A row that keeps its id and the time it was made is answered in the place of the one before. -/
theorem listing_put (hn : w.ids.Nodup) (hr : r ∈ w.store.rows) (hid : r'.id = r.id)
    (hc : r'.createdAt = r.createdAt) :
    (w.put r').store.listing = w.store.listing.map fun q => if q.id = r'.id then r' else q := by
  have hsame (a : Row) (ha : a ∈ w.store.rows) :
      (if a.id = r'.id then r' else a).createdAt = a.createdAt := by
    split
    · rename_i h
      rw [eq_of_id hn ha hr (h.trans hid), hc]
    · rfl
  unfold Store.listing put
  cases w.store.keeping with
  | arrival => rfl
  | table =>
    refine (List.map_mergeSort fun a ha b hb => ?_).symm
    unfold Store.notAfter
    rw [hsame a ha, hsame b hb]

/-- The last row of a user after a row was written is the one it was, or what was written in its place. -/
theorem latest?_put_map (hn : w.ids.Nodup) (hr : r ∈ w.store.rows) (hid : r'.id = r.id)
    (hu : r'.userId = r.userId) (hc : r'.createdAt = r.createdAt) (user : String) :
    (w.put r').store.latest? user =
      (w.store.latest? user).map fun q => if q.id = r'.id then r' else q := by
  have hhistory : (w.put r').store.history user =
      (w.store.history user).map fun q => if q.id = r'.id then r' else q := by
    rw [Store.history, listing_put hn hr hid hc, List.filter_map]
    refine congrArg _ (List.filter_congr fun q hq => ?_)
    simp only [Function.comp_apply, Store.ofUser]
    split
    · rename_i hq'
      rw [eq_of_id hn (mem_listing.mp hq) hr (hq'.trans hid), hu]
    · rfl
  rw [Store.latest?, hhistory, List.getLast?_map, Store.latest?]

theorem latest?_put (hn : w.ids.Nodup) (h : w.store.latest? user = some r) (hid : r'.id = r.id)
    (hu : r'.userId = r.userId) (hc : r'.createdAt = r.createdAt) :
    (w.put r').store.latest? user = some r' := by
  rw [latest?_put_map hn (mem_of_latest? h) hid hu hc, h, Option.map_some, if_pos hid.symm]

/-- A new row is the last of its user where rows are kept as they arrive, and in a table if its time of
creation is not before that of the user's other rows. -/
theorem latest?_add (order : w.store.keeping = .table → ∀ q ∈ w.store.rows, q.userId = r.userId →
      Store.timeText q.createdAt ≤ Store.timeText r.createdAt) :
    (w.add r).store.latest? r.userId = some r := by
  unfold Store.latest? Store.history Store.listing add
  cases hk : w.store.keeping with
  | arrival => simp [Store.ofUser]
  | table =>
    have hlast : ∀ q ∈ w.store.rows.filter (Store.ofUser r.userId), Store.notAfter q r = true := by
      intro q hq
      obtain ⟨hq, hu⟩ := List.mem_filter.mp hq
      exact decide_eq_true (order hk q hq (by simpa [Store.ofUser] using hu))
    have hself : [r].filter (Store.ofUser r.userId) = [r] := by simp [Store.ofUser]
    dsimp only
    rw [filter_mergeSort Store.notAfter_trans Store.notAfter_total, List.filter_append, hself,
      mergeSort_concat Store.notAfter_trans Store.notAfter_total hlast]
    exact List.getLast?_concat

/-- No row of the user was made after the one that a table answers with. -/
theorem not_before_latest? (hk : w.store.keeping = .table) (h : w.store.latest? user = some r)
    (hq : q ∈ w.store.rows) (hu : q.userId = user) :
    Store.timeText q.createdAt ≤ Store.timeText r.createdAt := by
  have hsorted : (w.store.history user).Pairwise fun a b => Store.notAfter a b = true := by
    unfold Store.history Store.listing
    rw [hk]
    exact (List.pairwise_mergeSort Store.notAfter_trans Store.notAfter_total _).filter _
  have hmem : q ∈ w.store.history user :=
    List.mem_filter.mpr ⟨mem_listing.mpr hq, by simp [Store.ofUser, hu]⟩
  obtain ⟨before, hsplit⟩ := List.getLast?_eq_some_iff.mp h
  rw [hsplit] at hsorted hmem
  rcases List.mem_append.mp hmem with hq | hq
  · exact of_decide_eq_true ((List.pairwise_append.mp hsorted).2.2 q hq r (List.mem_singleton.mpr rfl))
  · exact List.mem_singleton.mp hq ▸ String.le_refl _

@[simp] theorem meeting_live? (w : World) (faults : List (Option Error)) (user : String) :
    (w.meeting faults).live? user = w.live? user := rfl

end World

/-! ### Readings that come first -/

namespace Work

variable {α : Type}

theorem consult_tries (w : World) (user : String) : (consult user).Tries w () w := by
  rcases latest?_tries w user with ⟨e, faults, h⟩ | ⟨faults, h⟩
  · exact .inl ⟨e, faults, bind_of_error h⟩
  · exact .inr ⟨faults, bind_of_ok h⟩

/-- What follows a reading depends on the store alone. -/
theorem latest?_bind (f : Option Row → Work α) (w : World) :
    (latest? user >>= f) w = (do consult user; f (w.store.latest? user) : Work α) w := by
  rcases latest?_tries w user with ⟨e, faults, h⟩ | ⟨faults, h⟩
  · have hc : consult user w = (.error e, w.meeting faults) := bind_of_error h
    rw [bind_of_error h, bind_of_error hc]
  · have hc : consult user w = (.ok (), w.meeting faults) := bind_of_ok h
    rw [bind_of_ok h, bind_of_ok hc]

theorem live?_bind (f : Option Row → Work α) (w : World) :
    (live? user >>= f) w = (do consult user; f (w.live? user) : Work α) w := by
  rw [live?, bind_assoc, latest?_bind]
  simp only [pure_bind]
  rfl

theorem access_answers {f : Store → Except Error (α × Store)} {a : α} {s : Store} (hw : w.Answers)
    (h : f w.store = .ok (a, s)) : access f w = (.ok a, { w with store := s, faults := w.faults.tail }) := by
  obtain ⟨store, launches, faults⟩ := w
  rcases faults with _ | ⟨_ | e, rest⟩
  · simp [access, h]
  · simp [access, h]
  · exact absurd rfl (hw e)

/-- A row that fails is written, since a table has nothing against it. -/
theorem update_fail (hn : w.ids.Nodup) (hr : r ∈ w.store.rows) (hw : w.Answers) (code : String)
    (now : Instant) : update (r.fail code now) w = (.ok (), (w.put (r.fail code now)).meeting w.faults.tail) := by
  have hs : w.store.update (r.fail code now) = .ok (w.put (r.fail code now)).store := by
    have hid : (r.fail code now).id = r.id := rfl
    rw [update_eq hn hr hid rfl rfl, if_neg]
    rintro ⟨-, hl, -⟩
    cases hl
  exact access_answers hw (by rw [hs]; rfl)

end Work

open Work World

/-! ### Storing -/

namespace Policy

theorem recover_again (left : q.attempts < p.settings.maxAttempts) {force : Bool}
    (cool : force = false → p.cooldownLeft q s.now = 0) :
    p.recover s q force = (do
      Work.update (q.retry s.freshTicket s.now)
      p.launch s (q.retry s.freshTicket s.now) : Work Outcome) := by
  unfold recover
  rw [if_neg (by omega), if_neg]
  cases force with
  | true => simp
  | false => simp [cool rfl]

theorem force_due (h : (p.forceRebootstrap s user org w).2.launches ≠ w.launches) :
    ∀ r, w.live? user = some r → r.attempts < p.settings.maxAttempts := by
  revert h
  unfold forceRebootstrap
  refine (live?_tries w user).bind (P := fun v => v.launches ≠ w.launches → _)
    (fun _ h => absurd rfl h) fun faults h r hl => ?_
  rw [hl] at h
  dsimp only at h
  split at h
  · exact (recover_due h).1
  · rw [Work.bind_apply] at h
    have hup : (Work.update (r.disconnect s.now) (w.meeting faults)).2.launches = w.launches :=
      quiet.update _ _
    rcases hrun : Work.update (r.disconnect s.now) (w.meeting faults) with ⟨_ | _, v⟩ <;> rw [hrun] at h hup
    · exact absurd hup h
    · have hdue := recover_due (hup ▸ h : _ ≠ v.launches)
      exact hdue.1

end Policy

namespace Turn

/-- Only what is due is launched. -/
theorem launches_due (h : (t.run p w).2.launches ≠ w.launches) :
    t.operation.Due p t.surroundings.now w := by
  by_contra hno
  have hserves : ∃ user, t.operation.Serves user := by
    by_contra hnone
    exact h (quiet.run t (fun user hu => hnone ⟨user, hu⟩) w)
  obtain ⟨user, hserves⟩ := hserves
  unfold run Operation.work at h
  cases hop : t.operation <;> rw [hop] at h hno hserves
  case ensure other org wsReady =>
    rw [bind_pure_world] at h
    exact hno (Policy.ensure_due h)
  case force other org =>
    rw [bind_pure_world] at h
    exact hno (Policy.force_due h)
  all_goals exact hserves

/-- What is told about a turn that stores follows from where its write leads. -/
theorem Stores.of_tries
    (prepares : prepare = consult user ∨ ∃ q, prepare = (do consult user; Work.update q))
    (writes : write = Work.insert r ∨ write = Work.update r) (hu : r.userId = user)
    (ticket : r.ticket = t.freshTicket) (pending : r.status.isPending = true)
    (reading : r.lastBootstrapAt = some t.surroundings.now)
    (runs : ∀ faults, t.run p (w.meeting faults) =
      (do prepare; write; return .outcome (← p.launch t.surroundings r) : Work Answer) (w.meeting faults))
    (hprepare : ∀ faults, prepare.Tries (w.meeting faults) () u) (hul : u.launches = w.launches)
    (hwrite : ∀ faults, write.Tries (u.meeting faults) () v) (hvl : v.launches = w.launches)
    (hn : v.ids.Nodup) (last : v.store.latest? user = some r)
    (alone : ∀ faults x, write (u.meeting faults) = (.ok (), x) →
      ∀ a ∈ v.store.rows, a.userId = user → a.isLive = true → a.id = r.id) :
    t.Stores p w user prepare write r := by
  have hassoc (faults : List (Option Error)) : t.run p (w.meeting faults) =
      (do (do prepare; write : Work Unit); return .outcome (← p.launch t.surroundings r) : Work Answer)
        (w.meeting faults) := by
    rw [runs, bind_assoc]
  -- a write that is made leads to the world that it is said to lead to
  have hstored {faults : List (Option Error)} {x : World}
      (h : (do prepare; write : Work Unit) (w.meeting faults) = (.ok (), x)) :
      (∃ rest, x = v.meeting rest) ∧ ∀ a ∈ v.store.rows, a.userId = user → a.isLive = true → a.id = r.id := by
    rcases hprepare faults with ⟨e, rest, hp⟩ | ⟨rest, hp⟩
    · rw [bind_of_error hp] at h
      cases h
    · rw [bind_of_ok hp] at h
      refine ⟨?_, alone rest x h⟩
      rcases hwrite rest with ⟨e, rest', hw⟩ | ⟨rest', hw⟩ <;> rw [hw] at h
      · cases h
      · exact ⟨rest', (Prod.mk.inj h).2.symm⟩
  refine ⟨prepares, writes, hu, ticket, pending, reading, runs, fun faults e x h => ?_, fun faults x h => ?_,
    fun faults x e h hx he => ?_⟩
  · refine ⟨(hassoc faults).trans (bind_of_error h), ?_⟩
    rcases hprepare faults with ⟨e', rest, hp⟩ | ⟨rest, hp⟩
    · rw [bind_of_error hp] at h
      exact (Prod.mk.inj h).2 ▸ rfl
    · rw [bind_of_ok hp] at h
      rcases hwrite rest with ⟨e', rest', hw⟩ | ⟨rest', hw⟩ <;> rw [hw] at h
      · exact (Prod.mk.inj h).2 ▸ hul
      · cases h
  · obtain ⟨⟨rest, rfl⟩, -⟩ := hstored h
    refine ⟨last, hvl, ?_⟩
    rw [hassoc, bind_of_ok h, bind_pure_world]
    exact Policy.launch_launches r
  · obtain ⟨⟨rest, rfl⟩, halone⟩ := hstored h
    have hr : r ∈ v.store.rows := mem_of_latest? last
    have hfail := update_fail (w := (v.meeting rest).launching (p.bootstrap t.surroundings r)) hn hr hx
      Code.spawnFailed t.surroundings.now
    have hlaunch : p.launch t.surroundings r (v.meeting rest) = _ :=
      bind_of_ok (record_apply (v.meeting rest) _)
    rw [he] at hlaunch
    have hrun := (hassoc faults).trans ((bind_of_ok h).trans
      (bind_of_ok (hlaunch.trans (bind_of_ok hfail))))
    rw [hrun]
    refine ⟨_, rfl, rfl, latest?_put hn last rfl rfl rfl, ?_⟩
    refine List.any_eq_false.mpr fun a ha hlive => ?_
    rw [Bool.and_eq_true] at hlive
    rcases mem_put (w := v) ha with rfl | ⟨ha, hne⟩
    · exact absurd hlive.2 (by simp [Row.isLive, Row.fail, Status.isTerminal])
    · exact hne (halone a ha (by simpa [Store.ofUser] using hlive.1) hlive.2)

/-- A new row is begun. -/
theorem stores_opened (hw : w.Single) (hf : t.freshId ∉ w.ids)
    (order : w.store.keeping = .table → ∀ q ∈ w.store.rows, q.userId = user →
      Store.timeText q.createdAt ≤ Store.timeText t.surroundings.now)
    (runs : ∀ faults, t.run p (w.meeting faults) =
      (do consult user; return .outcome (← p.startFresh t.surroundings user org) : Work Answer)
        (w.meeting faults)) :
    let r := Row.start t.freshId user org t.freshTicket t.surroundings.now
    t.Stores p w user (consult user) (Work.insert r) r := by
  intro r
  refine .of_tries (u := w) (v := w.add r) (.inl rfl) (.inl rfl) rfl rfl rfl rfl (fun faults => ?_)
    (fun faults => consult_tries (w.meeting faults) user) rfl (fun faults => insert_tries (w.meeting faults) r)
    rfl ?_ (latest?_add order) fun faults x hx a ha hu hl => ?_
  · rw [runs]
    simp only [Policy.startFresh, bind_assoc]
    rfl
  · rw [add_ids]
    exact List.concat_eq_append ▸ hw.distinct.concat hf
  · rcases List.mem_append.mp ha with ha | ha
    · -- a live row of the user would have kept the new one out
      have hlive : Store.hasLive w.store.rows user = true :=
        List.any_eq_true.mpr ⟨a, ha, by simp [Store.ofUser, hu, hl]⟩
      obtain ⟨e, rest, h⟩ := insert_refused (w := w.meeting faults) (r := r) rfl hlive
      rw [h] at hx
      cases hx
    · rw [List.mem_singleton.mp ha]

/-- A disconnected row is brought up once more. -/
theorem stores_again (force : Bool) (hu : u.Single) (hul : u.launches = w.launches)
    (last : u.store.latest? user = some q) (hs : q.status = .disconnected)
    (left : q.attempts < p.settings.maxAttempts)
    (cool : force = false → p.cooldownLeft q t.surroundings.now = 0)
    (prepares : prepare = consult user ∨ ∃ q, prepare = (do consult user; Work.update q))
    (hprepare : ∀ faults, prepare.Tries (w.meeting faults) () u)
    (runs : ∀ faults, t.run p (w.meeting faults) =
      (do prepare; return .outcome (← p.recover t.surroundings q force) : Work Answer) (w.meeting faults)) :
    let r := q.retry t.freshTicket t.surroundings.now
    t.Stores p w user prepare (Work.update r) r := by
  intro r
  have hq := mem_of_latest? last
  have hl : q.isLive = true := by simp [Row.isLive, hs, Status.isTerminal]
  have hv : (u.put r).Single := hu.put hq hl rfl rfl
  have last' : (u.put r).store.latest? user = some r := latest?_put hu.distinct last rfl rfl rfl
  have hwrite (faults : List (Option Error)) : (Work.update r).Tries (u.meeting faults) () (u.put r) :=
    update_tries (w := u.meeting faults) (r := q) hu.distinct hq rfl rfl rfl
  have huser : q.userId = user := userId_of_latest? last
  refine .of_tries prepares (.inr rfl) huser rfl rfl rfl (fun faults => ?_) hprepare hul hwrite hul hv.distinct
    last' fun _ _ _ a ha hau hal => ?_
  · rw [runs, Policy.recover_again left cool]
    simp only [bind_assoc]
    rfl
  · rw [hv.alone a ha r (mem_of_latest? last') (hau.trans huser.symm) hal rfl]

/-- A live row is disconnected and brought up once more. -/
theorem stores_lost (force : Bool) (hw : w.Single) (last : w.store.latest? user = some r)
    (hl : r.isLive = true) (h : r.Revised p t.surroundings.now q) (hs : q.status = .disconnected)
    (left : q.attempts < p.settings.maxAttempts)
    (cool : force = false → p.cooldownLeft q t.surroundings.now = 0)
    (runs : ∀ faults, t.run p (w.meeting faults) =
      (do consult user; Work.update q; return .outcome (← p.recover t.surroundings q force) : Work Answer)
        (w.meeting faults)) :
    let r := q.retry t.freshTicket t.surroundings.now
    t.Stores p w user (do consult user; Work.update q) (Work.update r) r := by
  have hr := mem_of_latest? last
  refine stores_again force (u := w.put q) (hw.put hr hl h.id_eq h.userId_eq) rfl
    (latest?_put hw.distinct last h.id_eq h.userId_eq h.createdAt_eq) hs left cool (.inr ⟨q, rfl⟩)
    (fun faults => ?_) fun faults => ?_
  · rcases consult_tries (w.meeting faults) user with ⟨e, rest, hc⟩ | ⟨rest, hc⟩
    · exact .inl ⟨e, rest, bind_of_error hc⟩
    · have htry := h.tries (w := w.meeting rest) hw.distinct hr
      unfold Tries
      rw [bind_of_ok hc]
      exact htry
  · rw [runs, bind_assoc]

theorem ensure_stores (t : Turn) {wsReady : Bool} (hw : w.Single) (hf : t.freshId ∉ w.ids)
    (order : w.store.keeping = .table → ∀ q ∈ w.store.rows, q.userId = user →
      Store.timeText q.createdAt ≤ Store.timeText t.surroundings.now)
    (hop : t.operation = .ensure user org wsReady)
    (hdue : p.Due t.surroundings.now wsReady (w.store.latest? user)) :
    ∃ prepare write r, t.Stores p w user prepare write r := by
  have hrun (faults : List (Option Error)) : t.run p (w.meeting faults) =
      (do let o ← p.ensure t.surroundings user org wsReady; return .outcome o : Work Answer)
        (w.meeting faults) := by
    rw [run, hop]
    rfl
  simp only [Policy.ensure, bind_assoc, latest?_bind, meeting_store] at hrun
  cases hlast : w.store.latest? user with
  | none =>
    simp only [hlast] at hrun
    exact ⟨_, _, _, stores_opened hw hf order hrun⟩
  | some r =>
    rw [hlast] at hdue
    simp only [hlast] at hrun
    have live (h : r.status.isTerminal = false) : r.isLive = true := by simp [Row.isLive, h]
    have waited (hrun : ∀ faults, t.run p (w.meeting faults) = (do
          consult user
          let o ← (if wsReady then Policy.promote r t.surroundings.now
            else if p.settings.bootstrapTimeout ≤ r.msSinceBootstrap t.surroundings.now then
              p.demoteAndRecover t.surroundings
                { r.disconnect t.surroundings.now with lastError := some Code.timedOut }
            else return .notReady r (some p.settings.readyRetry) : Work Outcome)
          return .outcome o : Work Answer) (w.meeting faults))
        (hs : r.status.isPending = true)
        (hdue : wsReady = false ∧ p.settings.bootstrapTimeout ≤ r.msSinceBootstrap t.surroundings.now ∧
          r.attempts < p.settings.maxAttempts ∧ p.cooldownLeft r t.surroundings.now = 0) :
        ∃ prepare write r, t.Stores p w user prepare write r := by
      obtain ⟨rfl, late, left, cool⟩ := hdue
      simp only [Bool.false_eq_true, ↓reduceIte, late, Policy.demoteAndRecover, bind_assoc] at hrun
      exact ⟨_, _, _, stores_lost false hw hlast (Row.isLive_of_pending hs) (.timedOut hs late) rfl left
        (fun _ => cool) hrun⟩
    unfold Policy.Due at hdue
    cases hs : r.status <;> simp only [hs] at hrun hdue
    case terminated => exact ⟨_, _, _, stores_opened hw hf order hrun⟩
    case failed =>
      rw [if_neg hdue.1, if_neg (by omega)] at hrun
      exact ⟨_, _, _, stores_opened hw hf order hrun⟩
    case starting => exact waited hrun (by rw [hs]; rfl) hdue
    case provisioning => exact waited hrun (by rw [hs]; rfl) hdue
    case ready =>
      obtain ⟨rfl, left, cool⟩ := hdue
      simp only [Bool.false_eq_true, ↓reduceIte, Policy.demoteAndRecover, bind_assoc] at hrun
      exact ⟨_, _, _, stores_lost false hw hlast (live (by rw [hs]; rfl)) (.disconnected (by simp [hs])) rfl left
        (fun _ => cool) hrun⟩
    case disconnected =>
      obtain ⟨rfl, left, cool⟩ := hdue
      exact ⟨_, _, _, stores_again false hw rfl hlast hs left (fun _ => cool) (.inl rfl)
        (fun faults => consult_tries (w.meeting faults) user) hrun⟩

theorem force_stores (t : Turn) (hw : w.Single) (hf : t.freshId ∉ w.ids)
    (order : w.store.keeping = .table → ∀ q ∈ w.store.rows, q.userId = user →
      Store.timeText q.createdAt ≤ Store.timeText t.surroundings.now)
    (hop : t.operation = .force user org)
    (hdue : ∀ r, w.live? user = some r → r.attempts < p.settings.maxAttempts) :
    ∃ prepare write r, t.Stores p w user prepare write r := by
  have hrun (faults : List (Option Error)) : t.run p (w.meeting faults) =
      (do let o ← p.forceRebootstrap t.surroundings user org; return .outcome o : Work Answer)
        (w.meeting faults) := by
    rw [run, hop]
    rfl
  simp only [Policy.forceRebootstrap, bind_assoc, live?_bind, meeting_live?] at hrun
  cases hl : w.live? user with
  | none =>
    simp only [hl] at hrun
    exact ⟨_, _, _, stores_opened hw hf order hrun⟩
  | some r =>
    obtain ⟨last, hlive⟩ := latest?_of_live? hl
    have left := hdue r hl
    simp only [hl] at hrun
    by_cases hs : r.status = .disconnected
    · simp only [hs, ↓reduceIte] at hrun
      exact ⟨_, _, _, stores_again true hw rfl last hs left (fun h => by cases h) (.inl rfl)
        (fun faults => consult_tries (w.meeting faults) user) hrun⟩
    · simp only [hs, ↓reduceIte, bind_assoc] at hrun
      exact ⟨_, _, _, stores_lost true hw last hlive (.disconnected hs) rfl left (fun h => by cases h) hrun⟩

end Turn

/-! ### What is launched -/

/-- Of any operation, on either kind of store and whatever accesses to it fail: when the user's last row has a
bootstrap due, the operation writes a row for it, in starting or provisioning, with the turn's ticket and the
turn's reading of the clock, and launches the bootstrap when that row is its user's last one. Where the write or
one before it fails, the failure is the answer and nothing is launched; where the launcher refuses, the answer is
the row as failed, which the user is left with and no live row besides. What is not due is not launched. In a
table, where the last row is the one made last, the clock must not be behind the user's rows. -/
theorem bootstraps_are_stored (p : Policy) (t : Turn) (w : World) (hw : w.Single) (hf : t.freshId ∉ w.ids)
    (order : w.store.keeping = .table → ∀ q ∈ w.store.rows, t.operation.Serves q.userId →
      Store.timeText q.createdAt ≤ Store.timeText t.surroundings.now) :
    (t.operation.Due p t.surroundings.now w → ∃ user, t.operation.Serves user ∧
      ∃ prepare write r, t.Stores p w user prepare write r) ∧
    (¬ t.operation.Due p t.surroundings.now w →
      ∀ faults, (t.run p (w.meeting faults)).2.launches = w.launches) := by
  refine ⟨fun hdue => ?_, fun hno faults => ?_⟩
  · cases hop : t.operation <;> rw [hop] at hdue order
    case ensure user org wsReady =>
      exact ⟨user, rfl, t.ensure_stores hw hf (fun hk q hq hu => order hk q hq hu.symm) hop hdue⟩
    case force user org => exact ⟨user, rfl, t.force_stores hw hf (fun hk q hq hu => order hk q hq hu.symm) hop hdue⟩
    all_goals exact hdue.elim
  · by_contra h
    have hdue := Turn.launches_due (w := w.meeting faults) h
    cases hop : t.operation <;> rw [hop] at hdue hno <;> exact hno hdue

/-- A row is brought up a second time and the launcher refuses: the row holds the new ticket and has failed.
Had the store refused the row, nothing would have been launched. -/
theorem forced_bootstrap_is_stored :
    let p : Policy := ⟨{}, ⟨"secret", 600⟩⟩
    let turn (n : Int) (launched : Except Error Unit) (op : Operation) : Turn :=
      ⟨⟨⟨n, 0⟩, 0, s!"row-{n}", s!"ticket-{n}", launched⟩, op⟩
    let w := (play p [turn 0 (.ok ()) (.ensure "u" "o" false)] (.vacant .table [])).2
    let t := turn 9 (.error (.transport "refused")) (.force "u" "o")
    let full := w.meeting [none, none, some (.store "disk full")]
    w.Single ∧ t.freshId ∉ w.ids ∧ (∀ q ∈ w.store.rows, Store.timeText q.createdAt ≤ Store.timeText ⟨9, 0⟩) ∧
    t.operation.Due p ⟨9, 0⟩ w ∧
    (∃ user, t.operation.Serves user ∧ ∃ prepare write r, t.Stores p w user prepare write r) ∧
    (t.run p full).1 = .error (.store "disk full") ∧ (t.run p full).2.launches = w.launches ∧
    (t.run p w).2.launches.map Launch.ticket = ["ticket-0", "ticket-9"] ∧
    (t.run p w).2.store.rows.map (fun r => (r.ticket, r.status, r.lastError)) =
      [("ticket-9", .failed, some Code.spawnFailed)] := by
  intro p turn w t full
  have hsingle : w.Single :=
    (World.Lone.vacant .table).single.play (.vacant (by decide +kernel))
  have hfresh : t.freshId ∉ w.ids := by decide +kernel
  have horder : ∀ q ∈ w.store.rows, Store.timeText q.createdAt ≤ Store.timeText ⟨9, 0⟩ := by decide +kernel
  have hdue : t.operation.Due p ⟨9, 0⟩ w := by
    intro r hr
    have hall : ∀ r ∈ w.live? "u", r.attempts < p.settings.maxAttempts := by decide +kernel
    exact hall r hr
  exact ⟨hsingle, hfresh, horder, hdue,
    (bootstraps_are_stored p t w hsingle hfresh fun _ q hq _ => horder q hq).1 hdue, by decide +kernel,
    by decide +kernel, by decide +kernel, by decide +kernel⟩

/-- A table answers with the row that failed five minutes from now, and not with the one that is stored after
the clock was set back. What is launched has the ticket of that one, with which no machine can connect. -/
theorem launched_ticket_is_not_of_the_last_row :
    let p : Policy := ⟨{}, ⟨"secret", 600⟩⟩
    let turn (n : Int) (launched : Except Error Unit) (op : Operation) : Turn :=
      ⟨⟨⟨n, 0⟩, 0, s!"row-{n}", s!"ticket-{n}", launched⟩, op⟩
    let w := (play p [turn 300 (.error (.transport "refused")) (.ensure "u" "o" false)] (.vacant .table [])).2
    let t := turn 0 (.ok ()) (.force "u" "o")
    let v := (t.run p w).2
    v.launches.map Launch.ticket = ["ticket-300", "ticket-0"] ∧
    (∃ r, v.store.latest? "u" = some r ∧ r.ticket = "ticket-300" ∧ r.status = .failed) ∧
    ((turn 1 (.ok ()) (.consume "u" "ticket-0")).run p v).1 =
      .error (.auth "No live VM instance for user u") := by
  intro p turn w t v
  let gone := (Row.start "row-300" "u" "o" "ticket-300" ⟨300, 0⟩).fail Code.spawnFailed ⟨300, 0⟩
  let begun := Row.start "row-0" "u" "o" "ticket-0" ⟨0, 0⟩
  have hrows : v.store.rows = [gone, begun] := by decide +kernel
  have hlone : v.Lone := ((World.Lone.vacant .table).run (by decide +kernel)).run (by decide +kernel)
  have hlast : v.store.latest? "u" = some gone := by
    have hsome : v.store.latest? "u" ≠ none := World.latest?_of_users (by rw [hrows]; decide)
    obtain ⟨r, hr⟩ := Option.ne_none_iff_exists'.mp hsome
    have hmem := World.mem_of_latest? (w := v) hr
    have hle := World.not_before_latest? (w := v) (by decide +kernel) hr (q := gone) (by simp [hrows]) rfl
    rw [hrows] at hmem
    rcases List.mem_pair.mp hmem with rfl | rfl
    · exact hr
    · exact absurd hle (by decide +kernel)
  have hnone : v.live? "u" = none := by
    rw [World.live?, hlast]
    rfl
  refine ⟨by decide +kernel, ⟨gone, hlast, rfl, rfl⟩, ?_⟩
  have hread := hlone.readLive "u"
  rw [hnone] at hread
  have hrefused : Work.consumeTicket ⟨1, 0⟩ "u" "ticket-0" v =
      (.error (.auth "No live VM instance for user u"), v) := Work.bind_of_ok hread
  exact congrArg Prod.fst (Work.bind_of_error hrefused)

end Fleet.Vm
