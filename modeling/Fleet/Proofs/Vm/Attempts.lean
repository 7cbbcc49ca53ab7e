import Fleet.Proofs.Vm.Writes

/-!
The attempts of a row over a run, on any store and whatever accesses to it fail. They count the
bootstraps launched for the row since it was created or last became ready, stay within the limit, and
together with the status they fix the row's error and the time it was lost.
-/

namespace Fleet.Vm

/-- What the status of a row says about its other fields, where `limit` attempts are allowed. -/
def Row.Fits (limit : Nat) (r : Row) : Prop :=
  match r.status with
  | .starting => r.attempts = 1 ∧ r.lastError = none
  | .provisioning => 1 ≤ r.attempts
  | .ready => r.attempts = 0 ∧ r.lastError = none ∧ r.disconnectedAt = none
  | .disconnected => r.disconnectedAt.isSome = true
  | .failed => r.lastError = some Code.spawnFailed ∨
      (r.lastError = some Code.attemptsExceeded ∧ r.attempts = limit)
  | .terminated => False

namespace World

def IsReady (w : World) (id : String) : Prop := ∃ r ∈ w.store.rows, r.id = id ∧ r.status = .ready

instance (w : World) (id : String) : Decidable (w.IsReady id) :=
  inferInstanceAs (Decidable (∃ r ∈ w.store.rows, r.id = id ∧ r.status = .ready))

end World

namespace Turn

/-- The launches of a turn that are for the row with this id: they bear its user and its ticket, and
the turn wrote the row. -/
def launchesFor (p : Policy) (t : Turn) (w : World) (id : String) : List Launch :=
  ((t.run p w).2.launches.drop w.launches.length).filter fun l =>
    ∃ r ∈ (t.run p w).2.store.rows, r.id = id ∧ r.userId = l.userId ∧ r.ticket = l.ticket ∧
      r ∉ w.store.rows

/-- The row with this id becomes ready. -/
def Promotes (p : Policy) (t : Turn) (w : World) (id : String) : Prop :=
  (t.run p w).2.IsReady id ∧ ¬ w.IsReady id

instance (p : Policy) (t : Turn) (w : World) (id : String) : Decidable (t.Promotes p w id) :=
  inferInstanceAs (Decidable (_ ∧ _))

/-- What a turn makes of the number of launches for each row. -/
def account (p : Policy) (t : Turn) (w : World) (count : String → Nat) (id : String) : Nat :=
  if t.Promotes p w id then 0 else count id + (t.launchesFor p w id).length

end Turn

/-- The number of launches made for each row since it was created or last became ready. -/
def tally (p : Policy) : List Turn → World → (String → Nat) → String → Nat
  | [], _, count => count
  | t :: rest, w, count => tally p rest (t.run p w).2 (t.account p w count)

variable {p : Policy} {s : Surroundings} {t : Turn} {w v : World} {r r' x : Row} {limit : Nat}
  {count : String → Nat}

/-! ### One row -/

namespace Row

theorem Fits.of_ready (h : r.Fits limit) (hs : r.status = .ready) : r.attempts = 0 := by
  simp only [Fits, hs] at h
  exact h.1

theorem start_fits (id user org ticket : String) (now : Instant) :
    (start id user org ticket now).Fits limit := ⟨rfl, rfl⟩

theorem promote_fits (r : Row) (now : Instant) : (r.promote now).Fits limit := ⟨rfl, rfl, rfl⟩

theorem retry_fits (r : Row) (ticket : String) (now : Instant) : (r.retry ticket now).Fits limit :=
  Nat.le_add_left 1 r.attempts

theorem Revised.fits {now : Instant} (h : r.Revised p now r') (hr : r.Fits p.settings.maxAttempts)
    (hle : r.attempts ≤ p.settings.maxAttempts) : r'.Fits p.settings.maxAttempts := by
  cases h with
  | promoted => exact promote_fits r now
  | disconnected _ => exact rfl
  | timedOut _ _ => exact rfl
  | exhausted _ spent => exact .inr ⟨rfl, Nat.le_antisymm hle spent⟩
  | beaten => exact hr
  | consumed _ => exact hr

theorem Drifts.fits {now : Instant} (h : r.Drifts p now r') (hr : r.Fits p.settings.maxAttempts)
    (hle : r.attempts ≤ p.settings.maxAttempts) :
    r'.Fits p.settings.maxAttempts ∧ r'.attempts = r.attempts := by
  induction h with
  | refl => exact ⟨hr, rfl⟩
  | tail _ hstep ih => exact ⟨hstep.2.1.fits ih.1 (ih.2 ▸ hle), hstep.2.2.trans ih.2⟩

end Row

theorem Surroundings.Settled.fits (h : s.Settled r x) (hr : r.Fits limit) : x.Fits limit := by
  rcases h with rfl | rfl
  · exact hr
  · exact .inl rfl

theorem Surroundings.Settled.not_ready (h : s.Settled r x) (hr : r.status ≠ .ready) :
    x.status ≠ .ready := by
  rcases h with rfl | rfl
  · exact hr
  · simp [Row.fail]

/-! ### One turn -/

namespace World

/-- The rows bear what was counted for them, and nothing was counted for a row that is not there. -/
structure Accounted (p : Policy) (w : World) (count : String → Nat) : Prop where
  distinct : w.ids.Nodup
  fits : ∀ r ∈ w.store.rows, r.Fits p.settings.maxAttempts
  within : ∀ r ∈ w.store.rows, r.attempts ≤ p.settings.maxAttempts
  counted : ∀ r ∈ w.store.rows, r.attempts = count r.id
  unborn : ∀ id, id ∉ w.ids → count id = 0

theorem IsReady.of_mem (hn : w.ids.Nodup) (hr : r ∈ w.store.rows) (h : w.IsReady r.id) :
    r.status = .ready := by
  obtain ⟨q, hq, hid, hs⟩ := h
  exact eq_of_id hn hq hr hid ▸ hs

theorem not_isReady_of_absent {id : String} (h : id ∉ w.ids) : ¬ w.IsReady id := by
  rintro ⟨r, hr, hid, _⟩
  exact h (List.mem_map.mpr ⟨r, hr, hid⟩)

end World

namespace Turn

open World

theorem launchesFor_eq {launched : List Launch} (h : (t.run p w).2.launches = w.launches ++ launched)
    (id : String) : t.launchesFor p w id = launched.filter fun l =>
      ∃ r ∈ (t.run p w).2.store.rows, r.id = id ∧ r.userId = l.userId ∧ r.ticket = l.ticket ∧
        r ∉ w.store.rows := by
  rw [launchesFor, h, List.drop_left]

/-- While nothing is launched, rows keep their attempts or become ready. -/
theorem account_quiet (ha : w.Accounted p count)
    (hl : (t.run p w).2.launches = w.launches)
    (h : List.Forall₂ (Row.Rewritten p t.surroundings.now) w.store.rows (t.run p w).2.store.rows) :
    (t.run p w).2.Accounted p (t.account p w count) := by
  have hids : (t.run p w).2.ids = w.ids := ids_of_pointwise (h.imp fun _ _ hr => hr.id_eq)
  have hnone (id : String) : t.launchesFor p w id = [] := by
    have hl : (t.run p w).2.launches = w.launches ++ [] := by simpa using hl
    rw [launchesFor_eq hl]
    rfl
  have origin {r' : Row} (hr' : r' ∈ (t.run p w).2.store.rows) :
      ∃ r ∈ w.store.rows, r.Rewritten p t.surroundings.now r' := by
    obtain ⟨i, hi, rfl⟩ := List.mem_iff_getElem.mp hr'
    have hi' : i < w.store.rows.length := h.length_eq ▸ hi
    exact ⟨_, List.getElem_mem hi', h.get hi' hi⟩
  have hn' : (t.run p w).2.ids.Nodup := hids ▸ ha.distinct
  have fits {r' : Row} (hr' : r' ∈ (t.run p w).2.store.rows) :
      r'.Fits p.settings.maxAttempts ∧ r'.attempts ≤ p.settings.maxAttempts := by
    obtain ⟨r, hr, hrow⟩ := origin hr'
    cases hrow with
    | drifted hd =>
      obtain ⟨hfits, hsame⟩ := hd.fits (ha.fits r hr) (ha.within r hr)
      exact ⟨hfits, hsame ▸ ha.within r hr⟩
    | promoted _ => exact ⟨r.promote_fits _, Nat.zero_le _⟩
  refine ⟨hn', fun r' hr' => (fits hr').1, fun r' hr' => (fits hr').2, ?_, ?_⟩
  · intro r' hr'
    rw [account, hnone]
    split
    · rename_i hp
      exact (fits hr').1.of_ready (hp.1.of_mem hn' hr')
    · rename_i hp
      obtain ⟨r, hr, hrow⟩ := origin hr'
      cases hrow with
      | drifted hd =>
        rw [(hd.fits (ha.fits r hr) (ha.within r hr)).2, ha.counted r hr, hd.id_eq]
        rfl
      | promoted _ =>
        have hwas : w.IsReady r.id := by
          by_contra hno
          exact hp ⟨⟨_, hr', rfl, rfl⟩, hno⟩
        have hzero := (ha.fits r hr).of_ready (hwas.of_mem ha.distinct hr)
        rw [ha.counted r hr] at hzero
        exact hzero.symm
  · intro id hid
    rw [account, hnone, if_neg fun hp => not_isReady_of_absent hid hp.1, ha.unborn id (hids ▸ hid)]
    rfl

/-- A launch is counted for the one row that its turn writes. -/
theorem account_launched {l : Launch} (ha : w.Accounted p count)
    (hl : (t.run p w).2.launches = w.launches ++ [l])
    (hn' : (t.run p w).2.ids.Nodup) (hids : ∀ id ∈ w.ids, id ∈ (t.run p w).2.ids)
    (hx : x ∈ (t.run p w).2.store.rows)
    (hrows : ∀ r ∈ (t.run p w).2.store.rows, r = x ∨ r ∈ w.store.rows ∧ r.id ≠ x.id)
    (hnew : x ∉ w.store.rows) (hu : x.userId = l.userId) (ht : x.ticket = l.ticket)
    (hready : x.status ≠ .ready) (hfits : x.Fits p.settings.maxAttempts)
    (hle : x.attempts ≤ p.settings.maxAttempts) (hcount : x.attempts = count x.id + 1) :
    (t.run p w).2.Accounted p (t.account p w count) := by
  have hpromotes (id : String) : ¬ t.Promotes p w id := by
    rintro ⟨⟨r, hr, hid, hs⟩, hno⟩
    rcases hrows r hr with rfl | ⟨hr, _⟩
    · exact hready hs
    · exact hno ⟨r, hr, hid, hs⟩
  have hself : t.launchesFor p w x.id = [l] := by
    rw [launchesFor_eq hl, List.filter_cons_of_pos (by simpa using ⟨x, hx, rfl, hu, ht, hnew⟩)]
    rfl
  have hother {id : String} (h : id ≠ x.id) : t.launchesFor p w id = [] := by
    rw [launchesFor_eq hl, List.filter_eq_nil_iff]
    intro a _ hmem
    obtain ⟨r, hr, hid, _, _, habsent⟩ := of_decide_eq_true hmem
    rcases hrows r hr with rfl | ⟨hr, _⟩
    · exact h hid.symm
    · exact habsent hr
  refine ⟨hn', ?_, ?_, ?_, ?_⟩
  · intro r hr
    rcases hrows r hr with rfl | ⟨hr, _⟩
    · exact hfits
    · exact ha.fits r hr
  · intro r hr
    rcases hrows r hr with rfl | ⟨hr, _⟩
    · exact hle
    · exact ha.within r hr
  · intro r hr
    rw [account, if_neg (hpromotes r.id)]
    rcases hrows r hr with rfl | ⟨hr, hne⟩
    · rw [hself]
      exact hcount
    · rw [hother hne]
      exact ha.counted r hr
  · intro id hid
    have hne : id ≠ x.id := by
      rintro rfl
      exact hid (List.mem_map.mpr ⟨x, hx, rfl⟩)
    rw [account, if_neg (hpromotes id), hother hne, ha.unborn id fun h => hid (hids id h)]
    rfl

/-- Every turn keeps the account. -/
theorem account_step (hmax : 1 ≤ p.settings.maxAttempts) (ha : w.Accounted p count)
    (hf : t.freshId ∉ w.ids) : (t.run p w).2.Accounted p (t.account p w count) := by
  obtain ⟨launched, hl, hw⟩ := t.reaches (p := p) ha.distinct hf
  have hn' := t.distinct (p := p) ha.distinct hf
  generalize hrows : (t.run p w).2.store.rows = rows at hw
  cases hw with
  | quiet h => exact account_quiet ha (by simpa using hl) (hrows ▸ h)
  | opened user org vacant settled =>
    rename_i x
    have hid : x.id = t.freshId := settled.id_eq
    have hnew : x ∉ w.store.rows := fun h => hf (hid ▸ List.mem_map.mpr ⟨x, h, rfl⟩)
    have hids' : (t.run p w).2.ids = w.ids ++ [t.freshId] := by
      rw [ids, hrows, List.map_append, List.map_singleton, hid]
      rfl
    have hattempts : x.attempts = 1 := settled.attempts_eq
    refine account_launched (x := x) ha hl hn' ?_ ?_ ?_ hnew settled.userId_eq settled.ticket_eq
      (settled.not_ready (by simp [Row.start])) (settled.fits (Row.start_fits ..)) (by omega) ?_
    · intro id hm
      rw [hids']
      exact List.mem_append_left _ hm
    · simp [hrows]
    · intro r hr
      rw [hrows, List.mem_append, List.mem_singleton] at hr
      rcases hr with hr | rfl
      · refine .inr ⟨hr, fun h => hf ?_⟩
        exact hid ▸ h ▸ List.mem_map.mpr ⟨r, hr, rfl⟩
      · exact .inl rfl
    · rw [hattempts, hid, ha.unborn _ hf]
  | reopened mem drifts h left settled =>
    rename_i r q x
    obtain ⟨_, hsame⟩ := drifts.fits (ha.fits r mem) (ha.within r mem)
    have hid : x.id = r.id := settled.id_eq.trans drifts.id_eq
    have hattempts : x.attempts = r.attempts + 1 := settled.attempts_eq.trans (congrArg (· + 1) hsame)
    have hids' : (t.run p w).2.ids = w.ids := by
      rw [ids, hrows]
      exact put_ids w x
    have hnew : x ∉ w.store.rows := by
      intro hx
      rw [eq_of_id ha.distinct hx mem hid] at hattempts
      omega
    refine account_launched (x := x) ha hl hn' (fun id hm => hids' ▸ hm) ?_ ?_ hnew
      settled.userId_eq settled.ticket_eq (settled.not_ready (by simp [Row.retry]))
      (settled.fits (Row.retry_fits ..)) (by omega) ?_
    · rw [hrows]
      exact mem_put_self mem hid
    · intro a hmem
      rw [hrows] at hmem
      obtain ⟨b, hb, rfl⟩ := List.mem_map.mp hmem
      by_cases hbx : b.id = x.id
      · simp [hbx]
      · simp [hbx, hb]
    · rw [hattempts, ha.counted r mem, hid]

end Turn

/-! ### Runs -/

/-- No rows yet, kept in either way, and any failures of the store to come. -/
def World.vacant (keeping : Keeping) (faults : List (Option Error)) : World :=
  { store := { keeping := keeping }, faults := faults }

theorem Apart.vacant {turns : List Turn} {keeping : Keeping} {faults : List (Option Error)}
    (fresh : (turns.map Turn.freshId).Nodup) : Apart turns (.vacant keeping faults) :=
  ⟨List.nodup_nil, fun _ _ => List.not_mem_nil, fresh⟩

theorem World.Accounted.play {turns : List Turn} (hmax : 1 ≤ p.settings.maxAttempts)
    (ha : w.Accounted p count) (h : Apart turns w) :
    (play p turns w).2.Accounted p (tally p turns w count) := by
  induction turns generalizing w count with
  | nil => exact ha
  | cons t rest ih => exact ih (Turn.account_step hmax ha h.unusedId) h.step

/-- Over any operations, on either kind of store and whatever accesses to it fail: the attempts of a
row are the launches made for it since it was created or last became ready, they stay within the
limit, and the row's other fields fit its status. -/
theorem attempts_are_accounted (p : Policy) (hmax : 1 ≤ p.settings.maxAttempts) (keeping : Keeping)
    (faults : List (Option Error)) (turns : List Turn) (fresh : (turns.map Turn.freshId).Nodup) :
    ∀ r ∈ (play p turns (.vacant keeping faults)).2.store.rows,
      r.attempts = tally p turns (.vacant keeping faults) (fun _ => 0) r.id ∧
      r.attempts ≤ p.settings.maxAttempts ∧ r.Fits p.settings.maxAttempts := by
  have ha : (World.vacant keeping faults).Accounted p fun _ => 0 := by
    refine ⟨List.nodup_nil, ?_, ?_, ?_, fun _ _ => rfl⟩
    all_goals
      intro r hr
      cases hr
  have hend := ha.play hmax (.vacant fresh)
  exact fun r hr => ⟨hend.counted r hr, hend.within r hr, hend.fits r hr⟩

/-- Three bootstraps are launched for a row and a fourth is not, because the store fails; what counts
is the one launched since its machine connected. -/
theorem attempts_after_a_promotion :
    let p : Policy := ⟨{}, ⟨"secret", 600⟩⟩
    let turn (n : Int) (op : Operation) : Turn :=
      ⟨⟨⟨n, 0⟩, 0, s!"row-{n}", s!"ticket-{n}", .ok ()⟩, op⟩
    let turns : List Turn := [turn 0 (.ensure "u" "o" false), turn 1 (.force "u" "o"),
      turn 2 (.connected "u"), turn 3 (.force "u" "o"), turn 4 (.force "u" "o")]
    let w : World := .vacant .table (List.replicate 12 none ++ [some (.store "disk full")])
    1 ≤ p.settings.maxAttempts ∧ (turns.map Turn.freshId).Nodup ∧
    (play p turns w).2.launches.length = 3 ∧
    (play p turns w).2.store.rows.map (fun r => (r.status, r.attempts)) = [(.disconnected, 1)] ∧
    tally p turns w (fun _ => 0) "row-0" = 1 ∧
    ∀ r ∈ (play p turns w).2.store.rows, r.attempts = tally p turns w (fun _ => 0) r.id ∧
      r.attempts ≤ p.settings.maxAttempts ∧ r.Fits p.settings.maxAttempts := by
  intro p turn turns w
  have hfresh : (turns.map Turn.freshId).Nodup := by decide +kernel
  exact ⟨by decide, hfresh, by decide +kernel, by decide +kernel, by decide +kernel,
    attempts_are_accounted p (by decide) _ _ turns hfresh⟩

end Fleet.Vm
