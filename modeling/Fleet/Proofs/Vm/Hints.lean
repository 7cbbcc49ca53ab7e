import Fleet.Http.Message
import Fleet.Proofs.Vm.Storing

/-!
What a user is told to wait, on either kind of store. A hint is the rest of the cooldown of the user's last
row; until it has passed the same request finds the same row, and the first request after it launches.
-/

namespace Fleet

namespace Instant

/-- A reading of a clock that counts milliseconds. -/
structure OnMilli (t : Instant) : Prop where
  nanos : t.nanos < perSecond
  exact : t.nanos % perMilli = 0

instance (t : Instant) : Decidable t.OnMilli :=
  decidable_of_iff (t.nanos < perSecond ∧ t.nanos % perMilli = 0) ⟨fun ⟨h, h'⟩ => ⟨h, h'⟩, fun ⟨h, h'⟩ => ⟨h, h'⟩⟩

/-- Milliseconds since the start of 1970. -/
def millis (t : Instant) : Int := t.seconds * 1000 + (t.nanos / perMilli : Nat)

variable {a b : Instant}

theorem OnMilli.not_leap (h : a.OnMilli) : a.isLeap = false := by
  have := h.nanos
  simp [isLeap, this]

theorem millisSince_eq (ha : a.OnMilli) (hb : b.OnMilli) : a.millisSince b = a.millis - b.millis := by
  have hnanos (t : Instant) (ht : t.OnMilli) : (t.nanos : Int) = (t.nanos / perMilli : Nat) * perMilli := by
    have := ht.exact
    unfold perMilli at *
    omega
  have hexact : (a.seconds - b.seconds + 0) * (perSecond : Int) + (a.nanos - b.nanos) =
      (a.millis - b.millis) * perMilli := by
    rw [hnanos a ha, hnanos b hb]
    unfold millis perSecond perMilli
    omega
  unfold millisSince
  simp only [ha.not_leap, hb.not_leap, Bool.false_eq_true, and_false, ↓reduceIte]
  rw [hexact]
  exact Int.mul_tdiv_cancel _ (by decide)

theorem millis_mono (ha : a.OnMilli) (h : a ≤ b) : a.millis ≤ b.millis := by
  have := ha.nanos
  unfold millis perSecond perMilli at *
  rcases h with rfl | h | ⟨hs, hn⟩
  · exact Int.le_refl _
  · omega
  · omega

end Instant

namespace Vm

/-- The user's last row has a bootstrap due as soon as its cooldown is over. -/
structure World.Waits (p : Policy) (w : World) (user : String) (row : Row) : Prop where
  last : w.store.latest? user = some row
  due : row.status = .disconnected ∧ row.attempts < p.settings.maxAttempts ∨
    row.status = .failed ∧ row.lastError ≠ some Code.attemptsExceeded ∧
      Store.hasLive w.store.rows user = false

/-- Every row's bootstrap was launched at a reading in milliseconds. -/
def World.Metered (w : World) : Prop := ∀ r ∈ w.store.rows, ∃ b, r.lastBootstrapAt = some b ∧ b.OnMilli

variable {p : Policy} {s : Surroundings} {t : Turn} {w u : World} {user org : String} {r q row : Row}
  {o : Outcome} {hint : Nat} {now : Instant}

open Work World

/-! ### Readings -/

namespace World

theorem Metered.run (hw : w.Metered) (hn : w.ids.Nodup) (hf : t.freshId ∉ w.ids)
    (ht : t.surroundings.now.OnMilli) : (t.run p w).2.Metered := by
  obtain ⟨launched, -, hwrote⟩ := t.reaches (p := p) hn hf
  intro x hx
  generalize (t.run p w).2.store.rows = rows at hx hwrote
  cases hwrote with
  | quiet h =>
    obtain ⟨i, hi, rfl⟩ := List.mem_iff_getElem.mp hx
    have hi' : i < w.store.rows.length := h.length_eq ▸ hi
    have hrow : Row.Rewritten p t.surroundings.now w.store.rows[i] rows[i] := h.get hi' hi
    rw [hrow.lasts.lastBootstrapAt_eq]
    exact hw _ (List.getElem_mem hi')
  | opened user org vacant settled =>
    rcases List.mem_append.mp hx with hx | hx
    · exact hw x hx
    · rw [List.mem_singleton.mp hx, settled.lastBootstrapAt_eq]
      exact ⟨_, rfl, ht⟩
  | reopened mem drifts h left settled =>
    rcases mem_put (w := holding w.store.rows) hx with rfl | ⟨hx, -⟩
    · rw [settled.lastBootstrapAt_eq]
      exact ⟨_, rfl, ht⟩
    · exact hw x hx

theorem Metered.play {turns : List Turn} (hw : w.Metered) (h : Apart turns w)
    (metered : ∀ t ∈ turns, t.surroundings.now.OnMilli) : (play p turns w).2.Metered :=
  h.keeps (I := Metered) (fun t ht _ hn hf hu => hu.run hn hf (metered t ht)) hw

end World

theorem Turn.since_eq {earlier : Turn} (ht : t.surroundings.now.OnMilli)
    (he : earlier.surroundings.now.OnMilli) :
    t.since earlier = (t.surroundings.now.millis - earlier.surroundings.now.millis).toNat := by
  rw [since, Instant.millisSince_eq ht he]

namespace Policy

theorem cooldownLeft_eq {b : Instant} (h : r.lastBootstrapAt = some b) (hb : b.OnMilli) (hn : now.OnMilli) :
    p.cooldownLeft r now = p.settings.cooldown - (now.millis - b.millis).toNat := by
  unfold cooldownLeft Row.msSinceBootstrap
  rw [h]
  dsimp only
  rw [Instant.millisSince_eq hn hb]

/-- What is left of a cooldown gets less by the time that passes. -/
theorem cooldownLeft_later {t u : Turn} {b : Instant} (h : r.lastBootstrapAt = some b) (hb : b.OnMilli)
    (ht : t.surroundings.now.OnMilli) (hu : u.surroundings.now.OnMilli) (begun : b ≤ t.surroundings.now)
    (later : t.surroundings.now ≤ u.surroundings.now) :
    p.cooldownLeft r u.surroundings.now = p.cooldownLeft r t.surroundings.now - u.since t := by
  have h1 := Instant.millis_mono hb begun
  have h2 := Instant.millis_mono ht later
  rw [cooldownLeft_eq h hb hu, cooldownLeft_eq h hb ht, Turn.since_eq hu ht]
  omega

end Policy

/-! ### A request with a hint -/

namespace World

theorem Listed.single (hw : w.Listed now) : w.Single := by
  refine ⟨hw.distinct, fun q hq r hr hu hlq hlr => ?_⟩
  have hlast := hw.latest?_of_live hq hlq
  rw [hu, hw.latest?_of_live hr hlr] at hlast
  exact (Option.some.inj hlast).symm

/-- Only the last row can be live. -/
theorem Listed.hasLive_eq (hw : w.Listed now) (h : w.store.latest? user = some r) (hr : r.isLive = false) :
    Store.hasLive w.store.rows user = false := by
  refine List.any_eq_false.mpr fun a ha hlive => ?_
  rw [Bool.and_eq_true] at hlive
  have hlast := hw.latest?_of_live ha hlive.2
  have hu : a.userId = user := by simpa [Store.ofUser] using hlive.1
  rw [hu, h] at hlast
  rw [Option.some.inj hlast, hlive.2] at hr
  cases hr

end World

namespace Policy

/-- Where a disconnected row is not brought up, the hint is what is left of its cooldown. -/
theorem recover_hints (hu : u.Lone) (last : u.store.latest? user = some q) (hs : q.status = .disconnected)
    (quiet : ¬ (q.attempts < p.settings.maxAttempts ∧ p.cooldownLeft q s.now = 0))
    (told : (p.recover s q false u).1 = .ok o) (hhint : o.retryAfterMs = some hint) :
    (p.recover s q false u).2 = u ∧ q.attempts < p.settings.maxAttempts ∧ o = .notReady q (some hint) ∧
      hint = p.cooldownLeft q s.now := by
  have hq := mem_of_latest? last
  have hl : q.isLive = true := by simp [Row.isLive, hs, Status.isTerminal]
  unfold recover at told ⊢
  by_cases hmax : p.settings.maxAttempts ≤ q.attempts
  · -- a row that is given up comes without a hint
    have hup : Work.update (q.fail Code.attemptsExceeded s.now) u = _ := hu.update hq hl rfl rfl rfl
    rw [if_pos hmax, bind_of_ok hup] at told
    cases told
    cases hhint
  · have hcool : (!false && decide (p.cooldownLeft q s.now > 0)) = true := by
      simp only [Bool.not_false, Bool.true_and, decide_eq_true_eq]
      omega
    rw [if_neg hmax, if_pos hcool] at told ⊢
    cases told
    cases hhint
    exact ⟨rfl, by omega, rfl, rfl⟩

/-- A live row that is disconnected first is then the user's last one. -/
theorem demote_hints (hw : w.Lone) (last : w.store.latest? user = some r) (hl : r.isLive = true)
    (h : r.Revised p s.now q) (hs : q.status = .disconnected)
    (quiet : ¬ (q.attempts < p.settings.maxAttempts ∧ p.cooldownLeft q s.now = 0))
    (told : (p.demoteAndRecover s q w).1 = .ok o) (hhint : o.retryAfterMs = some hint) :
    (p.demoteAndRecover s q w).2.store.latest? user = some q ∧ q.attempts < p.settings.maxAttempts ∧
      o = .notReady q (some hint) ∧ hint = p.cooldownLeft q s.now := by
  have hr := mem_of_latest? last
  have hup : Work.update q w = (.ok (), w.put q) := hw.update hr hl h.id_eq h.userId_eq h.createdAt_eq
  have last' : (w.put q).store.latest? user = some q :=
    latest?_put hw.distinct last h.id_eq h.userId_eq h.createdAt_eq
  unfold demoteAndRecover at told ⊢
  rw [bind_of_ok hup] at told ⊢
  obtain ⟨hsame, hrest⟩ := recover_hints (hw.put hr hl h.id_eq h.userId_eq) last' hs quiet told hhint
  rw [hsame]
  exact ⟨last', hrest⟩

/-- A request that launches nothing and reports a machine as lost or failed, with a hint. -/
theorem ensure_hints (hw : w.Lone) (hdue : ¬ p.Due s.now false (w.store.latest? user))
    (told : (p.ensure s user org false w).1 = .ok o) (hstatus : o.status = .disconnected ∨ o.status = .failed)
    (hhint : o.retryAfterMs = some hint) :
    (p.ensure s user org false w).2.store.latest? user = some o.row ∧
      (o.status = .disconnected ∧ o.row.attempts < p.settings.maxAttempts ∨
        o.status = .failed ∧ o.row.lastError ≠ some Code.attemptsExceeded) ∧
      o = .notReady o.row (some hint) ∧ hint = p.cooldownLeft o.row s.now := by
  unfold ensure at told ⊢
  rw [bind_of_ok (hw.read user)] at told ⊢
  cases hlast : w.store.latest? user with
  | none =>
    rw [hlast] at hdue
    exact absurd trivial hdue
  | some r =>
    rw [hlast] at told hdue
    have live (h : r.status.isTerminal = false) : r.isLive = true := by simp [Row.isLive, h]
    have waited (hs : r.status.isPending = true)
        (hdue : ¬ (p.settings.bootstrapTimeout ≤ r.msSinceBootstrap s.now ∧
          r.attempts < p.settings.maxAttempts ∧ p.cooldownLeft r s.now = 0))
        (told : ((if p.settings.bootstrapTimeout ≤ r.msSinceBootstrap s.now then
            p.demoteAndRecover s { r.disconnect s.now with lastError := some Code.timedOut }
          else return .notReady r (some p.settings.readyRetry) : Work Outcome) w).1 = .ok o) :
        ((if p.settings.bootstrapTimeout ≤ r.msSinceBootstrap s.now then
            p.demoteAndRecover s { r.disconnect s.now with lastError := some Code.timedOut }
          else return .notReady r (some p.settings.readyRetry) : Work Outcome) w).2.store.latest? user =
            some o.row ∧
          (o.status = .disconnected ∧ o.row.attempts < p.settings.maxAttempts ∨
            o.status = .failed ∧ o.row.lastError ≠ some Code.attemptsExceeded) ∧
          o = .notReady o.row (some hint) ∧ hint = p.cooldownLeft o.row s.now := by
      by_cases late : p.settings.bootstrapTimeout ≤ r.msSinceBootstrap s.now
      · rw [if_pos late] at told ⊢
        obtain ⟨hlast, left, rfl, hcool⟩ := demote_hints hw hlast (Row.isLive_of_pending hs) (.timedOut hs late)
          rfl (fun h => hdue ⟨late, h⟩) told hhint
        exact ⟨hlast, .inl ⟨rfl, left⟩, rfl, hcool⟩
      · rw [if_neg late] at told
        cases told
        have hpending : r.status = .disconnected ∨ r.status = .failed := hstatus
        rcases hpending with h | h <;> rw [h] at hs <;> cases hs
    unfold Due at hdue
    cases hs : r.status <;> simp only [hs, Bool.false_eq_true, ↓reduceIte, true_and] at told hdue ⊢
    case terminated => exact absurd trivial hdue
    case failed =>
      split at told
      · cases told
        cases hhint
      · rename_i hcode
        split at told
        · rename_i hcool
          rw [if_neg hcode, if_pos hcool]
          cases told
          cases hhint
          exact ⟨hlast, .inr ⟨hs, hcode⟩, rfl, rfl⟩
        · exact absurd ⟨hcode, by omega⟩ hdue
    case starting => exact waited (by rw [hs]; rfl) hdue told
    case provisioning => exact waited (by rw [hs]; rfl) hdue told
    case ready =>
      obtain ⟨hlast, left, rfl, hcool⟩ := demote_hints hw hlast (live (by rw [hs]; rfl))
        (.disconnected (by simp [hs])) rfl hdue told hhint
      exact ⟨hlast, .inl ⟨rfl, left⟩, rfl, hcool⟩
    case disconnected =>
      obtain ⟨hsame, left, rfl, hcool⟩ := recover_hints hw hlast hs hdue told hhint
      rw [hsame]
      exact ⟨hlast, .inl ⟨hs, left⟩, rfl, hcool⟩

end Policy

namespace Turn

/-- What launches is answered with a hint for a failed row only where the launcher refused. -/
theorem Stores.hints {prepare write : Work Unit} (h : t.Stores p w user prepare write r) (hw : w.faults = [])
    (told : (t.run p w).1 = .ok (.outcome o)) (hstatus : o.status = .disconnected ∨ o.status = .failed) :
    o = .notReady (r.fail Code.spawnFailed t.surroundings.now) (some p.settings.cooldown) ∧
      (t.run p w).2.store.latest? user = some o.row := by
  have hself : w.meeting [] = w := by rw [← hw]; rfl
  rcases hstored : (do prepare; write : Work Unit) (w.meeting []) with ⟨e | ⟨⟩, v⟩
  · have hrun := (h.unwritten _ _ _ hstored).1
    rw [hself] at hrun
    rw [hrun] at told
    cases told
  have hv : v.faults = [] := by
    have hprepare : prepare.Within fun a b => a.faults = [] → b.faults = [] := by
      rcases h.prepares with rfl | ⟨q, rfl⟩
      · exact faultless.map (faultless.latest? user) _
      · exact (faultless.map (faultless.latest? user) _).bind faultless fun _ _ => faultless.update q
    have hwrite : write.Within fun a b => a.faults = [] → b.faults = [] := by
      rcases h.writes with rfl | rfl
      · exact faultless.insert r
      · exact faultless.update r
    have hboth := (hprepare.bind faultless fun _ _ => hwrite) (w.meeting []) rfl
    rwa [hstored] at hboth
  cases hl : t.surroundings.launched with
  | error e =>
    obtain ⟨o', hrun, ho', hlast, -⟩ := h.refused _ _ _ hstored (by intro e he; simp [hv] at he) hl
    rw [hself] at hrun hlast
    rw [hrun] at told
    cases told
    exact ⟨ho', hlast⟩
  | ok a =>
    have hrun := h.runs []
    rw [hself, ← bind_assoc, ← hself, bind_of_ok hstored] at hrun
    unfold Policy.launch at hrun
    rw [hl] at hrun
    rw [hself] at hrun
    rw [hrun] at told
    cases told
    have hpending := h.pending
    have hs : r.status = .disconnected ∨ r.status = .failed := hstatus
    rcases hs with hs | hs <;> rw [hs] at hpending <;> cases hpending

/-- A request that reports a machine as lost or failed, with a hint: the user's last row is the reported one and
the hint is what is left of its cooldown. -/
theorem hints (hw : w.Lone) (hl : w.Listed now) (hf : t.freshId ∉ w.ids)
    (clock : w.store.keeping = .table → now ≤ t.surroundings.now ∧ t.surroundings.now.Stamped)
    (hop : t.operation = .ensure user org false) (told : (t.run p w).1 = .ok (.outcome o))
    (hstatus : o.status = .disconnected ∨ o.status = .failed) (hhint : o.retryAfterMs = some hint) :
    (t.run p w).2.Waits p user o.row ∧ o = .notReady o.row (some hint) ∧
      hint = p.cooldownLeft o.row t.surroundings.now := by
  by_cases hdue : p.Due t.surroundings.now false (w.store.latest? user)
  · have order (hk : w.store.keeping = .table) (q : Row) (hq : q ∈ w.store.rows) (_ : q.userId = user) :
        Store.timeText q.createdAt ≤ Store.timeText t.surroundings.now := by
      obtain ⟨hle, hs⟩ := hl.past hk _ (List.mem_map.mpr ⟨q, hq, rfl⟩)
      exact Store.timeText_mono hs (clock hk).2 (Instant.le_trans hle (clock hk).1)
    obtain ⟨prepare, write, r, hstores⟩ := t.ensure_stores hw.single hf order hop hdue
    obtain ⟨rfl, hlast⟩ := hstores.hints hw.faultless told hstatus
    cases hhint
    have hnone := (hl.run (p := p) hf clock).hasLive_eq hlast rfl
    have hcode : some Code.spawnFailed ≠ some Code.attemptsExceeded := by decide
    refine ⟨⟨hlast, .inr ⟨rfl, hcode, hnone⟩⟩, rfl, ?_⟩
    have hbegun : (r.fail Code.spawnFailed t.surroundings.now).lastBootstrapAt = some t.surroundings.now :=
      hstores.lastBootstrapAt_eq
    simp [Policy.cooldownLeft, Row.msSinceBootstrap, Outcome.notReady, hbegun, Instant.millisSince]
  · have hrun : t.run p w = (do let o ← p.ensure t.surroundings user org false; return .outcome o : Work Answer) w := by
      rw [run, hop]
      rfl
    rw [hrun, bind_apply] at told
    rcases hens : p.ensure t.surroundings user org false w with ⟨e | o', v⟩ <;> rw [hens] at told <;> cases told
    have hsame : (t.run p w).2 = v := by
      rw [hrun, bind_of_ok hens]
      rfl
    obtain ⟨hlast, hopen, ho, hcool⟩ := Policy.ensure_hints hw hdue (congrArg Prod.fst hens) hstatus hhint
    rw [hens] at hlast
    refine ⟨⟨hsame ▸ hlast, hopen.imp id fun h => ⟨h.1, h.2, ?_⟩⟩, ho, hcool⟩
    exact (hl.run (p := p) hf clock).hasLive_eq (hsame ▸ hlast) (by
      have hs : o.row.status = .failed := h.1
      simp [Row.isLive, hs, Status.isTerminal])

end Turn

/-! ### While the hint holds -/

namespace World.Waits

variable {v : World}

theorem of_only (h : w.Waits p user row) (hv : v.only user = w.only user) : v.Waits p user row := by
  refine ⟨?_, ?_⟩
  · rw [← latest?_only, hv, latest?_only]
    exact h.last
  · rw [← hasLive_only v, hv, hasLive_only]
    exact h.due

/-- The user has no machine that is ready. -/
theorem not_ready (h : w.Waits p user row) (hw : w.Lone) (hq : q ∈ w.store.rows) (hu : q.userId = user) :
    q.status ≠ .ready := by
  intro hs
  have hl : q.isLive = true := by simp [Row.isLive, hs, Status.isTerminal]
  rcases h.due with ⟨hrow, -⟩ | ⟨-, -, hnone⟩
  · have hlive : row.isLive = true := by simp [Row.isLive, hrow, Status.isTerminal]
    have hsame := hw.alone q hq row (mem_of_latest? h.last) (hu.trans (userId_of_latest? h.last).symm) hl hlive
    rw [hsame, hrow] at hs
    cases hs
  · exact not_live_of_hasLive hnone hq hu hl

/-- Before the cooldown is over a request finds the row and leaves it. -/
theorem told (h : w.Waits p user row) (hw : w.Lone) (hop : t.operation = .ensure user org false)
    (cool : 0 < p.cooldownLeft row t.surroundings.now) :
    t.run p w = (.ok (.outcome (.notReady row (some (p.cooldownLeft row t.surroundings.now)))), w) := by
  have hensure : p.ensure t.surroundings user org false w =
      (.ok (.notReady row (some (p.cooldownLeft row t.surroundings.now))), w) := by
    unfold Policy.ensure
    rw [bind_of_ok (hw.read user), h.last]
    rcases h.due with ⟨hs, left⟩ | ⟨hs, hcode, -⟩
    · have hwait : (!false && decide (p.cooldownLeft row t.surroundings.now > 0)) = true := by simp [cool]
      simp only [hs, Bool.false_eq_true, ↓reduceIte, Policy.recover, if_neg (Nat.not_le.mpr left), hwait]
      rfl
    · simp only [hs, if_neg hcode, if_pos cool]
      rfl
  rw [Turn.run, hop]
  exact bind_of_ok hensure

/-- Once the cooldown is over a request launches one bootstrap. -/
theorem launches (h : w.Waits p user row) (hw : w.Lone) (hf : t.freshId ∉ w.ids)
    (hop : t.operation = .ensure user org false) (cool : p.cooldownLeft row t.surroundings.now = 0) :
    ∃ l, l.userId = user ∧ (t.run p w).2.launches = w.launches ++ [l] := by
  have hrow := mem_of_latest? h.last
  have hu := userId_of_latest? h.last
  rw [Turn.run, hop, Operation.work, bind_pure_world]
  unfold Policy.ensure
  rw [bind_of_ok (hw.read user), h.last]
  rcases h.due with ⟨hs, left⟩ | ⟨hs, hcode, hnone⟩
  · have hl : row.isLive = true := by simp [Row.isLive, hs, Status.isTerminal]
    have hup : Work.update (row.retry t.surroundings.freshTicket t.surroundings.now) w = _ :=
      hw.update hrow hl rfl rfl rfl
    simp only [hs, Bool.false_eq_true, ↓reduceIte]
    rw [Policy.recover_again left fun _ => cool, bind_of_ok hup, Policy.launch_launches]
    exact ⟨_, hu, rfl⟩
  · simp only [hs, if_neg hcode, if_neg (show ¬ p.cooldownLeft row t.surroundings.now > 0 by omega)]
    rw [Policy.startFresh_launches hw hf, hnone]
    exact ⟨_, rfl, rfl⟩

/-- A sweep finds nothing of the user that is stale. -/
theorem only_sweep (h : w.Waits p user row) (hw : w.Lone) (ht : t.operation.user? = none) :
    (t.run p w).2.only user = w.only user := by
  rw [← Turn.sweep_only hw ht]
  obtain ⟨timeoutMs, hop⟩ : ∃ timeoutMs, t.operation = .sweep timeoutMs := by
    cases hop : t.operation <;> rw [hop] at ht <;> cases ht
    exact ⟨_, rfl⟩
  unfold Turn.run Operation.work
  rw [hop]
  cases hcut : cutoff? t.surroundings.now timeoutMs with
  | none =>
    simp only [hcut]
    rfl
  | some cutoff =>
    have hnone : (w.only user).store.byStatus .ready = [] := by
      refine List.filter_eq_nil_iff.mpr fun q hq hs => ?_
      obtain ⟨hq, hu⟩ := mem_only.mp (mem_listing.mp hq)
      exact h.not_ready hw hq hu (eq_of_beq hs)
    have hstale := staleRows_eq (hw.only user) cutoff
    rw [hnone] at hstale
    simp only [hcut]
    rw [bind_pure_world, sweep, bind_of_ok hstale]
    rfl

/-- What the user has stays as it is while the user only asks, and gets the same answer. -/
theorem only_play {turns : List Turn} (h : w.Waits p user row) (hw : w.Lone) (ha : Apart turns w)
    (asks : ∀ t ∈ turns, t.operation.user? = some user → (∃ org, t.operation = .ensure user org false) ∧
      0 < p.cooldownLeft row t.surroundings.now) :
    (play p turns w).2.only user = w.only user ∧ (play p turns w).2.Lone := by
  induction turns generalizing w with
  | nil => exact ⟨rfl, hw⟩
  | cons t rest ih =>
    have hf := ha.unusedId
    have hstep : (t.run p w).2.only user = w.only user := by
      cases hu : t.operation.user? with
      | none => exact h.only_sweep hw hu
      | some other =>
        by_cases hother : other = user
        · subst hother
          obtain ⟨⟨org, hop⟩, cool⟩ := asks t List.mem_cons_self hu
          rw [h.told hw hop cool]
        · exact Turn.only_run hw hf (by simp [Turn.concerns, Turn.isOf, hu, hother])
    obtain ⟨honly, hlone⟩ := ih (h.of_only hstep) (hw.run hf) ha.step fun u hu =>
      asks u (List.mem_cons_of_mem _ hu)
    exact ⟨honly.trans hstep, hlone⟩

end World.Waits

/-! ### Runs -/

/-- A hint in the text of an error and in the header of an answer is one number of seconds, and no less. -/
theorem Outcome.hint_in_seconds (o : Outcome) (hready : o.ready = false) (hhint : o.retryAfterMs = some hint) :
    ∃ e, o.result = .error e ∧ hint ≤ 1000 * retrySeconds hint ∧
      e.message = s!"Execution plane not ready (status: {o.status.name}), retry in {retrySeconds hint}s" ∧
      (Http.Response.ofError e).headers.lookup "retry-after" = some (toString (retrySeconds hint)) := by
  refine ⟨.notReady o.status.name (some hint) o.lastError, ?_, ?_, rfl, rfl⟩
  · simp [result, hready, hhint]
  · unfold retrySeconds
    omega

/-- Over any operations of any users, on either kind of store, with readings of the clock in milliseconds: a
request that is told at one reading, no earlier than its row's last bootstrap, that the machine is lost or
failed, and how long to wait, is told the truth. As long as its user only asks again within that time, each
request is answered with the same row and what is left of the time, and changes nothing; the first request after
it launches one bootstrap. The seconds in the text of the error are those in the header, and no less than the
hint. -/
theorem hints_are_exact (p : Policy) (keeping : Keeping) (faults : List (Option Error)) (early : List Turn)
    (t : Turn) (mid : List Turn) (u : Turn) (user : String) (o : Outcome) (hint : Nat)
    (fresh : ((early ++ t :: (mid ++ [u])).map Turn.freshId).Nodup)
    (metered : ∀ x ∈ early ++ t :: (mid ++ [u]), x.surroundings.now.OnMilli)
    (clock : keeping = .table →
      ((early ++ t :: (mid ++ [u])).map fun x => x.surroundings.now).Pairwise (· ≤ ·) ∧
      ∀ x ∈ early ++ t :: (mid ++ [u]), x.surroundings.now.Stamped)
    (works : (play p early (.vacant keeping faults)).2.faults = [])
    (asked : ∃ org, t.operation = .ensure user org false)
    (told : (t.run p (play p early (.vacant keeping faults)).2).1 = .ok (.outcome o))
    (status : o.status = .disconnected ∨ o.status = .failed) (hinted : o.retryAfterMs = some hint)
    (begun : ∀ b, o.row.lastBootstrapAt = some b → b ≤ t.surroundings.now)
    (asks : ∀ x ∈ mid, x.operation.user? = some user → (∃ org, x.operation = .ensure user org false) ∧
      t.surroundings.now ≤ x.surroundings.now ∧ x.since t < hint)
    (again : ∃ org, u.operation = .ensure user org false) (later : t.surroundings.now ≤ u.surroundings.now) :
    let w := (play p (early ++ t :: mid) (.vacant keeping faults)).2
    (u.since t < hint → u.run p w = (.ok (.outcome (.notReady o.row (some (hint - u.since t)))), w)) ∧
    (hint ≤ u.since t → ∃ l, l.userId = user ∧ (u.run p w).2.launches = w.launches ++ [l]) ∧
    ∀ q : Outcome, ∀ hint', q.ready = false → q.retryAfterMs = some hint' →
      ∃ e seconds, q.result = .error e ∧ hint' ≤ 1000 * seconds ∧
        e.message = s!"Execution plane not ready (status: {q.status.name}), retry in {seconds}s" ∧
        (Http.Response.ofError e).headers.lookup "retry-after" = some (toString seconds) := by
  intro w
  obtain ⟨org, hop⟩ := asked
  obtain ⟨org', hop'⟩ := again
  obtain ⟨start, hstart⟩ : ∃ now, Paced (early ++ t :: (mid ++ [u])) now (.vacant keeping faults) :=
    Paced.vacant fresh clock
  obtain ⟨now, hpaced⟩ := hstart.append (p := p)
  have hearly : Apart early (.vacant keeping faults) := hstart.apart.first
  have hwas := hpaced.listed
  have hafter := hpaced.step (p := p)
  have hlone : (play p early (.vacant keeping faults)).2.Lone := ⟨hwas.distinct, works, hwas.single.alone⟩
  have hmetered : (play p early (.vacant keeping faults)).2.Metered :=
    Metered.play (fun _ h => absurd h List.not_mem_nil) hearly fun x hx => metered x (List.mem_append_left _ hx)
  have htime : t.surroundings.now.OnMilli := metered t (by simp)
  obtain ⟨hwaits, ho, hcool⟩ := Turn.hints hlone hwas hpaced.unusedId hpaced.onward hop told status hinted
  obtain ⟨b, hb, hbm⟩ := hmetered.run hwas.distinct hpaced.unusedId htime _ (mem_of_latest? hwaits.last)
  have hleft (x : Turn) (hx : x ∈ mid ++ [u]) (hlater : t.surroundings.now ≤ x.surroundings.now) :
      p.cooldownLeft o.row x.surroundings.now = hint - x.since t := by
    rw [hcool]
    have hxm : x.surroundings.now.OnMilli :=
      metered x (List.mem_append_right _ (List.mem_cons_of_mem _ hx))
    exact Policy.cooldownLeft_later hb hbm htime hxm (begun b hb) hlater
  obtain ⟨honly, hlone'⟩ := hwaits.only_play (hlone.run hpaced.unusedId) hafter.apart.first fun x hx hu => by
      obtain ⟨hasks, hlater, hsince⟩ := asks x hx hu
      refine ⟨hasks, ?_⟩
      rw [hleft x (List.mem_append_left _ hx) hlater]
      omega
  have hw : w = (play p mid (t.run p (play p early (.vacant keeping faults)).2).2).2 := by
    simp only [w, play_append]
    rfl
  obtain ⟨_, hlast⟩ := hafter.append (p := p)
  rw [← hw] at honly hlone' hlast
  have hwaits' := hwaits.of_only honly
  have hcool' := hleft u (List.mem_append_right _ (List.mem_singleton.mpr rfl)) later
  refine ⟨fun hsince => ?_, fun hsince => ?_, fun o' hint' hready hhint => ?_⟩
  · rw [← hcool']
    exact hwaits'.told hlone' hop' (by omega)
  · exact hwaits'.launches hlone' hlast.unusedId hop' (by omega)
  · obtain ⟨e, he, hle, hmessage, hheader⟩ := o'.hint_in_seconds hready hhint
    exact ⟨e, _, he, hle, hmessage, hheader⟩

/-- A machine is lost two seconds after its bootstrap and a cooldown is five seconds: who is told to wait for
three is told so again, less what has passed, and then the machine is brought up. -/
theorem told_to_wait_three_seconds :
    let p : Policy := ⟨{ cooldown := 5000 }, ⟨"secret", 600⟩⟩
    let turn (ms : Int) (op : Operation) : Turn :=
      ⟨⟨⟨ms / 1000, (ms % 1000).toNat * 1000000⟩, 0, s!"row-{ms}", s!"ticket-{ms}", .ok ()⟩, op⟩
    let early := [turn 0 (.ensure "u" "o" false), turn 1000 (.connected "u")]
    let t := turn 2000 (.ensure "u" "o" false)
    let mid := [turn 2500 (.ensure "v" "o" false), turn 3000 (.ensure "u" "o" false), turn 3500 (.sweep 0)]
    let w := (play p (early ++ t :: mid) (.vacant .arrival [])).2
    let row := ((Row.start "row-0" "u" "o" "ticket-0" ⟨0, 0⟩).promote ⟨1, 0⟩).disconnect ⟨2, 0⟩
    (t.run p (play p early (.vacant .arrival [])).2).1 = .ok (.outcome (.notReady row (some 3000))) ∧
    (turn 4250 (.ensure "u" "o" false)).run p w = (.ok (.outcome (.notReady row (some 750))), w) ∧
    ∃ l, l.userId = "u" ∧ ((turn 5000 (.ensure "u" "o" false)).run p w).2.launches = w.launches ++ [l] := by
  intro p turn early t mid w row
  have told : (t.run p (play p early (.vacant .arrival [])).2).1 = .ok (.outcome (.notReady row (some 3000))) := by
    decide +kernel
  have asks : ∀ x ∈ mid, x.operation.user? = some "u" → (∃ org, x.operation = .ensure "u" org false) ∧
      t.surroundings.now ≤ x.surroundings.now ∧ x.since t < 3000 := by
    intro x hx hu
    have hall : ∀ x ∈ mid, x.operation.user? = some "u" → x.operation = .ensure "u" "o" false ∧
        t.surroundings.now ≤ x.surroundings.now ∧ x.since t < 3000 := by decide +kernel
    obtain ⟨hop, hrest⟩ := hall x hx hu
    exact ⟨⟨"o", hop⟩, hrest⟩
  have holds (u : Turn) (fresh : ((early ++ t :: (mid ++ [u])).map Turn.freshId).Nodup)
      (metered : ∀ x ∈ early ++ t :: (mid ++ [u]), x.surroundings.now.OnMilli)
      (again : ∃ org, u.operation = .ensure "u" org false) (later : t.surroundings.now ≤ u.surroundings.now)
      (n : Nat) (hn : u.since t = n) :
      (n < 3000 → u.run p w = (.ok (.outcome (.notReady row (some (3000 - n)))), w)) ∧
      (3000 ≤ n → ∃ l, l.userId = "u" ∧ (u.run p w).2.launches = w.launches ++ [l]) := by
    have h := hints_are_exact p .arrival [] early t mid u "u" (.notReady row (some 3000)) 3000 fresh metered
      (fun h => nomatch h) (by decide +kernel) ⟨"o", rfl⟩ told (.inl rfl) rfl
      (fun b hb => Option.some.inj hb ▸ by decide +kernel) asks again later
    subst hn
    exact ⟨h.1, h.2.1⟩
  have hwait := (holds (turn 4250 (.ensure "u" "o" false)) (by decide +kernel) (by decide +kernel) ⟨"o", rfl⟩
    (by decide +kernel) 2250 (by decide +kernel)).1 (by decide)
  have hover := (holds (turn 5000 (.ensure "u" "o" false)) (by decide +kernel) (by decide +kernel) ⟨"o", rfl⟩
    (by decide +kernel) 3000 (by decide +kernel)).2 (Nat.le_refl _)
  exact ⟨told, hwait, hover⟩

/-- The clock is set back by ten seconds after a launch that was refused. No time counts as passed until it has
caught up: who was told to wait for five seconds is told so after four, and nothing is launched after five. -/
theorem hint_stays_while_the_clock_is_behind :
    let p : Policy := ⟨{ cooldown := 5000 }, ⟨"secret", 600⟩⟩
    let turn (n : Int) (launched : Except Error Unit) : Turn :=
      ⟨⟨⟨n, 0⟩, 0, s!"row-{n}", s!"ticket-{n}", launched⟩, .ensure "u" "o" false⟩
    let w := (play p [turn 10 (.error (.transport "refused"))] (.vacant .arrival [])).2
    let row := (Row.start "row-10" "u" "o" "ticket-10" ⟨10, 0⟩).fail Code.spawnFailed ⟨10, 0⟩
    ((turn 0 (.ok ())).run p w).1 = .ok (.outcome (.notReady row (some 5000))) ∧
    ((turn 0 (.ok ())).run p w).2.store.rows = w.store.rows ∧
    (turn 4 (.ok ())).since (turn 0 (.ok ())) = 4000 ∧
    ((turn 4 (.ok ())).run p w).1 = .ok (.outcome (.notReady row (some 5000))) ∧
    (turn 5 (.ok ())).since (turn 0 (.ok ())) = 5000 ∧
    ((turn 5 (.ok ())).run p w).2.launches = w.launches := by
  refine ⟨?_, ?_, ?_, ?_, ?_, ?_⟩ <;> decide +kernel

end Vm

end Fleet
