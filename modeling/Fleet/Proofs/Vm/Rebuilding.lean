import Fleet.Proofs.Vm.Spacing

/-!
What a request does for a user whose last row has failed: another row takes its place, whether or not the
user has a machine connected. Users keep their rows, and no operation ends one for good.
-/

namespace Fleet.Vm

variable {p : Policy} {s : Surroundings} {t : Turn} {w u : World} {user org : String} {r : Row}

/-- The user's last row has failed for other than too many attempts and the cooldown is over; no row of the
user is live, so that a new one fits. -/
def World.Rebuilds (p : Policy) (now : Instant) (w : World) (user : String) : Prop :=
  ∃ r, w.store.latest? user = some r ∧ r.status = .failed ∧ r.lastError ≠ some Code.attemptsExceeded ∧
    p.cooldownLeft r now = 0 ∧ Store.hasLive w.store.rows user = false

/-! ### Rows stay -/

namespace World

/-- Whoever has a row keeps it. -/
theorem users_run (hn : w.ids.Nodup) (hf : t.freshId ∉ w.ids) (h : user ∈ w.store.rows.map Row.userId) :
    user ∈ (t.run p w).2.store.rows.map Row.userId := by
  obtain ⟨launched, -, hwrote⟩ := t.reaches (p := p) hn hf
  rcases wrote_map hn hwrote Row.Lasts.userId_eq (fun hs => hs.userId_eq) (fun _ hs => hs.userId_eq) with
    he | ⟨_, _, he⟩ <;> rw [he]
  · exact h
  · exact List.mem_append_left _ h

/-- No operation ends a row for good. -/
theorem open_run (hn : w.ids.Nodup) (hf : t.freshId ∉ w.ids) (h : ∀ r ∈ w.store.rows, r.status ≠ .terminated) :
    ∀ r ∈ (t.run p w).2.store.rows, r.status ≠ .terminated := by
  obtain ⟨launched, -, hwrote⟩ := t.reaches (p := p) hn hf
  let ended (r : Row) : Bool := decide (r.status = .terminated)
  have hlasts {a b : Row} (hab : a.Lasts b) : ended b = ended a := by
    refine decide_eq_decide.mpr ⟨fun hb => ?_, fun ha => ?_⟩
    · by_contra ha
      exact hab.open_ ha hb
    · rw [hab.closed (by simp [Row.isLive, ha, Status.isTerminal])]
      exact ha
  have hsettled {a x : Row} (hs : t.surroundings.Settled a x) (ha : a.status ≠ .terminated) :
      ended x = false :=
    decide_eq_false (hs.not_terminated ha)
  have hrows : ∀ b ∈ w.store.rows.map ended, b = false := by
    intro b hb
    obtain ⟨r, hr, rfl⟩ := List.mem_map.mp hb
    exact decide_eq_false (h r hr)
  intro r hr ho
  have hmem : true ∈ (t.run p w).2.store.rows.map ended := List.mem_map.mpr ⟨r, hr, decide_eq_true ho⟩
  rcases wrote_map hn hwrote hlasts (fun hs => hsettled hs (by simp [Row.start]))
    (fun hq hs => (hsettled hs (by simp [Row.retry])).trans (by simp [ended, hq])) with he | ⟨user, org, he⟩ <;>
    rw [he] at hmem
  · cases hrows _ hmem
  · rcases List.mem_append.mp hmem with hm | hm
    · cases hrows _ hm
    · cases List.mem_singleton.mp hm

theorem latest?_of_users (h : user ∈ w.store.rows.map Row.userId) : w.store.latest? user ≠ none := by
  obtain ⟨r, hr, hu⟩ := List.mem_map.mp h
  intro hnone
  have hm : r ∈ w.store.history user := by
    rw [Store.history, List.mem_filter]
    exact ⟨mem_listing.mpr hr, by simp [Store.ofUser, hu]⟩
  rw [List.getLast?_eq_none_iff.mp hnone] at hm
  cases hm

/-- Only a user who has a row has a ticket taken. -/
theorem Lone.users_of_ticket (hw : w.Lone) {now : Instant} {ticket : String}
    (h : (Work.consumeTicket now user ticket w).1 = .ok r) : user ∈ w.store.rows.map Row.userId := by
  unfold Work.consumeTicket at h
  rw [Work.bind_of_ok (hw.readLive user)] at h
  cases hl : w.live? user with
  | none =>
    rw [hl] at h
    cases h
  | some q => exact List.mem_map.mpr ⟨q, (mem_of_live? hl).1, userId_of_live? hl⟩

end World

/-! ### A new row in the place of a failed one -/

namespace Policy

theorem launch_launches (r : Row) : (p.launch s r u).2.launches = u.launches ++ [p.bootstrap s r] := by
  unfold launch
  rw [Work.bind_of_ok (Work.record_apply u _)]
  cases s.launched with
  | ok _ => rfl
  | error _ => exact quiet.rewrite (r.fail Code.spawnFailed s.now) _ (u.launching (p.bootstrap s r))

/-- A new row is begun unless the user has a live one. -/
theorem startFresh_launches (hw : w.Lone) (hf : s.freshId ∉ w.ids) (user org : String) :
    (p.startFresh s user org w).2.launches = if Store.hasLive w.store.rows user then w.launches
      else w.launches ++ [p.bootstrap s (Row.start s.freshId user org s.freshTicket s.now)] := by
  have hins : Work.insert (Row.start s.freshId user org s.freshTicket s.now) w = _ := hw.insert hf rfl
  change Work.insert _ w = if Store.hasLive w.store.rows user then _ else _ at hins
  unfold startFresh
  cases hlive : Store.hasLive w.store.rows user <;> rw [hlive] at hins
  · rw [Work.bind_of_ok hins]
    exact launch_launches _
  · rw [Work.bind_of_error hins]
    rfl

end Policy

namespace Turn

theorem not_launches (h : (t.run p w).2.launches = w.launches) (user : String) : ¬ t.Launches p w user := by
  unfold Launches
  rw [World.cycles, World.cycles, h]
  exact Nat.lt_irrefl _

theorem launches_of_append {l : Launch} (h : (t.run p w).2.launches = w.launches ++ [l])
    (hl : l.userId = user) : t.Launches p w user := by
  have hcycles : (t.run p w).2.cycles user = (w.launching l).cycles user := by
    rw [World.cycles, h]
    rfl
  unfold Launches
  rw [hcycles, cycles_launching, if_pos hl, List.length_append, List.length_singleton]
  exact Nat.lt_succ_self _

/-- A machine is asked for whose last row has failed. What is known of its connection does not matter. -/
theorem launches_failed_iff {wsReady : Bool} (hw : w.Lone) (hf : t.freshId ∉ w.ids)
    (hop : t.operation = .ensure user org wsReady) (hlast : w.store.latest? user = some r)
    (hs : r.status = .failed) : t.Launches p w user ↔ w.Rebuilds p t.surroundings.now user := by
  have hrebuilds (h : w.Rebuilds p t.surroundings.now user) : r.lastError ≠ some Code.attemptsExceeded ∧
      p.cooldownLeft r t.surroundings.now = 0 ∧ Store.hasLive w.store.rows user = false := by
    obtain ⟨q, hq, -, h⟩ := h
    rw [hlast] at hq
    exact Option.some.inj hq ▸ h
  have hrun : (t.run p w).2 = (p.ensure t.surroundings user org wsReady w).2 := by
    rw [run, hop, Operation.work, Work.bind_pure_world]
  rw [Policy.ensure, Work.bind_of_ok (hw.read user), hlast] at hrun
  simp only [hs] at hrun
  split at hrun
  · rename_i hcode
    refine ⟨fun h => absurd h (not_launches ?_ user), fun h => absurd hcode (hrebuilds h).1⟩
    rw [hrun]
    rfl
  · rename_i hcode
    split at hrun
    · rename_i hcool
      refine ⟨fun h => absurd h (not_launches ?_ user), fun h => ?_⟩
      · rw [hrun]
        rfl
      · have := (hrebuilds h).2.1
        omega
    · rename_i hcool
      have hlaunches := congrArg World.launches hrun
      rw [Policy.startFresh_launches hw hf user org] at hlaunches
      cases hlive : Store.hasLive w.store.rows user <;> rw [hlive] at hlaunches
      · exact ⟨fun _ => ⟨r, hlast, hs, hcode, by omega, hlive⟩, fun _ => launches_of_append hlaunches rfl⟩
      · refine ⟨fun h => absurd h (not_launches hlaunches user), fun h => ?_⟩
        rw [(hrebuilds h).2.2] at hlive
        cases hlive

end Turn

end Fleet.Vm
