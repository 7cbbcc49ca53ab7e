import Fleet.Proofs.Vm.Runs
import Mathlib.Data.List.Forall2

/-!
What one operation writes on any store, whatever accesses to it fail. An access that fails writes
nothing, and the operation ends there; so an operation revises some rows and launches nothing, or
launches one bootstrap and writes only the row it is for.
-/

namespace Fleet.Vm

namespace World

variable {w u : World} {r r' : Row}

/-- The same world with other failures ahead. -/
def meeting (w : World) (faults : List (Option Error)) : World := { w with faults := faults }

@[simp] theorem meeting_store (w : World) (faults : List (Option Error)) :
    (w.meeting faults).store = w.store := rfl

@[simp] theorem meeting_launches (w : World) (faults : List (Option Error)) :
    (w.meeting faults).launches = w.launches := rfl

/-- Of two rows with one id there is only one. -/
theorem eq_of_id (hn : w.ids.Nodup) {q : Row} (hq : q ∈ w.store.rows) (hr : r ∈ w.store.rows)
    (h : q.id = r.id) : q = r :=
  List.inj_on_of_nodup_map hn hq hr h

theorem mem_put_self (hr : r ∈ w.store.rows) (hid : r'.id = r.id) : r' ∈ (w.put r').store.rows :=
  List.mem_map.mpr ⟨r, hr, by simp [hid]⟩

theorem mem_listing : r ∈ w.store.listing ↔ r ∈ w.store.rows := by
  unfold Store.listing
  cases w.store.keeping
  · rfl
  · exact List.mem_mergeSort

theorem mem_of_latest? {user : String} (h : w.store.latest? user = some r) : r ∈ w.store.rows :=
  mem_listing.mp (List.mem_filter.mp (List.mem_of_getLast? h)).1

theorem mem_of_live? {user : String} (h : w.live? user = some r) :
    r ∈ w.store.rows ∧ r.isLive = true :=
  ⟨mem_of_latest? (latest?_of_live? h).1, (latest?_of_live? h).2⟩

end World

/-! ### Accesses that may fail -/

namespace Work

open World

variable {α β : Type} {w u : World} {r r' : Row}

/-- An access fails and writes nothing, or gives `a` and leaves `u`. -/
def Tries (x : Work α) (w : World) (a : α) (u : World) : Prop :=
  (∃ e faults, x w = (.error e, w.meeting faults)) ∨ ∃ faults, x w = (.ok a, u.meeting faults)

/-- What holds where an access fails, and of what follows it where it does not. -/
theorem Tries.bind {x : Work α} {a : α} {f : α → Work β} {P : World → Prop} (h : x.Tries w a u)
    (stay : ∀ faults, P (w.meeting faults)) (go : ∀ faults, P (f a (u.meeting faults)).2) :
    P ((x >>= f) w).2 := by
  rcases h with ⟨e, faults, h⟩ | ⟨faults, h⟩
  · rw [bind_of_error h]
    exact stay faults
  · rw [bind_of_ok h]
    exact go faults

theorem Tries.last {x : Work α} {a : α} {P : World → Prop} (h : x.Tries w a u)
    (stay : ∀ faults, P (w.meeting faults)) (go : ∀ faults, P (u.meeting faults)) :
    P (x w).2 := by
  rcases h with ⟨e, faults, h⟩ | ⟨faults, h⟩ <;> rw [h]
  · exact stay faults
  · exact go faults

/-- Answering in other words writes nothing. -/
theorem bind_pure_world (x : Work α) (g : α → β) (w : World) :
    ((x >>= fun a => pure (g a)) w).2 = (x w).2 := by
  rw [bind_apply]
  rcases x w with ⟨_ | _, _⟩ <;> rfl

theorem access_tries {f : Store → Except Error (α × Store)} {a : α} {s : Store}
    (h : (∃ e, f w.store = .error e) ∨ f w.store = .ok (a, s)) :
    (access f).Tries w a { w with store := s } := by
  obtain ⟨store, launches, faults⟩ := w
  have hrun (rest : List (Option Error))
      (herror : ∀ e, f store = .error e →
        access f ⟨store, launches, faults⟩ = (.error e, ⟨store, launches, rest⟩))
      (hok : f store = .ok (a, s) →
        access f ⟨store, launches, faults⟩ = (.ok a, ⟨s, launches, rest⟩)) :
      (access f).Tries ⟨store, launches, faults⟩ a ⟨s, launches, faults⟩ := by
    rcases h with ⟨e, h⟩ | h
    · exact .inl ⟨e, rest, herror e h⟩
    · exact .inr ⟨rest, hok h⟩
  rcases faults with _ | ⟨_ | e, rest⟩
  · exact hrun [] (fun e he => by simp [access, he]) fun h => by simp [access, h]
  · exact hrun rest (fun e he => by simp [access, he]) fun h => by simp [access, h]
  · exact .inl ⟨e, rest, rfl⟩

theorem latest?_tries (w : World) (user : String) :
    (latest? user).Tries w (w.store.latest? user) w :=
  access_tries (.inr rfl)

theorem byStatus_tries (w : World) (status : Status) :
    (byStatus status).Tries w (w.store.byStatus status) w :=
  access_tries (.inr rfl)

theorem live?_tries (w : World) (user : String) : (live? user).Tries w (w.live? user) w := by
  rcases latest?_tries w user with ⟨e, faults, h⟩ | ⟨faults, h⟩
  · exact .inl ⟨e, faults, bind_of_error h⟩
  · exact .inr ⟨faults, bind_of_ok h⟩

/-- A write to the store that it may refuse. -/
theorem write_tries {f : Store → Except Error Store} {s : Store}
    (h : (∃ e, f w.store = .error e) ∨ f w.store = .ok s) :
    (access fun s => (f s).map ((), ·)).Tries w () { w with store := s } := by
  apply access_tries
  rcases h with ⟨e, h⟩ | h
  · exact .inl ⟨e, by rw [h]; rfl⟩
  · exact .inr (by rw [h]; rfl)

theorem insert_tries (w : World) (r : Row) : (insert r).Tries w () (w.add r) := by
  apply write_tries
  unfold Store.insert
  obtain ⟨⟨keeping, rows⟩, _, _⟩ := w
  cases keeping <;> dsimp only <;> split
  all_goals first | exact .inl ⟨_, rfl⟩ | exact .inr rfl

/-- No store takes a second live row for a user. -/
theorem insert_refused (hl : r.isLive = true) (h : Store.hasLive w.store.rows r.userId = true) :
    ∃ e faults, insert r w = (.error e, w.meeting faults) := by
  have hs : w.store.insert r = .error (Store.refused r.userId) := by
    unfold Store.insert
    cases w.store.keeping <;> simp [h, hl, Store.fits]
  obtain ⟨store, launches, faults⟩ := w
  match faults with
  | some e :: rest => exact ⟨e, rest, rfl⟩
  | [] => exact ⟨_, [], by rw [insert, access]; simp only [hs]; rfl⟩
  | none :: rest => exact ⟨_, rest, by rw [insert, access]; simp only [hs]; rfl⟩

/-- A row that keeps its id, its user and the time it was made takes the place of the one before,
unless a table would have two live rows of one user. -/
theorem update_eq (hn : w.ids.Nodup) (hr : r ∈ w.store.rows) (hid : r'.id = r.id)
    (hu : r'.userId = r.userId) (hc : r'.createdAt = r.createdAt) :
    w.store.update r' = if w.store.keeping = .table ∧ r'.isLive = true ∧
        Store.hasLive (w.store.rows.filter fun q => q.id != r'.id) r'.userId = true
      then .error Store.clash else .ok (w.put r').store := by
  have hmem : r'.id ∈ w.ids := List.mem_map.mpr ⟨r, hr, hid.symm⟩
  obtain ⟨old, hold⟩ := Store.find?_isSome hmem
  have hsame : old = r := by
    have hfound := List.find?_some hold
    exact eq_of_id hn (List.mem_of_find?_eq_some hold) hr ((by simpa using hfound : old.id = r'.id).trans hid)
  have hkept : Store.kept r r' = r' := by
    unfold Store.kept
    rw [← hu, ← hc]
  subst hsame
  have hreplace := Store.replace_eq hn hmem
  cases hk : w.store.keeping <;> simp only [Store.update, hold, hk, hkept, hreplace, World.put]

theorem update_tries (hn : w.ids.Nodup) (hr : r ∈ w.store.rows) (hid : r'.id = r.id)
    (hu : r'.userId = r.userId) (hc : r'.createdAt = r.createdAt) :
    (update r').Tries w () (w.put r') := by
  apply write_tries
  rw [update_eq hn hr hid hu hc]
  split
  · exact .inl ⟨_, rfl⟩
  · exact .inr rfl

end Work

/-! ### What is written -/

namespace Row

/-- A revision of a live row that leaves its attempts as they are. -/
def Drift (p : Policy) (now : Instant) (a b : Row) : Prop :=
  a.isLive = true ∧ a.Revised p now b ∧ b.attempts = a.attempts

abbrev Drifts (p : Policy) (now : Instant) : Row → Row → Prop :=
  Relation.ReflTransGen (Drift p now)

/-- What becomes of a row while nothing is launched. -/
inductive Rewritten (p : Policy) (now : Instant) (r : Row) : Row → Prop
  | drifted {r' : Row} (h : r.Drifts p now r') : Rewritten p now r r'
  | promoted (live : r.isLive = true) : Rewritten p now r (r.promote now)

variable {p : Policy} {now : Instant} {r r' : Row}

theorem Revised.createdAt_eq (h : r.Revised p now r') : r'.createdAt = r.createdAt := by
  cases h <;> rfl

theorem Drifts.id_eq (h : r.Drifts p now r') : r'.id = r.id := by
  induction h with
  | refl => rfl
  | tail _ h ih => exact h.2.1.id_eq.trans ih

theorem Rewritten.id_eq (h : r.Rewritten p now r') : r'.id = r.id := by
  cases h with
  | drifted h => exact h.id_eq
  | promoted _ => rfl

theorem Rewritten.refl : r.Rewritten p now r := .drifted .refl

theorem isLive_of_pending (h : r.status.isPending = true) : r.isLive = true := by
  unfold isLive
  cases hs : r.status <;> simp_all [Status.isPending, Status.isTerminal]

end Row

/-- A row after its bootstrap was launched. The launcher's refusal is written if that can be done. -/
def Surroundings.Settled (s : Surroundings) (r x : Row) : Prop :=
  x = r ∨ x = r.fail Code.spawnFailed s.now

/-- Writes a row in the place of the one with its id. -/
def Row.into (x : Row) (rows : List Row) : List Row := rows.map fun q => if q.id = x.id then x else q

/-- What an operation makes of the rows, and what it launches. -/
inductive Wrote (p : Policy) (s : Surroundings) (rows : List Row) : List Row → List Launch → Prop
  | quiet {rows' : List Row} (h : List.Forall₂ (Row.Rewritten p s.now) rows rows') :
      Wrote p s rows rows' []
  | opened (user org : String) (vacant : Store.hasLive rows user = false) {x : Row}
      (settled : s.Settled (Row.start s.freshId user org s.freshTicket s.now) x) :
      Wrote p s rows (rows ++ [x]) [p.bootstrap s (Row.start s.freshId user org s.freshTicket s.now)]
  | reopened {r q x : Row} (mem : r ∈ rows) (drifts : r.Drifts p s.now q)
      (h : q.status = .disconnected) (left : q.attempts < p.settings.maxAttempts)
      (settled : s.Settled (q.retry s.freshTicket s.now) x) :
      Wrote p s rows (x.into rows) [p.bootstrap s (q.retry s.freshTicket s.now)]

/-- One world comes of another by what one operation may write. -/
def Reaches (p : Policy) (s : Surroundings) (w v : World) : Prop :=
  ∃ launched, v.launches = w.launches ++ launched ∧ Wrote p s w.store.rows v.store.rows launched

variable {p : Policy} {s : Surroundings} {w u v : World} {r r' x : Row} {user : String}

namespace Surroundings

theorem Settled.id_eq (h : s.Settled r x) : x.id = r.id := by
  rcases h with rfl | rfl <;> rfl

theorem Settled.userId_eq (h : s.Settled r x) : x.userId = r.userId := by
  rcases h with rfl | rfl <;> rfl

theorem Settled.ticket_eq (h : s.Settled r x) : x.ticket = r.ticket := by
  rcases h with rfl | rfl <;> rfl

theorem Settled.attempts_eq (h : s.Settled r x) : x.attempts = r.attempts := by
  rcases h with rfl | rfl <;> rfl

end Surroundings

namespace Row

theorem into_into {q : Row} (rows : List Row) (h : x.id = q.id) : x.into (q.into rows) = x.into rows := by
  unfold into
  rw [List.map_map]
  apply List.map_congr_left
  intro a _
  by_cases ha : a.id = q.id
  · simp [ha, h]
  · simp [ha]

theorem into_self (hn : w.ids.Nodup) (hr : r ∈ w.store.rows) : r.into w.store.rows = w.store.rows := by
  apply (List.map_congr_left ?_).trans (List.map_id _)
  intro q hq
  by_cases h : q.id = r.id
  · simp [World.eq_of_id hn hq hr h]
  · simp [h]

end Row

/-- Rows that are written in the places of others keep their ids. -/
theorem ids_of_pointwise {rows rows' : List Row} (h : List.Forall₂ (fun r r' => r'.id = r.id) rows rows') :
    rows'.map Row.id = rows.map Row.id := by
  induction h with
  | nil => rfl
  | cons hq _ ih => rw [List.map_cons, List.map_cons, hq, ih]

theorem Wrote.ids {rows rows' : List Row} {launched : List Launch} (h : Wrote p s rows rows' launched) :
    rows'.map Row.id = rows.map Row.id ∨ rows'.map Row.id = rows.map Row.id ++ [s.freshId] := by
  cases h with
  | quiet h => exact .inl (ids_of_pointwise (h.imp fun _ _ hr => hr.id_eq))
  | opened user org vacant settled =>
    refine .inr ?_
    rw [List.map_append, List.map_singleton, settled.id_eq]
    rfl
  | reopened mem drifts h left settled => exact .inl (World.put_ids { store := ⟨default, rows⟩ } _)

namespace Reaches

theorem quiet (rows : List.Forall₂ (Row.Rewritten p s.now) w.store.rows v.store.rows)
    (launches : v.launches = w.launches) : Reaches p s w v :=
  ⟨[], by simp [launches], .quiet rows⟩

theorem refl : Reaches p s w w := .quiet (List.forall₂_same.mpr fun _ _ => .refl) rfl

/-- Failures ahead are no writes. -/
theorem meeting (h : Reaches p s w v) (faults : List (Option Error)) :
    Reaches p s w (v.meeting faults) := h

/-- One row is written in the place of the one it comes of. -/
theorem put (hn : w.ids.Nodup) (hr : r ∈ w.store.rows) (h : r.Rewritten p s.now r') :
    Reaches p s w (w.put r') := by
  refine .quiet ?_ rfl
  rw [World.put_rows, List.forall₂_map_right_iff, List.forall₂_same]
  intro q hq
  split
  · rename_i hid
    rw [World.eq_of_id hn hq hr (hid.trans h.id_eq)]
    exact h
  · exact .refl

end Reaches

/-! ### Operations -/

/-- A revision of a row of the store is tried. -/
theorem Row.Revised.tries (h : r.Revised p s.now r') (hn : w.ids.Nodup) (hr : r ∈ w.store.rows) :
    (Work.update r').Tries w () (w.put r') :=
  Work.update_tries hn hr h.id_eq h.userId_eq h.createdAt_eq

namespace Policy

open Work World

/-- A bootstrap is recorded, and its row is written again if it was refused. -/
theorem launch_cases (hn : u.ids.Nodup) (hr : r ∈ u.store.rows) :
    (p.launch s r u).2.launches = u.launches ++ [p.bootstrap s r] ∧
      ∃ x, s.Settled r x ∧ (p.launch s r u).2.store.rows = x.into u.store.rows := by
  have hself := Row.into_self hn hr
  unfold Policy.launch
  rw [bind_of_ok (record_apply u _)]
  cases s.launched with
  | ok _ => exact ⟨rfl, r, .inl rfl, hself.symm⟩
  | error e =>
    have hup : (Work.update (r.fail Code.spawnFailed s.now)).Tries (u.launching (p.bootstrap s r)) ()
        ((u.launching (p.bootstrap s r)).put (r.fail Code.spawnFailed s.now)) :=
      update_tries hn hr rfl rfl rfl
    refine hup.bind (P := fun v => v.launches = u.launches ++ [p.bootstrap s r] ∧
      ∃ x, s.Settled r x ∧ v.store.rows = x.into u.store.rows) ?_ ?_
    · exact fun _ => ⟨rfl, r, .inl rfl, hself.symm⟩
    · exact fun _ => ⟨rfl, _, .inr rfl, rfl⟩

theorem startFresh_reaches (hn : w.ids.Nodup) (hf : s.freshId ∉ w.ids) (user org : String) :
    Reaches p s w (p.startFresh s user org w).2 := by
  by_cases hlive : Store.hasLive w.store.rows user = true
  · obtain ⟨e, faults, h⟩ := insert_refused (r := Row.start s.freshId user org s.freshTicket s.now)
      rfl hlive
    rw [startFresh, bind_of_error h]
    exact Reaches.refl.meeting faults
  have hvacant := Bool.eq_false_iff.mpr hlive
  refine (insert_tries w (Row.start s.freshId user org s.freshTicket s.now)).bind
    Reaches.refl.meeting ?_
  intro faults
  have hn' : (w.add (Row.start s.freshId user org s.freshTicket s.now)).ids.Nodup := by
    rw [add_ids]
    exact List.concat_eq_append ▸ hn.concat hf
  obtain ⟨hl, x, hx, hrows⟩ := launch_cases (p := p) (s := s)
    (u := (w.add (Row.start s.freshId user org s.freshTicket s.now)).meeting faults) hn'
    (List.mem_append_right _ (List.mem_singleton.mpr rfl))
  refine ⟨_, hl, ?_⟩
  have hput : x.into (w.store.rows ++ [Row.start s.freshId user org s.freshTicket s.now]) =
      w.store.rows ++ [x] := by
    rw [Row.into, List.map_append, map_of_fresh (by rw [hx.id_eq]; exact hf)]
    simp [hx.id_eq]
  rw [hrows]
  exact hput ▸ .opened user org hvacant hx

/-- Where a row has become disconnected, it is given up, left to wait, or brought up once more. -/
theorem recover_reaches {q : Row} (hn : w.ids.Nodup) (hr : r ∈ w.store.rows)
    (hd : r.Drifts p s.now q) (hs : q.status = .disconnected)
    (hrows : u.store.rows = q.into w.store.rows) (hl : u.launches = w.launches) (force : Bool) :
    Reaches p s w (p.recover s q force u).2 := by
  have hids : u.ids = w.ids := by
    rw [ids, hrows]
    exact put_ids w q
  have hn' : u.ids.Nodup := hids ▸ hn
  have hq : q ∈ u.store.rows := hrows ▸ mem_put_self hr hd.id_eq
  have hlive : q.isLive = true := by simp [Row.isLive, hs, Status.isTerminal]
  have write {q' : Row} (h : r.Rewritten p s.now q') {v : World} (hv : v.store.rows = q'.into w.store.rows)
      (hvl : v.launches = w.launches) : Reaches p s w v := by
    obtain ⟨ls, hls, hw⟩ := Reaches.put hn hr h
    exact ⟨ls, hvl.trans hls, hv ▸ hw⟩
  have hstay : Reaches p s w u := write (.drifted hd) hrows hl
  unfold recover
  split
  · rename_i hspent
    have hrev : q.Revised p s.now (q.fail Code.attemptsExceeded s.now) := .exhausted hs hspent
    refine (hrev.tries hn' hq).bind hstay.meeting fun faults => ?_
    refine write (.drifted (hd.tail ⟨hlive, hrev, rfl⟩)) ?_ hl
    exact (congrArg _ hrows).trans (Row.into_into _ rfl)
  · rename_i hleft
    split
    · exact hstay
    · have hup : (Work.update (q.retry s.freshTicket s.now)).Tries u ()
          (u.put (q.retry s.freshTicket s.now)) := update_tries hn' hq rfl rfl rfl
      refine hup.bind hstay.meeting fun faults => ?_
      have hn2 : (u.put (q.retry s.freshTicket s.now)).ids.Nodup := (put_ids u _).symm ▸ hn'
      obtain ⟨hlaunch, x, hx, hxrows⟩ := launch_cases (p := p) (s := s)
        (u := (u.put (q.retry s.freshTicket s.now)).meeting faults) hn2 (mem_put_self hq rfl)
      refine ⟨[p.bootstrap s (q.retry s.freshTicket s.now)], hlaunch.trans (congrArg (· ++ _) hl), ?_⟩
      have hfinal : x.into ((q.retry s.freshTicket s.now).into u.store.rows) = x.into w.store.rows := by
        rw [Row.into_into _ hx.id_eq, hrows, Row.into_into]
        exact hx.id_eq
      rw [hxrows]
      exact hfinal ▸ .reopened hr hd hs (by omega) hx

/-- A live row is disconnected in one way or another, and then goes the way of disconnected rows. -/
theorem disconnect_reaches {q : Row} (hn : w.ids.Nodup) (hr : r ∈ w.store.rows)
    (hlive : r.isLive = true) (h : r.Revised p s.now q) (ha : q.attempts = r.attempts)
    (hs : q.status = .disconnected) (faults : List (Option Error)) (force : Bool) :
    Reaches p s w ((do Work.update q; p.recover s q force : Work Outcome) (w.meeting faults)).2 := by
  refine Tries.bind (h.tries (w := w.meeting faults) hn hr) (fun _ => Reaches.refl) fun _ => ?_
  exact recover_reaches (u := (w.put q).meeting _) hn hr (.single ⟨hlive, h, ha⟩) hs rfl rfl force

theorem promote_reaches (hn : w.ids.Nodup) (hr : r ∈ w.store.rows) (hlive : r.isLive = true)
    (faults : List (Option Error)) : Reaches p s w (promote r s.now (w.meeting faults)).2 :=
  Tries.bind (Row.Revised.tries (p := p) .promoted (w := w.meeting faults) hn hr)
    (fun _ => Reaches.refl) fun _ => Reaches.put hn hr (.promoted hlive)

theorem pending_reaches (hn : w.ids.Nodup) (hr : r ∈ w.store.rows) (hs : r.status.isPending = true)
    (wsReady : Bool) (faults : List (Option Error)) :
    Reaches p s w ((if wsReady then promote r s.now
      else if p.settings.bootstrapTimeout ≤ r.msSinceBootstrap s.now then
        p.demoteAndRecover s { r.disconnect s.now with lastError := some Code.timedOut }
      else return .notReady r (some p.settings.readyRetry) : Work Outcome) (w.meeting faults)).2 := by
  have hlive := Row.isLive_of_pending hs
  cases wsReady with
  | true => exact promote_reaches hn hr hlive faults
  | false =>
    by_cases hlate : p.settings.bootstrapTimeout ≤ r.msSinceBootstrap s.now
    · simp only [hlate, ↓reduceIte]
      exact disconnect_reaches hn hr hlive (.timedOut hs hlate) rfl rfl faults false
    · simp only [hlate, ↓reduceIte]
      exact Reaches.refl

theorem ensure_reaches (hn : w.ids.Nodup) (hf : s.freshId ∉ w.ids) (user org : String)
    (wsReady : Bool) : Reaches p s w (p.ensure s user org wsReady w).2 := by
  refine (latest?_tries w user).bind Reaches.refl.meeting fun faults => ?_
  have hfresh : Reaches p s w (p.startFresh s user org (w.meeting faults)).2 :=
    startFresh_reaches (w := w.meeting faults) hn hf user org
  cases hlast : w.store.latest? user with
  | none => exact hfresh
  | some r =>
    have hr := mem_of_latest? hlast
    cases hs : r.status <;> simp only [hs]
    case terminated => exact hfresh
    case failed =>
      split
      · exact Reaches.refl
      · split
        · exact Reaches.refl
        · exact hfresh
    case starting => exact pending_reaches hn hr (by simp [hs, Status.isPending]) wsReady faults
    case provisioning => exact pending_reaches hn hr (by simp [hs, Status.isPending]) wsReady faults
    case ready =>
      cases wsReady with
      | true => exact Reaches.refl
      | false =>
        have hlive : r.isLive = true := by simp [Row.isLive, hs, Status.isTerminal]
        exact disconnect_reaches hn hr hlive (.disconnected (by simp [hs])) rfl rfl faults false
    case disconnected =>
      cases wsReady with
      | true =>
        exact promote_reaches hn hr (by simp [Row.isLive, hs, Status.isTerminal]) faults
      | false =>
        exact recover_reaches (u := w.meeting faults) hn hr .refl hs (Row.into_self hn hr).symm rfl false

theorem forceRebootstrap_reaches (hn : w.ids.Nodup) (hf : s.freshId ∉ w.ids) (user org : String) :
    Reaches p s w (p.forceRebootstrap s user org w).2 := by
  refine (live?_tries w user).bind Reaches.refl.meeting fun faults => ?_
  cases hl : w.live? user with
  | none => exact startFresh_reaches (w := w.meeting faults) hn hf user org
  | some r =>
    obtain ⟨hr, hlive⟩ := mem_of_live? hl
    by_cases hs : r.status = .disconnected
    · simp only [hs, ↓reduceIte]
      exact recover_reaches (u := w.meeting faults) hn hr .refl hs (Row.into_self hn hr).symm rfl true
    · simp only [hs, ↓reduceIte]
      exact disconnect_reaches hn hr hlive (.disconnected hs) rfl rfl faults true

end Policy

namespace Work

open World

/-- An operation that reads a user's live row first. -/
theorem live?_reaches {α : Type} {f : Option Row → Work α} (user : String)
    (absent : ∀ faults, Reaches p s w (f none (w.meeting faults)).2)
    (present : ∀ r faults, r ∈ w.store.rows → r.isLive = true →
      Reaches p s w (f (some r) (w.meeting faults)).2) :
    Reaches p s w ((live? user >>= f) w).2 := by
  refine (live?_tries w user).bind Reaches.refl.meeting fun faults => ?_
  cases hl : w.live? user with
  | none => exact absent faults
  | some r => exact present r faults (mem_of_live? hl).1 (mem_of_live? hl).2

theorem consumeTicket_reaches (hn : w.ids.Nodup) (user ticket : String) :
    Reaches p s w (consumeTicket s.now user ticket w).2 := by
  refine live?_reaches user (fun _ => Reaches.refl) fun r faults hr hlive => ?_
  dsimp only
  split
  · exact Reaches.refl
  · cases hused : r.ticketConsumedAt with
    | none =>
      have hrev : r.Revised p s.now (r.consume s.now) := .consumed hused
      refine Tries.bind (hrev.tries (w := w.meeting faults) hn hr) (fun _ => Reaches.refl) fun _ => ?_
      exact Reaches.put hn hr (.drifted (.single ⟨hlive, hrev, rfl⟩))
    | some _ =>
      change Reaches p s w ((if r.status = .disconnected then return r
        else throw (.auth s!"Connect ticket already used (status: {r.status.name})") : Work Row) _).2
      split <;> exact Reaches.refl

theorem markConnected_reaches (hn : w.ids.Nodup) (user : String) :
    Reaches p s w (markConnected s.now user w).2 := by
  refine live?_reaches user (fun _ => Reaches.refl) fun r faults hr hlive => ?_
  rw [bind_pure_world]
  exact Policy.promote_reaches hn hr hlive faults

theorem markDisconnected_reaches (hn : w.ids.Nodup) (user : String) :
    Reaches p s w (markDisconnected s.now user w).2 := by
  refine live?_reaches user (fun _ => Reaches.refl) fun r faults hr hlive => ?_
  dsimp only
  split
  · rename_i hs
    have hrev : r.Revised p s.now (r.disconnect s.now) := .disconnected (by simp [hs])
    refine Tries.bind (hrev.tries (w := w.meeting faults) hn hr) (fun _ => Reaches.refl) fun _ => ?_
    exact Reaches.put hn hr (.drifted (.single ⟨hlive, hrev, rfl⟩))
  · exact Reaches.refl

theorem recordHeartbeat_reaches (hn : w.ids.Nodup) (user : String) :
    Reaches p s w (recordHeartbeat s.now user w).2 := by
  refine live?_reaches user (fun _ => Reaches.refl) fun r faults hr hlive => ?_
  have hrev : r.Revised p s.now (r.beat s.now) := .beaten
  refine Tries.last (hrev.tries (w := w.meeting faults) hn hr) (fun _ => Reaches.refl) fun _ => ?_
  exact Reaches.put hn hr (.drifted (.single ⟨hlive, hrev, rfl⟩))

/-- Rows drift, and nothing is launched. -/
def Drifting (p : Policy) (now : Instant) (w v : World) : Prop :=
  List.Forall₂ (Row.Drifts p now) w.store.rows v.store.rows ∧ v.launches = w.launches

theorem Drifting.refl : Drifting p s.now w w := ⟨List.forall₂_same.mpr fun _ _ => .refl, rfl⟩

theorem Drifting.ids_eq (h : Drifting p s.now w v) : v.ids = w.ids :=
  ids_of_pointwise (h.1.imp fun _ _ hd => hd.id_eq)

theorem Drifting.trans (h : Drifting p s.now w u) (h' : Drifting p s.now u v) :
    Drifting p s.now w v := by
  refine ⟨?_, h'.2.trans h.2⟩
  have hrows := h.1
  have hrows' := h'.1
  generalize w.store.rows = a, u.store.rows = b, v.store.rows = c at hrows hrows'
  induction hrows generalizing c with
  | nil => cases hrows'; exact .nil
  | cons hq _ ih => cases hrows' with
    | cons hq' hrest => exact .cons (hq.trans hq') (ih _ hrest)

theorem demoteStale_drifting (hn : w.ids.Nodup) (candidate : Row) :
    Drifting p s.now w (demoteStale s.now candidate w).2 := by
  refine (live?_tries w candidate.userId).bind (fun _ => Drifting.refl) fun faults => ?_
  cases hl : w.live? candidate.userId with
  | none => exact Drifting.refl
  | some r =>
    obtain ⟨hr, hlive⟩ := mem_of_live? hl
    dsimp only
    split
    · rename_i hs
      have hrev : r.Revised p s.now (r.disconnect s.now) := .disconnected (by simp [hs.2])
      refine Tries.bind (hrev.tries (w := w.meeting faults) hn hr) (fun _ => Drifting.refl) fun _ => ?_
      refine ⟨?_, rfl⟩
      change List.Forall₂ _ _ ((r.disconnect s.now).into w.store.rows)
      rw [Row.into, List.forall₂_map_right_iff, List.forall₂_same]
      intro q hq
      split
      · rename_i hid
        rw [eq_of_id hn hq hr hid]
        exact .single ⟨hlive, hrev, rfl⟩
      · exact .refl
    · exact Drifting.refl

theorem demoteAll_drifting (hn : w.ids.Nodup) (rows : List Row) (n : Nat) :
    Drifting p s.now w (demoteAll s.now rows n w).2 := by
  induction rows generalizing w n with
  | nil => exact .refl
  | cons r rest ih =>
    have hstep := demoteStale_drifting (p := p) (s := s) hn r
    unfold demoteAll
    rw [bind_apply]
    rcases hrun : demoteStale s.now r w with ⟨_ | b, u⟩ <;> rw [hrun] at hstep
    · exact hstep
    · exact hstep.trans (ih (hstep.ids_eq ▸ hn) _)

theorem staleRows_tries (w : World) (cutoff : Instant) : (staleRows cutoff).Tries w
    ((w.store.byStatus .ready).filter fun r => decide (r.lastSeen < cutoff)) w := by
  rcases byStatus_tries w .ready with ⟨e, faults, h⟩ | ⟨faults, h⟩
  · exact .inl ⟨e, faults, bind_of_error h⟩
  · exact .inr ⟨faults, bind_of_ok h⟩

theorem sweep_reaches (hn : w.ids.Nodup) (cutoff : Instant) :
    Reaches p s w (sweep s.now cutoff w).2 := by
  suffices h : Drifting p s.now w (sweep s.now cutoff w).2 from
    .quiet (h.1.imp fun _ _ hd => .drifted hd) h.2
  refine (staleRows_tries w cutoff).bind (fun _ => Drifting.refl) fun faults => ?_
  exact demoteAll_drifting (w := w.meeting faults) hn _ 0

end Work

/-- Whatever accesses fail, a turn writes no more than this. -/
theorem Turn.reaches (t : Turn) (hn : w.ids.Nodup) (hf : t.freshId ∉ w.ids) :
    Reaches p t.surroundings w (t.run p w).2 := by
  unfold run Operation.work
  cases t.operation with
  | ensure user org wsReady =>
    rw [Work.bind_pure_world]
    exact p.ensure_reaches hn hf user org wsReady
  | force user org =>
    rw [Work.bind_pure_world]
    exact p.forceRebootstrap_reaches hn hf user org
  | consume user ticket =>
    rw [Work.bind_pure_world]
    exact Work.consumeTicket_reaches hn user ticket
  | connected user =>
    rw [Work.bind_pure_world]
    exact Work.markConnected_reaches hn user
  | disconnected user =>
    rw [Work.bind_pure_world]
    exact Work.markDisconnected_reaches hn user
  | heartbeat user =>
    rw [Work.bind_pure_world]
    exact Work.recordHeartbeat_reaches hn user
  | sweep timeoutMs =>
    cases hcut : Work.cutoff? t.surroundings.now timeoutMs with
    | none =>
      simp only [hcut]
      exact Reaches.refl
    | some cutoff =>
      simp only [hcut]
      rw [Work.bind_pure_world]
      exact Work.sweep_reaches hn cutoff

namespace Turn

/-- The ids after a turn are those before it and at most the one it was given. -/
theorem ids_cases (t : Turn) (hn : w.ids.Nodup) (hf : t.freshId ∉ w.ids) :
    (t.run p w).2.ids = w.ids ∨ (t.run p w).2.ids = w.ids ++ [t.freshId] :=
  (t.reaches hn hf).choose_spec.2.ids

theorem distinct (t : Turn) (hn : w.ids.Nodup) (hf : t.freshId ∉ w.ids) :
    (t.run p w).2.ids.Nodup := by
  rcases t.ids_cases (p := p) hn hf with h | h <;> rw [h]
  · exact hn
  · exact List.concat_eq_append ▸ hn.concat hf

theorem mem_ids {t : Turn} (hn : w.ids.Nodup) (hf : t.freshId ∉ w.ids) {id : String}
    (hm : id ∈ (t.run p w).2.ids) : id ∈ w.ids ∨ id = t.freshId := by
  rcases t.ids_cases (p := p) hn hf with h | h <;> rw [h] at hm
  · exact .inl hm
  · simpa using hm

end Turn

/-! ### Runs -/

/-- No id twice, and the turns to come bring ids that are new, to the store and among themselves. -/
structure Apart (turns : List Turn) (w : World) : Prop where
  distinct : w.ids.Nodup
  unused : ∀ t ∈ turns, t.freshId ∉ w.ids
  fresh : (turns.map Turn.freshId).Nodup

namespace Apart

variable {t : Turn} {turns early late : List Turn}

theorem unusedId (h : Apart (t :: turns) w) : t.freshId ∉ w.ids := h.unused t List.mem_cons_self

theorem step (h : Apart (t :: turns) w) : Apart turns (t.run p w).2 := by
  have hd := List.nodup_cons.mp (List.map_cons ▸ h.fresh)
  refine ⟨t.distinct h.distinct h.unusedId, fun u hu hm => ?_, hd.2⟩
  rcases Turn.mem_ids h.distinct h.unusedId hm with hm | hm
  · exact h.unused u (List.mem_cons_of_mem _ hu) hm
  · exact hd.1 (List.mem_map.mpr ⟨u, hu, hm⟩)

theorem append (h : Apart (early ++ late) w) : Apart late (play p early w).2 :=
  play_leads (H := Apart) step h

theorem first (h : Apart (early ++ late) w) : Apart early w :=
  ⟨h.distinct, fun t ht => h.unused t (List.mem_append_left _ ht),
    (List.nodup_append.mp (List.map_append ▸ h.fresh)).1⟩

/-- What every turn keeps, a run keeps. -/
theorem keeps {I : World → Prop} (h : Apart turns w)
    (step : ∀ t ∈ turns, ∀ u : World, u.ids.Nodup → t.freshId ∉ u.ids → I u → I (t.run p u).2) (hw : I w) :
    I (play p turns w).2 := by
  induction turns generalizing w with
  | nil => exact hw
  | cons t rest ih =>
    exact ih h.step (fun u hu => step u (List.mem_cons_of_mem _ hu))
      (step t List.mem_cons_self w h.distinct h.unusedId hw)

end Apart

end Fleet.Vm
