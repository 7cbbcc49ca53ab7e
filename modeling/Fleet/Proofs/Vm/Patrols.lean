import Fleet.Proofs.Vm.Spacing

/-!
A sweep among other operations. It lists the ready rows that look stale, takes their users' locks one after the
other, and looks at each row again; what other operations do in between it notices only as far as it looks. It
does not look whether a sign of life has come.
-/

namespace Fleet.Vm

/-- A sweep on its way: the world by now, and the listed rows whose locks it has still to take. -/
structure Patrol where
  world : World
  waiting : List Row

namespace Patrol

/-- What comes next: another operation, or the sweep gets the next lock and looks at that row. -/
inductive Move where
  | turn (t : Turn)
  | visit

def Move.turn? : Move → Option Turn
  | .turn t => some t
  | .visit => none

/-- A sweep that has listed the ready rows and kept those that look stale. -/
def list (cutoff : Instant) (w : World) : Patrol :=
  match Work.staleRows cutoff w with
  | (.ok rows, v) => ⟨v, rows⟩
  | (.error _, v) => ⟨v, []⟩

/-- A failure of the store ends the sweep. -/
def take (p : Policy) (now : Instant) (s : Patrol) : Move → Patrol
  | .turn t => { s with world := (t.run p s.world).2 }
  | .visit =>
    match s.waiting with
    | [] => s
    | c :: rest =>
      match Work.demoteStale now c s.world with
      | (.ok _, v) => ⟨v, rest⟩
      | (.error _, v) => ⟨v, []⟩

def play (p : Policy) (now : Instant) (s : Patrol) (moves : List Move) : Patrol := moves.foldl (take p now) s

end Patrol

/-- The turn writes a sign of life, at its reading, to the row with this id. -/
def Turn.Hears (p : Policy) (t : Turn) (w : World) (id : String) : Prop :=
  ∃ r ∈ (t.run p w).2.store.rows, r.id = id ∧ r.lastHeartbeatAt = some t.surroundings.now ∧ r ∉ w.store.rows

/-- Every ready row has had a sign of life. -/
def World.Heard (w : World) : Prop := ∀ r ∈ w.store.rows, r.status = .ready → r.lastHeartbeatAt ≠ none

variable {p : Policy} {s : Surroundings} {t : Turn} {w v : World} {r r' q : Row} {now cutoff : Instant}

open World

/-! ### Signs of life -/

namespace Row

theorem Revised.heartbeat (h : r.Revised p now r') :
    (r'.lastHeartbeatAt = r.lastHeartbeatAt ∧ (r'.status = .ready → r.status = .ready)) ∨
      r'.lastHeartbeatAt = some now := by
  cases h
  case promoted => exact .inr rfl
  case beaten => exact .inr rfl
  case consumed => exact .inl ⟨rfl, fun h => h⟩
  all_goals exact .inl ⟨rfl, fun h => nomatch h⟩

theorem Drifts.heartbeat (h : r.Drifts p now r') :
    (r'.lastHeartbeatAt = r.lastHeartbeatAt ∧ (r'.status = .ready → r.status = .ready)) ∨
      r'.lastHeartbeatAt = some now := by
  induction h with
  | refl => exact .inl ⟨rfl, fun h => h⟩
  | tail _ h ih =>
    rcases h.2.1.heartbeat with ⟨hsame, hready⟩ | hnow
    · rcases ih with ⟨hsame', hready'⟩ | hnow
      · exact .inl ⟨hsame.trans hsame', fun hr => hready' (hready hr)⟩
      · exact .inr (hsame.trans hnow)
    · exact .inr hnow

theorem Rewritten.heartbeat (h : r.Rewritten p now r') :
    (r'.lastHeartbeatAt = r.lastHeartbeatAt ∧ (r'.status = .ready → r.status = .ready)) ∨
      r'.lastHeartbeatAt = some now := by
  cases h with
  | drifted h => exact h.heartbeat
  | promoted _ => exact .inr rfl

end Row

/-- A row's sign of life is the one it had or is of this turn; a new row has none and is not ready. -/
theorem Wrote.heartbeat {rows rows' : List Row} {launched : List Launch} (h : Wrote p s rows rows' launched)
    (hr : r' ∈ rows') :
    (r'.id = s.freshId ∧ r'.status ≠ .ready) ∨ ∃ r ∈ rows, r.id = r'.id ∧
      ((r'.lastHeartbeatAt = r.lastHeartbeatAt ∧ (r'.status = .ready → r.status = .ready)) ∨
        r'.lastHeartbeatAt = some s.now) := by
  cases h with
  | quiet h =>
    obtain ⟨i, hi, rfl⟩ := List.mem_iff_getElem.mp hr
    have hi' : i < rows.length := h.length_eq ▸ hi
    have hrow : Row.Rewritten p s.now rows[i] rows'[i] := h.get hi' hi
    exact .inr ⟨_, List.getElem_mem hi', hrow.id_eq.symm, hrow.heartbeat⟩
  | opened user org vacant settled =>
    rcases List.mem_append.mp hr with hr | hr
    · exact .inr ⟨r', hr, rfl, .inl ⟨rfl, id⟩⟩
    · rw [List.mem_singleton.mp hr]
      exact .inl ⟨settled.id_eq, settled.not_ready (by simp [Row.start])⟩
  | @reopened r q x mem drifts h left settled =>
    rcases mem_put (w := holding rows) hr with rfl | ⟨hr, -⟩
    · have hbeat : r'.lastHeartbeatAt = q.lastHeartbeatAt := by rcases settled with rfl | rfl <;> rfl
      have hready := settled.not_ready (by simp [Row.retry])
      refine .inr ⟨r, mem, (settled.id_eq.trans drifts.id_eq).symm, ?_⟩
      rcases drifts.heartbeat with ⟨hsame, -⟩ | hnow
      · exact .inl ⟨hbeat.trans hsame, fun hr => absurd hr hready⟩
      · exact .inr (hbeat.trans hnow)
    · exact .inr ⟨r', hr, rfl, .inl ⟨rfl, id⟩⟩

namespace World

theorem Heard.run (hw : w.Heard) (hn : w.ids.Nodup) (hf : t.freshId ∉ w.ids) : (t.run p w).2.Heard := by
  obtain ⟨launched, -, hwrote⟩ := t.reaches (p := p) hn hf
  intro r' hr' hs
  rcases hwrote.heartbeat hr' with ⟨-, hno⟩ | ⟨r, hr, -, ⟨hsame, hready⟩ | hnow⟩
  · exact absurd hs hno
  · exact hsame ▸ hw r hr (hready hs)
  · rw [hnow]
    exact nofun

end World

namespace Work

/-- A row that is looked at again is left, or it is the listed row by its id, ready, and disconnected. -/
theorem demoteStale_rows (hn : w.ids.Nodup) (now : Instant) (c : Row) :
    (demoteStale now c w).2.store.rows = w.store.rows ∨ ∃ r ∈ w.store.rows, r.id = c.id ∧ r.status = .ready ∧
      (demoteStale now c w).2.store.rows = (r.disconnect now).into w.store.rows := by
  let Left (v : World) : Prop := v.store.rows = w.store.rows ∨ ∃ r ∈ w.store.rows, r.id = c.id ∧
    r.status = .ready ∧ v.store.rows = (r.disconnect now).into w.store.rows
  refine (live?_tries w c.userId).bind (P := Left) (fun _ => .inl rfl) fun faults => ?_
  cases hl : w.live? c.userId with
  | none => exact .inl rfl
  | some r =>
    have hr := (mem_of_live? hl).1
    dsimp only
    split
    · rename_i hs
      have hup : (update (r.disconnect now)).Tries (w.meeting faults) () ((w.meeting faults).put (r.disconnect now)) :=
        update_tries hn hr rfl rfl rfl
      exact hup.bind (P := Left) (fun _ => .inl rfl) fun _ => .inr ⟨r, hr, hs.1, hs.2, rfl⟩
    · exact .inl rfl

end Work

namespace Patrol

variable {start g : Patrol} {moves before : List Move}

/-! ### Without interruption -/

theorem play_done (n : Nat) (w : World) : play p now ⟨w, []⟩ (List.replicate n .visit) = ⟨w, []⟩ := by
  induction n with
  | zero => rfl
  | succ n ih => exact ih

theorem take_visit (c : Row) (rest : List Row) (w : World) : take p now ⟨w, c :: rest⟩ .visit =
    match Work.demoteStale now c w with
    | (.ok _, v) => ⟨v, rest⟩
    | (.error _, v) => ⟨v, []⟩ := rfl

theorem visits (rows : List Row) (n : Nat) (w : World) :
    (play p now ⟨w, rows⟩ (List.replicate rows.length .visit)).world = (Work.demoteAll now rows n w).2 := by
  induction rows generalizing n w with
  | nil => rfl
  | cons c rest ih =>
    have hstep : play p now ⟨w, c :: rest⟩ (List.replicate (rest.length + 1) .visit) =
        play p now (take p now ⟨w, c :: rest⟩ .visit) (List.replicate rest.length .visit) := rfl
    rw [List.length_cons, hstep, take_visit, Work.demoteAll, Work.bind_apply]
    rcases Work.demoteStale now c w with ⟨e | b, v⟩
    · exact congrArg Patrol.world (play_done _ v)
    · exact ih _ v

/-- A sweep that nothing comes between is the sweep as one operation. -/
theorem sweep_eq (cutoff : Instant) (w : World) :
    (play p now (list cutoff w) (List.replicate (list cutoff w).waiting.length .visit)).world =
      (Work.sweep now cutoff w).2 := by
  unfold list Work.sweep
  rw [Work.bind_apply]
  rcases Work.staleRows cutoff w with ⟨e | rows, v⟩
  · rfl
  · exact visits rows 0 v

/-! ### Among other operations -/

/-- Since the sweep began, a sign of life of the row was written that is the row's last one. -/
def Heard (p : Policy) (now : Instant) (start : Patrol) (moves : List Move) (r : Row) : Prop :=
  ∃ before t later, moves = before ++ .turn t :: later ∧ t.Hears p (start.play p now before).world r.id ∧
    r.lastHeartbeatAt = some t.surroundings.now

theorem Heard.further {more : List Move} (h : Heard p now start moves r) :
    Heard p now start (moves ++ more) r := by
  obtain ⟨before, t, later, rfl, h⟩ := h
  exact ⟨before, t, later ++ more, by simp, h⟩

/-- It matters only which row it is, and which its last sign of life. -/
theorem Heard.of_same (h : Heard p now start moves r) (hid : q.id = r.id)
    (hbeat : q.lastHeartbeatAt = r.lastHeartbeatAt) : Heard p now start moves q := by
  unfold Heard at h ⊢
  rw [hid, hbeat]
  exact h

/-- Each row that waits was stale when it was listed, and its sign of life is still the same or has been written
since. -/
structure Follows (p : Policy) (now cutoff : Instant) (start : Patrol) (moves : List Move) : Prop where
  distinct : (start.play p now moves).world.ids.Nodup
  known : ∀ c ∈ (start.play p now moves).waiting, c.id ∈ (start.play p now moves).world.ids
  stale : ∀ c ∈ (start.play p now moves).waiting, ∃ seen, c.lastHeartbeatAt = some seen ∧ seen < cutoff
  since : ∀ c ∈ (start.play p now moves).waiting, ∀ r ∈ (start.play p now moves).world.store.rows,
    r.id = c.id → r.lastHeartbeatAt = c.lastHeartbeatAt ∨ Heard p now start moves r

theorem play_concat (p : Policy) (now : Instant) (start : Patrol) (moves : List Move) (m : Move) :
    start.play p now (moves ++ [m]) = (start.play p now moves).take p now m := by
  simp [play]

theorem Follows.turn (h : Follows p now cutoff start moves)
    (hf : t.freshId ∉ (start.play p now moves).world.ids) : Follows p now cutoff start (moves ++ [.turn t]) := by
  obtain ⟨launched, -, hwrote⟩ := t.reaches (p := p) h.distinct hf
  have hplay := play_concat p now start moves (.turn t)
  refine ⟨?_, ?_, ?_, ?_⟩ <;> rw [hplay]
  · exact t.distinct h.distinct hf
  · intro c hc
    rcases t.ids_cases (p := p) h.distinct hf with hids | hids
    · exact hids ▸ h.known c hc
    · exact hids ▸ List.mem_append_left _ (h.known c hc)
  · exact h.stale
  · intro c hc r' hr' hid
    rcases hwrote.heartbeat hr' with ⟨hnew, -⟩ | ⟨r, hr, hrid, ⟨hsame, -⟩ | hnow⟩
    · -- a new row has an id that no row that waits has
      have hknown := h.known c hc
      rw [← hid, hnew] at hknown
      exact absurd hknown hf
    · rcases h.since c hc r hr (hrid.trans hid) with hold | hheard
      · exact .inl (hsame.trans hold)
      · exact .inr (hheard.of_same hrid.symm hsame).further
    · by_cases hsame : r' ∈ (start.play p now moves).world.store.rows
      · exact (h.since c hc r' hsame hid).imp_right Heard.further
      · exact .inr ⟨moves, t, [], by simp, ⟨r', hr', rfl, hnow, hsame⟩, hnow⟩

/-- A visit leaves everything, or it looks at the first row that waits. -/
theorem take_visit_cases (p : Policy) (now : Instant) (g : Patrol) : take p now g .visit = g ∨
    ∃ c rest, g.waiting = c :: rest ∧ (take p now g .visit).world = (Work.demoteStale now c g.world).2 ∧
      ∀ a ∈ (take p now g .visit).waiting, a ∈ rest := by
  obtain ⟨w, _ | ⟨c, rest⟩⟩ := g
  · exact .inl rfl
  · refine .inr ⟨c, rest, rfl, ?_, ?_⟩ <;> rw [take_visit] <;> rcases Work.demoteStale now c w with ⟨e | b, v⟩
    · rfl
    · rfl
    · exact fun a ha => absurd ha List.not_mem_nil
    · exact fun a ha => ha

/-- What a visit does to the rows. -/
theorem visit_rows (hn : g.world.ids.Nodup) (hr : r' ∈ (g.take p now .visit).world.store.rows) :
    r' ∈ g.world.store.rows ∨ ∃ c ∈ g.waiting, ∃ r ∈ g.world.store.rows, r.id = c.id ∧ r.status = .ready ∧
      r' = r.disconnect now := by
  rcases take_visit_cases p now g with hsame | ⟨c, rest, hc, hworld, -⟩
  · exact .inl (hsame ▸ hr)
  · rw [hworld] at hr
    rcases Work.demoteStale_rows hn now c with hrows | ⟨r, hmem, hid, hs, hrows⟩ <;> rw [hrows] at hr
    · exact .inl hr
    · rcases mem_put (w := g.world) hr with hput | ⟨hr, -⟩
      · exact .inr ⟨c, hc ▸ List.mem_cons_self, r, hmem, hid, hs, hput⟩
      · exact .inl hr

theorem visit_ids (p : Policy) (now : Instant) (hn : g.world.ids.Nodup) :
    (g.take p now .visit).world.ids = g.world.ids := by
  rcases take_visit_cases p now g with hsame | ⟨c, rest, -, hworld, -⟩
  · rw [hsame]
  · rw [hworld]
    exact (Work.demoteStale_drifting (p := p) (s := ⟨now, 0, "", "", .ok ()⟩) hn c).ids_eq

theorem visit_waiting (p : Policy) (now : Instant) (g : Patrol) :
    ∀ c ∈ (g.take p now .visit).waiting, c ∈ g.waiting := by
  rcases take_visit_cases p now g with hsame | ⟨c, rest, hc, -, hrest⟩
  · rw [hsame]
    exact fun c hc => hc
  · exact fun a ha => hc ▸ List.mem_cons_of_mem _ (hrest a ha)

theorem Follows.visit (h : Follows p now cutoff start moves) :
    Follows p now cutoff start (moves ++ [.visit]) := by
  have hplay := play_concat p now start moves .visit
  have hwaits := visit_waiting p now (start.play p now moves)
  have hids := visit_ids p now h.distinct
  refine ⟨?_, ?_, ?_, ?_⟩ <;> rw [hplay]
  · exact hids ▸ h.distinct
  · exact fun c hc => hids ▸ h.known c (hwaits c hc)
  · exact fun c hc => h.stale c (hwaits c hc)
  · intro c hc r' hr' hid
    have hsince := h.since c (hwaits c hc)
    rcases visit_rows h.distinct hr' with hr | ⟨-, -, r, hr, -, -, rfl⟩
    · exact (hsince r' hr hid).imp_right Heard.further
    · exact (hsince r hr hid).imp_right fun hheard => (hheard.of_same rfl rfl).further

/-- A sweep lists ready rows that are stale, or nothing where the store fails, and writes nothing. -/
theorem list_spec (cutoff : Instant) (w : World) : (list cutoff w).world.store = w.store ∧
    ∀ c ∈ (list cutoff w).waiting, c ∈ w.store.rows ∧ c.status = .ready ∧ c.lastSeen < cutoff := by
  unfold list
  rcases Work.staleRows_tries w cutoff with ⟨e, faults, h⟩ | ⟨faults, h⟩ <;> rw [h]
  · exact ⟨rfl, fun c hc => absurd hc List.not_mem_nil⟩
  · refine ⟨rfl, fun c hc => ?_⟩
    obtain ⟨hready, hstale⟩ := List.mem_filter.mp hc
    obtain ⟨hlisted, hs⟩ := List.mem_filter.mp hready
    exact ⟨mem_listing.mp hlisted, eq_of_beq hs, of_decide_eq_true hstale⟩

theorem Follows.listed (hw : w.Heard) (hn : w.ids.Nodup) (p : Policy) (now cutoff : Instant) :
    Follows p now cutoff (list cutoff w) [] := by
  obtain ⟨hstore, hlisted⟩ := list_spec cutoff w
  have hids : (list cutoff w).world.ids = w.ids := by rw [ids, ids, hstore]
  refine ⟨hids ▸ hn, fun c hc => ?_, fun c hc => ?_, fun c hc r hr hid => ?_⟩
  · exact hids ▸ List.mem_map.mpr ⟨c, (hlisted c hc).1, rfl⟩
  · obtain ⟨hmem, hs, hstale⟩ := hlisted c hc
    obtain ⟨seen, hseen⟩ := Option.ne_none_iff_exists'.mp (hw c hmem hs)
    rw [Row.lastSeen, hseen] at hstale
    exact ⟨seen, hseen, hstale⟩
  · have hr : r ∈ w.store.rows := hstore ▸ hr
    exact .inl (congrArg Row.lastHeartbeatAt (eq_of_id hn hr (hlisted c hc).1 hid))

theorem Follows.play (h : Follows p now cutoff start before)
    (ha : Apart (moves.filterMap Move.turn?) (start.play p now before).world) :
    Follows p now cutoff start (before ++ moves) := by
  induction moves generalizing before with
  | nil => exact (List.append_nil before).symm ▸ h
  | cons m rest ih =>
    rw [List.append_cons]
    cases m with
    | turn t =>
      have ha : Apart (t :: rest.filterMap Move.turn?) (start.play p now before).world := ha
      exact ih (h.turn ha.unusedId) (play_concat p now start before (.turn t) ▸ ha.step)
    | visit =>
      have hids := visit_ids p now h.distinct
      refine ih h.visit (play_concat p now start before .visit ▸ ⟨?_, ?_, ha.fresh⟩)
      · exact hids ▸ ha.distinct
      · exact hids ▸ ha.unused

/-- A visit disconnects a ready row whose id is that of a row that waited. -/
theorem visit_demotes (hn : g.world.ids.Nodup) (hr : r ∈ g.world.store.rows)
    (hr' : r' ∈ (g.take p now .visit).world.store.rows) (hid : r'.id = r.id)
    (hwas : r.status ≠ .disconnected) (his : r'.status = .disconnected) :
    r.status = .ready ∧ ∃ c ∈ g.waiting, r.id = c.id := by
  rcases visit_rows hn hr' with hmem | ⟨c, hc, q, hq, hqid, hs, rfl⟩
  · exact absurd (eq_of_id hn hmem hr hid ▸ his) hwas
  · have hsame : q = r := eq_of_id hn hq hr hid
    exact hsame ▸ ⟨hs, c, hc, hqid⟩

/-- Of a row that waits: its last sign of life is older than the cutoff unless a newer one was written since. -/
theorem Follows.stale_iff (h : Follows p now cutoff start moves) {c : Row}
    (hc : c ∈ (start.play p now moves).waiting) (hr : r ∈ (start.play p now moves).world.store.rows)
    (hid : r.id = c.id) : r.lastSeen < cutoff ↔ ¬ ∃ before t later, moves = before ++ .turn t :: later ∧
      ¬ t.surroundings.now < cutoff ∧ t.Hears p (start.play p now before).world r.id ∧
      r.lastHeartbeatAt = some t.surroundings.now := by
  constructor
  · rintro hstale ⟨before, t, later, -, hnew, -, hbeat⟩
    rw [Row.lastSeen, hbeat] at hstale
    exact hnew hstale
  · intro hno
    rcases h.since c hc r hr hid with hsame | ⟨before, t, later, hmoves, hhears, hbeat⟩
    · obtain ⟨seen, hseen, hstale⟩ := h.stale c hc
      rw [Row.lastSeen, hsame, hseen]
      exact hstale
    · rw [Row.lastSeen, hbeat]
      by_contra hnew
      exact hno ⟨before, t, later, hmoves, hnew, hhears, hbeat⟩

end Patrol

/-- Over any operations before a sweep and any that come between its steps, on either kind of store and whatever
accesses to it fail. A sweep that nothing comes between is the operation. What a visit disconnects is a ready row,
and it is stale then unless a sign of life that is not older than the cutoff was written to it since the sweep
listed its rows: this the sweep does not notice. -/
theorem demoted_rows_are_stale_iff (p : Policy) (keeping : Keeping) (faults : List (Option Error))
    (early : List Turn) (moves : List Patrol.Move) (now cutoff : Instant)
    (fresh : ((early ++ moves.filterMap Patrol.Move.turn?).map Turn.freshId).Nodup) :
    let start := Patrol.list cutoff (play p early (.vacant keeping faults)).2
    let g := start.play p now moves
    (start.play p now (List.replicate start.waiting.length .visit)).world =
      (Work.sweep now cutoff (play p early (.vacant keeping faults)).2).2 ∧
    ∀ r ∈ g.world.store.rows, ∀ r' ∈ (g.take p now .visit).world.store.rows, r'.id = r.id →
      r.status ≠ .disconnected → r'.status = .disconnected →
      r.status = .ready ∧ (r.lastSeen < cutoff ↔ ¬ ∃ before t later, moves = before ++ .turn t :: later ∧
        ¬ t.surroundings.now < cutoff ∧ t.Hears p (start.play p now before).world r.id ∧
        r.lastHeartbeatAt = some t.surroundings.now) := by
  intro start g
  have hapart : Apart (early ++ moves.filterMap Patrol.Move.turn?) (.vacant keeping faults) := .vacant fresh
  have hheard : (play p early (.vacant keeping faults)).2.Heard :=
    hapart.first.keeps (I := Heard) (fun _ _ _ hn hf hu => hu.run hn hf)
      fun _ h => absurd h List.not_mem_nil
  have hafter := hapart.append (p := p)
  have hbegun : Patrol.Follows p now cutoff start [] := .listed hheard hafter.distinct p now cutoff
  have hids : start.world.ids = (play p early (.vacant keeping faults)).2.ids := by
    rw [ids, ids, (Patrol.list_spec cutoff _).1]
  have hleft : Apart (moves.filterMap Patrol.Move.turn?) (start.play p now []).world :=
    ⟨hids ▸ hafter.distinct, hids ▸ hafter.unused, hafter.fresh⟩
  have hnow : Patrol.Follows p now cutoff start moves := hbegun.play hleft
  refine ⟨Patrol.sweep_eq cutoff _, fun r hr r' hr' hid hwas his => ?_⟩
  obtain ⟨hready, c, hc, hcid⟩ := Patrol.visit_demotes hnow.distinct hr hr' hid hwas his
  exact ⟨hready, hnow.stale_iff hc hr hcid⟩

/-- Two users' rows are stale; while the sweep waits the second one's machine is heard. The first visit
disconnects the first one's row, which is stale. -/
theorem silent_row_is_demoted :
    let p : Policy := ⟨{}, ⟨"secret", 600⟩⟩
    let turn (n : Int) (op : Operation) : Turn :=
      ⟨⟨⟨n, 0⟩, 0, s!"row-{n}", s!"ticket-{n}", .ok ()⟩, op⟩
    let early := [turn 0 (.ensure "u" "o" false), turn 1 (.connected "u"), turn 2 (.ensure "v" "o" false),
      turn 3 (.connected "v")]
    let start := Patrol.list ⟨30, 0⟩ (play p early (.vacant .arrival [])).2
    let g := start.play p ⟨60, 0⟩ [.turn (turn 60 (.heartbeat "v"))]
    let row := (Row.start "row-0" "u" "o" "ticket-0" ⟨0, 0⟩).promote ⟨1, 0⟩
    row ∈ g.world.store.rows ∧ row.disconnect ⟨60, 0⟩ ∈ (g.take p ⟨60, 0⟩ .visit).world.store.rows ∧
    row.status = .ready ∧ row.lastSeen < ⟨30, 0⟩ := by
  intro p turn early start g row
  have h := demoted_rows_are_stale_iff p .arrival [] early [.turn (turn 60 (.heartbeat "v"))] ⟨60, 0⟩ ⟨30, 0⟩
    (by decide +kernel)
  obtain ⟨hready, hstale⟩ := h.2 row (by decide +kernel) (row.disconnect ⟨60, 0⟩) (by decide +kernel) rfl
    (by decide) rfl
  refine ⟨by decide +kernel, by decide +kernel, hready, hstale.mpr ?_⟩
  rintro ⟨before, t, later, -, hnew, -, hbeat⟩
  exact hnew (Option.some.inj hbeat ▸ by decide)

/-- A machine is heard at the very time of the sweep, between its listing of the row and its visit. The visit
disconnects the row all the same. -/
theorem row_just_heard_is_demoted :
    let p : Policy := ⟨{}, ⟨"secret", 600⟩⟩
    let turn (n : Int) (op : Operation) : Turn :=
      ⟨⟨⟨n, 0⟩, 0, s!"row-{n}", s!"ticket-{n}", .ok ()⟩, op⟩
    let start := Patrol.list ⟨30, 0⟩
      (play p [turn 0 (.ensure "u" "o" false), turn 1 (.connected "u")] (.vacant .arrival [])).2
    let g := start.play p ⟨60, 0⟩ [.turn (turn 60 (.heartbeat "u"))]
    let row := ((Row.start "row-0" "u" "o" "ticket-0" ⟨0, 0⟩).promote ⟨1, 0⟩).beat ⟨60, 0⟩
    Work.cutoff? ⟨60, 0⟩ 30000 = some ⟨30, 0⟩ ∧ g.world.store.rows = [row] ∧ row.status = .ready ∧
    ¬ row.lastSeen < ⟨30, 0⟩ ∧ (g.take p ⟨60, 0⟩ .visit).world.store.rows = [row.disconnect ⟨60, 0⟩] := by
  refine ⟨?_, ?_, ?_, ?_, ?_⟩ <;> decide +kernel

end Fleet.Vm
