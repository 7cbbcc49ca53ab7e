import Fleet.Proofs.Vm.Columns
import Fleet.Proofs.Vm.Writes

/-!
One run next to another. The second world is made of the first, in a way that the accesses for a user do not
upset; then every operation for that user answers the same in both, and what it leaves in the second is made
of what it leaves in the first.
-/

namespace Fleet.Vm

/-! ### Rows that are written -/

namespace Row

/-- The same instance later, with no time but the present one that it did not have. -/
structure Renewed (now : Instant) (r r' : Row) : Prop where
  id_eq : r'.id = r.id
  userId_eq : r'.userId = r.userId
  createdAt_eq : r'.createdAt = r.createdAt
  times : ∀ t ∈ r'.times, t ∈ r.times ∨ t = now

variable (r : Row) (now : Instant)

theorem renewed_promote : r.Renewed now (r.promote now) :=
  ⟨rfl, rfl, rfl, by simp [Row.times, promote]; grind⟩

theorem renewed_disconnect : r.Renewed now (r.disconnect now) :=
  ⟨rfl, rfl, rfl, by simp [Row.times, disconnect]; grind⟩

theorem renewed_beat : r.Renewed now (r.beat now) :=
  ⟨rfl, rfl, rfl, by simp [Row.times, beat]; grind⟩

theorem renewed_consume : r.Renewed now (r.consume now) :=
  ⟨rfl, rfl, rfl, by simp [Row.times, consume]; grind⟩

theorem renewed_fail (code : String) : r.Renewed now (r.fail code now) :=
  ⟨rfl, rfl, rfl, by simp [Row.times, fail]; grind⟩

theorem renewed_retry (ticket : String) : r.Renewed now (r.retry ticket now) :=
  ⟨rfl, rfl, rfl, by simp [Row.times, retry]; grind⟩

end Row

namespace Work

variable {α β : Type} {f : World → World} {I : World → Prop} {w v : World}

/-- The same answer in a world and in what is made of it, and again a world of this kind. -/
def Same (f : World → World) (I : World → Prop) (x : Work α) (w : World) : Prop :=
  ∃ a v, x w = (a, v) ∧ x (f w) = (a, f v) ∧ I v

theorem Same.answer (hw : I w) (a : α) : Same f I (pure a) w := ⟨.ok a, w, rfl, rfl, hw⟩

theorem Same.refusal (hw : I w) (e : Error) : Same f I (throw e : Work α) w := ⟨.error e, w, rfl, rfl, hw⟩

theorem Same.bind {x : Work α} {g : α → Work β} (h : Same f I x w)
    (hg : ∀ a v, x w = (.ok a, v) → I v → Same f I (g a) v) : Same f I (x >>= g) w := by
  obtain ⟨a, v, hx, hx', hv⟩ := h
  cases a with
  | error e => exact ⟨_, v, bind_of_error hx, bind_of_error hx', hv⟩
  | ok a =>
    obtain ⟨b, u, hb, hb', hu⟩ := hg a v hx hv
    exact ⟨b, u, (bind_of_ok hx).trans hb, (bind_of_ok hx').trans hb', hu⟩

/-- Giving the answer another form makes no difference. -/
theorem Same.map {x : Work α} (h : Same f I x w) (g : α → β) : Same f I (do return g (← x)) w :=
  h.bind fun _ _ _ hv => .answer hv _

end Work

open Work World

/-- In worlds of the kind `I`, what is made of them by `f` answers the accesses for a user as they do. -/
structure Mirror (s : Surroundings) (user : String) (f : World → World) (I : World → Prop) : Prop where
  distinct : ∀ {w}, I w → w.ids.Nodup
  read : ∀ {w}, I w → Same f I (Work.latest? user) w
  record : ∀ {w}, I w → ∀ l : Launch, l.userId = user → Same f I (Work.record l) w
  update : ∀ {w}, I w → ∀ {r r' : Row}, r ∈ w.store.rows → r.isLive = true → r.userId = user →
    r.Renewed s.now r' → Same f I (Work.update r') w
  insert : ∀ {w}, I w → s.freshId ∉ w.ids → ∀ org,
    Same f I (Work.insert (Row.start s.freshId user org s.freshTicket s.now)) w

namespace Mirror

variable {α : Type} {p : Policy} {s : Surroundings} {user : String} {f : World → World} {I : World → Prop}
  {w : World} {r r' : Row}

/-! ### Accesses -/

/-- What follows a reading of the user's last row. -/
theorem reading (m : Mirror s user f I) (hw : I w) {g : Option Row → Work α}
    (hg : ∀ v, I v → v.store = w.store → Same f I (g (w.store.latest? user)) v) :
    Same f I (Work.latest? user >>= g) w := by
  refine (m.read hw).bind fun a v ha hv => ?_
  rcases latest?_tries w user with ⟨e, faults, h⟩ | ⟨faults, h⟩ <;> rw [h] at ha
  · cases ha
  · cases ha
    exact hg _ hv rfl

/-- What follows a reading of the user's live row. -/
theorem readingLive (m : Mirror s user f I) (hw : I w) {g : Option Row → Work α}
    (absent : ∀ v, I v → v.store = w.store → Same f I (g none) v)
    (present : ∀ v r, I v → v.store = w.store → r ∈ v.store.rows → r.isLive = true → r.userId = user →
      Same f I (g (some r)) v) : Same f I (Work.live? user >>= g) w := by
  rw [Work.live?, bind_assoc]
  refine m.reading hw fun v hv hs => ?_
  rw [pure_bind]
  change Same f I (g (w.live? user)) v
  cases hl : w.live? user with
  | none => exact absent v hv hs
  | some r =>
    obtain ⟨hr, hlive⟩ := mem_of_live? hl
    exact present v r hv hs (hs ▸ hr) hlive (userId_of_live? hl)

/-- What follows a write of a live row of the user. -/
theorem updating (m : Mirror s user f I) (hw : I w) (hr : r ∈ w.store.rows) (hl : r.isLive = true)
    (hu : r.userId = user) (h : r.Renewed s.now r') {x : Work α}
    (hx : ∀ v, I v → r' ∈ v.store.rows → Same f I x v) : Same f I (do Work.update r'; x) w := by
  refine (m.update hw hr hl hu h).bind fun a v ha hv => hx v hv ?_
  rcases update_tries (m.distinct hw) hr h.id_eq h.userId_eq h.createdAt_eq with
    ⟨e, faults, hrun⟩ | ⟨faults, hrun⟩ <;> rw [hrun] at ha <;> cases ha
  exact mem_put_self hr h.id_eq

theorem rewriting (m : Mirror s user f I) (hw : I w) (hr : r ∈ w.store.rows) (hl : r.isLive = true)
    (hu : r.userId = user) (h : r.Renewed s.now r') (a : α) :
    Same f I (do Work.update r'; return a) w :=
  m.updating hw hr hl hu h fun _ hv _ => .answer hv a

/-! ### Operations -/

theorem promote (m : Mirror s user f I) (hw : I w) (hr : r ∈ w.store.rows) (hl : r.isLive = true)
    (hu : r.userId = user) : Same f I (Policy.promote r s.now) w :=
  m.rewriting hw hr hl hu (r.renewed_promote _) _

theorem launch (m : Mirror s user f I) (hw : I w) (hr : r ∈ w.store.rows) (hl : r.isLive = true)
    (hu : r.userId = user) : Same f I (p.launch s r) w := by
  refine (m.record hw (p.bootstrap s r) hu).bind fun a v ha hv => ?_
  obtain ⟨-, rfl⟩ := Prod.mk.inj ha
  cases s.launched with
  | ok _ => exact .answer hv _
  | error _ => exact m.rewriting hv hr hl hu (r.renewed_fail _ _) _

theorem startFresh (m : Mirror s user f I) (hw : I w) (hf : s.freshId ∉ w.ids) (org : String) :
    Same f I (p.startFresh s user org) w := by
  refine (m.insert hw hf org).bind fun a v ha hv => ?_
  rcases insert_tries w (Row.start s.freshId user org s.freshTicket s.now) with
    ⟨e, faults, hrun⟩ | ⟨faults, hrun⟩ <;> rw [hrun] at ha <;> cases ha
  exact m.launch hv (List.mem_append_right _ (List.mem_singleton.mpr rfl)) rfl rfl

theorem recover (m : Mirror s user f I) (hw : I w) (hr : r ∈ w.store.rows) (hl : r.isLive = true)
    (hu : r.userId = user) (force : Bool) : Same f I (p.recover s r force) w := by
  unfold Policy.recover
  split
  · exact m.rewriting hw hr hl hu (r.renewed_fail _ _) _
  · split
    · exact .answer hw _
    · exact m.updating hw hr hl hu (r.renewed_retry _ _) fun v hv hr' => m.launch hv hr' rfl hu

/-- A live row is disconnected in one way or another, and then goes the way of disconnected rows. -/
theorem disconnect (m : Mirror s user f I) (hw : I w) (hr : r ∈ w.store.rows) (hl : r.isLive = true)
    (hu : r.userId = user) (h : r.Renewed s.now r') (hs : r'.status = .disconnected) (force : Bool) :
    Same f I (do Work.update r'; p.recover s r' force : Work Outcome) w := by
  have hl' : r'.isLive = true := by simp [Row.isLive, hs, Status.isTerminal]
  exact m.updating hw hr hl hu h fun v hv hr' => m.recover hv hr' hl' (h.userId_eq.trans hu) force

theorem pending (m : Mirror s user f I) (hw : I w) (hr : r ∈ w.store.rows) (hl : r.isLive = true)
    (hu : r.userId = user) (wsReady : Bool) :
    Same f I (if wsReady then Policy.promote r s.now
      else if p.settings.bootstrapTimeout ≤ r.msSinceBootstrap s.now then
        p.demoteAndRecover s { r.disconnect s.now with lastError := some Code.timedOut }
      else return .notReady r (some p.settings.readyRetry) : Work Outcome) w := by
  split
  · exact m.promote hw hr hl hu
  · split
    · obtain ⟨hid, huser, hc, ht⟩ := r.renewed_disconnect s.now
      have h : r.Renewed s.now { r.disconnect s.now with lastError := some Code.timedOut } :=
        ⟨hid, huser, hc, ht⟩
      exact m.disconnect hw hr hl hu h rfl false
    · exact .answer hw _

theorem ensure (m : Mirror s user f I) (hw : I w) (hf : s.freshId ∉ w.ids) (org : String) (wsReady : Bool) :
    Same f I (p.ensure s user org wsReady) w := by
  refine m.reading hw fun v hv hstore => ?_
  have hfresh : Same f I (p.startFresh s user org) v :=
    m.startFresh hv (by rw [ids, hstore]; exact hf) org
  cases hlast : w.store.latest? user with
  | none => exact hfresh
  | some r =>
    have hr : r ∈ v.store.rows := hstore ▸ mem_of_latest? hlast
    have hu := userId_of_latest? hlast
    have live (h : r.status.isTerminal = false) : r.isLive = true := by simp [Row.isLive, h]
    cases hs : r.status <;> simp only [hs]
    case terminated => exact hfresh
    case failed =>
      split
      · exact .answer hv _
      · split
        · exact .answer hv _
        · exact hfresh
    case starting => exact m.pending hv hr (live (by rw [hs]; rfl)) hu wsReady
    case provisioning => exact m.pending hv hr (live (by rw [hs]; rfl)) hu wsReady
    case ready =>
      split
      · exact .answer hv _
      · exact m.disconnect hv hr (live (by rw [hs]; rfl)) hu (r.renewed_disconnect _) rfl false
    case disconnected =>
      split
      · exact m.promote hv hr (live (by rw [hs]; rfl)) hu
      · exact m.recover hv hr (live (by rw [hs]; rfl)) hu false

theorem forceRebootstrap (m : Mirror s user f I) (hw : I w) (hf : s.freshId ∉ w.ids) (org : String) :
    Same f I (p.forceRebootstrap s user org) w := by
  refine m.readingLive hw ?_ ?_
  · exact fun v hv hstore => m.startFresh hv (by rw [ids, hstore]; exact hf) org
  · intro v r hv hstore hr hl hu
    dsimp only
    split
    · exact m.recover hv hr hl hu true
    · exact m.disconnect hv hr hl hu (r.renewed_disconnect _) rfl true

theorem consumeTicket (m : Mirror s user f I) (hw : I w) (ticket : String) :
    Same f I (Work.consumeTicket s.now user ticket) w := by
  refine m.readingLive hw (fun v hv _ => .refusal hv _) fun v r hv _ hr hl hu => ?_
  dsimp only
  split
  · exact Same.bind (.refusal hv _) fun a u ha => nomatch ha
  · cases r.ticketConsumedAt with
    | none => exact m.rewriting hv hr hl hu (r.renewed_consume _) _
    | some _ =>
      change Same f I (if r.status = .disconnected then return r
        else throw (.auth s!"Connect ticket already used (status: {r.status.name})") : Work Row) v
      split
      · exact .answer hv _
      · exact .refusal hv _

theorem markConnected (m : Mirror s user f I) (hw : I w) : Same f I (Work.markConnected s.now user) w :=
  m.readingLive hw (fun _ hv _ => .answer hv _) fun _ _ hv _ hr hl hu => (m.promote hv hr hl hu).map _

theorem markDisconnected (m : Mirror s user f I) (hw : I w) :
    Same f I (Work.markDisconnected s.now user) w := by
  refine m.readingLive hw (fun _ hv _ => .answer hv _) fun v r hv _ hr hl hu => ?_
  dsimp only
  split
  · exact m.rewriting hv hr hl hu (r.renewed_disconnect _) _
  · exact .answer hv _

theorem recordHeartbeat (m : Mirror s user f I) (hw : I w) :
    Same f I (Work.recordHeartbeat s.now user) w :=
  m.readingLive hw (fun _ hv _ => .answer hv _) fun _ r hv _ hr hl hu =>
    m.update hv hr hl hu (r.renewed_beat _)

theorem demoteStale {candidate : Row} (m : Mirror s candidate.userId f I) (hw : I w) :
    Same f I (Work.demoteStale s.now candidate) w := by
  refine m.readingLive hw (fun _ hv _ => .answer hv _) fun v r hv _ hr hl hu => ?_
  dsimp only
  split
  · exact m.rewriting hv hr hl hu (r.renewed_disconnect _) _
  · exact .answer hv _

end Mirror

/-- Whose row an operation is about. A sweep is about all rows. -/
def Operation.user? : Operation → Option String
  | .ensure user _ _ | .force user _ | .consume user _ | .connected user | .disconnected user
  | .heartbeat user => some user
  | .sweep _ => none

theorem Mirror.work {p : Policy} {s : Surroundings} {user : String} {f : World → World} {I : World → Prop}
    {w : World} (m : Mirror s user f I) (hw : I w) (hf : s.freshId ∉ w.ids) {o : Operation}
    (ho : o.user? = some user) : Same f I (o.work p s) w := by
  cases o <;> cases ho
  case ensure org wsReady => exact (m.ensure hw hf org wsReady).map _
  case force org => exact (m.forceRebootstrap hw hf org).map _
  case consume ticket => exact (m.consumeTicket hw ticket).map _
  case connected => exact (m.markConnected hw).map _
  case disconnected => exact (m.markDisconnected hw).map _
  case heartbeat => exact (m.recordHeartbeat hw).map _

end Fleet.Vm
