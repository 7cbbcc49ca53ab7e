import Fleet.Proofs.Vm.Keepings
import Fleet.Proofs.Vm.Launching

/-!
The time between a user's bootstraps, on either kind of store and whatever accesses to it fail. The user's
last row is the one of the last launch and tells when that was, until the next launch; what a request finds
due is therefore due since that launch.
-/

namespace Fleet.Vm

/-- Whole milliseconds from one turn to another. A clock that went back counts as no time. -/
def Turn.since (t earlier : Turn) : Nat :=
  (t.surroundings.now.millisSince earlier.surroundings.now).toNat

/-- These rows, kept as they arrived. -/
def World.holding (rows : List Row) : World := { store := { keeping := .arrival, rows := rows } }

namespace World

/-- Of two rows of a user the earlier one is terminal, and rows are answered in the order in which they
stand: they arrived in it, or they were made in it and none after now. -/
structure Listed (now : Instant) (w : World) : Prop where
  orderly : (holding w.store.rows).Orderly
  sorted : w.store.keeping = .table → (w.store.rows.map Row.createdAt).Pairwise (· ≤ ·)
  past : w.store.keeping = .table → ∀ c ∈ w.store.rows.map Row.createdAt, c ≤ now ∧ c.Stamped

variable {w : World} {now : Instant} {user : String} {r : Row}

theorem Listed.distinct (hw : w.Listed now) : w.ids.Nodup := hw.orderly.distinct

theorem Listed.listing (hw : w.Listed now) : w.store.listing = w.store.rows := by
  cases hk : w.store.keeping with
  | arrival =>
    unfold Store.listing
    rw [hk]
  | table =>
    refine listing_of_sorted hk (List.pairwise_map.mp (hw.sorted hk)) fun r hr => ?_
    exact (hw.past hk _ (List.mem_map.mpr ⟨r, hr, rfl⟩)).2

theorem Listed.latest?_eq (hw : w.Listed now) (user : String) :
    w.store.latest? user = (holding w.store.rows).store.latest? user := by
  rw [Store.latest?, Store.history, hw.listing, Store.latest?, hw.orderly.history]
  rfl

/-- A user's live row is the last one. -/
theorem Listed.latest?_of_live (hw : w.Listed now) (hr : r ∈ w.store.rows) (hl : r.isLive = true) :
    w.store.latest? r.userId = some r := by
  rw [hw.latest?_eq]
  exact (latest?_of_live? (hw.orderly.live?_eq hr hl)).1

end World

open World

variable {p : Policy} {s : Surroundings} {t : Turn} {w : World} {now : Instant} {user : String} {r r' x : Row}

/-! ### One row -/

/-- What stays of a row while nothing is launched for its user. -/
structure Row.Lasts (r r' : Row) : Prop where
  id_eq : r'.id = r.id
  userId_eq : r'.userId = r.userId
  createdAt_eq : r'.createdAt = r.createdAt
  ticket_eq : r'.ticket = r.ticket
  lastBootstrapAt_eq : r'.lastBootstrapAt = r.lastBootstrapAt
  open_ : r.status ≠ .terminated → r'.status ≠ .terminated
  closed : r.isLive = false → r' = r

namespace Row

theorem Lasts.refl (r : Row) : r.Lasts r := ⟨rfl, rfl, rfl, rfl, rfl, fun h => h, fun _ => rfl⟩

theorem Lasts.isLive (h : r.Lasts r') (hl : r'.isLive = true) : r.isLive = true := by
  by_contra hno
  have hdead := Bool.eq_false_iff.mpr hno
  rw [h.closed hdead, hdead] at hl
  cases hl

theorem Revised.lasts (h : r.Revised p now r') (hl : r.isLive = true) : r.Lasts r' := by
  have hopen : r.status ≠ .terminated → r'.status ≠ .terminated := by
    intro hr
    cases h <;> first | exact hr | exact fun h => nomatch h
  refine ⟨h.id_eq, h.userId_eq, h.createdAt_eq, h.ticket_eq, ?_, hopen, fun hd => ?_⟩
  · cases h <;> rfl
  · rw [hl] at hd
    cases hd

theorem Drifts.lasts (h : r.Drifts p now r') : r.Lasts r' := by
  induction h with
  | refl => exact .refl r
  | @tail b c hb hstep ih =>
    have hc := hstep.2.1.lasts hstep.1
    refine ⟨hc.id_eq.trans ih.id_eq, hc.userId_eq.trans ih.userId_eq, hc.createdAt_eq.trans ih.createdAt_eq,
      hc.ticket_eq.trans ih.ticket_eq, hc.lastBootstrapAt_eq.trans ih.lastBootstrapAt_eq,
      fun h => hc.open_ (ih.open_ h), fun hd => ?_⟩
    have hlive := ih.isLive hstep.1
    rw [hd] at hlive
    cases hlive

theorem Rewritten.lasts (h : r.Rewritten p now r') : r.Lasts r' := by
  cases h with
  | drifted h => exact h.lasts
  | promoted live =>
    have hrev : r.Revised p now (r.promote now) := .promoted
    exact hrev.lasts live

end Row

namespace Surroundings

theorem Settled.lastBootstrapAt_eq (h : s.Settled r x) : x.lastBootstrapAt = r.lastBootstrapAt := by
  rcases h with rfl | rfl <;> rfl

theorem Settled.createdAt_eq (h : s.Settled r x) : x.createdAt = r.createdAt := by
  rcases h with rfl | rfl <;> rfl

theorem Settled.not_terminated (h : s.Settled r x) (hr : r.status ≠ .terminated) :
    x.status ≠ .terminated := by
  rcases h with rfl | rfl
  · exact hr
  · exact fun h => nomatch h

end Surroundings

/-! ### One turn -/

/-- The user's last row after a launch: it is that launch's. -/
structure Row.Begun (s : Surroundings) (user : String) (r : Row) : Prop where
  userId_eq : r.userId = user
  ticket_eq : r.ticket = s.freshTicket
  lastBootstrapAt_eq : r.lastBootstrapAt = some s.now
  open_ : r.status ≠ .terminated

theorem getLast?_rel {α : Type} {R : α → α → Prop} {as bs : List α} (h : List.Forall₂ R as bs) :
    Option.Rel R as.getLast? bs.getLast? := by
  rw [List.getLast?_eq_head?_reverse, List.getLast?_eq_head?_reverse]
  have hr := List.rel_reverse h
  generalize as.reverse = as, bs.reverse = bs at hr
  cases hr with
  | nil => exact .none
  | cons h _ => exact .some h

namespace World

theorem holding_latest? (rows : List Row) (user : String) :
    (holding rows).store.latest? user = (rows.filter (Store.ofUser user)).getLast? := rfl

theorem lasts_refl : (o : Option Row) → Option.Rel Row.Lasts o o
  | none => .none
  | some r => .some (.refl r)

/-- What an operation makes of a user's last row, when it launches for others and when for the user. -/
theorem wrote_latest? {rows rows' : List Row} {launched : List Launch} (ho : (holding rows).Orderly)
    (h : Wrote p s rows rows' launched) (user : String) :
    ((launched.filter fun l => l.userId == user) = [] ∧
      Option.Rel Row.Lasts ((holding rows).store.latest? user) ((holding rows').store.latest? user)) ∨
    ∃ l x, launched = [l] ∧ l.userId = user ∧ (holding rows').store.latest? user = some x ∧ x.Begun s user := by
  cases h with
  | quiet h =>
    refine .inl ⟨rfl, getLast?_rel ?_⟩
    have hlasts : List.Forall₂ Row.Lasts rows rows' := h.imp fun _ _ hr => hr.lasts
    exact List.rel_filter (fun a b hab => by simp [Store.ofUser, hab.userId_eq]) hlasts
  | opened other org vacant settled =>
    rename_i x
    have hu : x.userId = other := settled.userId_eq
    by_cases hother : other = user
    · subst hother
      refine .inr ⟨_, x, rfl, rfl, ?_, hu, settled.ticket_eq, settled.lastBootstrapAt_eq,
        settled.not_terminated (by simp [Row.start])⟩
      simp [holding_latest?, Store.ofUser, hu]
    · refine .inl ⟨by simp [Policy.bootstrap, Row.start, hother], ?_⟩
      have hsame : (holding (rows ++ [x])).store.latest? user = (holding rows).store.latest? user := by
        simp [holding_latest?, Store.ofUser, hu, hother]
      rw [hsame]
      exact lasts_refl _
  | @reopened r q x mem drifts h left settled =>
    have hid : x.id = r.id := settled.id_eq.trans drifts.id_eq
    have hu : x.userId = r.userId := settled.userId_eq.trans drifts.userId_eq
    have hlive : r.isLive = true := drifts.isLive (by simp [Row.isLive, h, Status.isTerminal])
    by_cases hother : r.userId = user
    · subst hother
      have hlast := (latest?_of_live? (ho.live?_eq mem hlive)).1
      have hput : (holding (x.into rows)).store.latest? r.userId = some x := ho.latest?_put hlast hid hu
      exact .inr ⟨_, x, rfl, drifts.userId_eq, hput, hu, settled.ticket_eq, settled.lastBootstrapAt_eq,
        settled.not_terminated (by simp [Row.retry])⟩
    · have hbase : (p.bootstrap s (q.retry s.freshTicket s.now)).userId ≠ user :=
        fun h => hother (drifts.userId_eq.symm.trans h)
      have hsame : (holding (x.into rows)).store.latest? user = (holding rows).store.latest? user :=
        congrArg List.getLast? (ho.history_put_ne mem hid hu hother)
      refine .inl ⟨by simp [hbase], ?_⟩
      rw [hsame]
      exact lasts_refl _

/-- What lasts of a row and is not changed by a new bootstrap stays in its place; a new row's comes last. -/
theorem wrote_map {β : Type} {f : Row → β} {rows rows' : List Row} {launched : List Launch}
    (hn : (rows.map Row.id).Nodup) (h : Wrote p s rows rows' launched)
    (lasts : ∀ {a b : Row}, a.Lasts b → f b = f a)
    (starts : ∀ {user org : String} {x : Row},
      s.Settled (Row.start s.freshId user org s.freshTicket s.now) x →
      f x = f (Row.start s.freshId user org s.freshTicket s.now))
    (again : ∀ {q x : Row}, q.status = .disconnected → s.Settled (q.retry s.freshTicket s.now) x → f x = f q) :
    rows'.map f = rows.map f ∨ ∃ user org,
      rows'.map f = rows.map f ++ [f (Row.start s.freshId user org s.freshTicket s.now)] := by
  cases h with
  | quiet h =>
    refine .inl ?_
    clear hn
    induction h with
    | nil => rfl
    | cons hr _ ih => rw [List.map_cons, List.map_cons, lasts hr.lasts, ih]
  | opened user org vacant settled =>
    refine .inr ⟨user, org, ?_⟩
    rw [List.map_append, List.map_singleton, starts settled]
  | @reopened r q x mem drifts h left settled =>
    refine .inl ?_
    rw [Row.into, List.map_map]
    apply List.map_congr_left
    intro a ha
    simp only [Function.comp_apply]
    split
    · rename_i hid
      have hsame : a = r := List.inj_on_of_nodup_map hn ha mem
        (hid.trans (settled.id_eq.trans drifts.id_eq))
      rw [hsame, again h settled]
      exact lasts drifts.lasts
    · rfl

theorem wrote_createdAt {rows rows' : List Row} {launched : List Launch} (hn : (rows.map Row.id).Nodup)
    (h : Wrote p s rows rows' launched) : rows'.map Row.createdAt = rows.map Row.createdAt ∨
      rows'.map Row.createdAt = rows.map Row.createdAt ++ [s.now] := by
  rcases wrote_map hn h Row.Lasts.createdAt_eq (fun hs => hs.createdAt_eq) (fun _ hs => hs.createdAt_eq) with
    h | ⟨_, _, h⟩
  · exact .inl h
  · exact .inr h

theorem wrote_orderly {rows rows' : List Row} {launched : List Launch} (ho : (holding rows).Orderly)
    (hf : s.freshId ∉ rows.map Row.id) (h : Wrote p s rows rows' launched) : (holding rows').Orderly := by
  cases h with
  | quiet h =>
    have hlasts : List.Forall₂ Row.Lasts rows rows' := h.imp fun _ _ hr => hr.lasts
    refine ⟨⟨rfl, rfl, ?_⟩, ?_⟩
    · change (rows'.map Row.id).Nodup
      rw [ids_of_pointwise (hlasts.imp fun _ _ hr => hr.id_eq)]
      exact ho.distinct
    · -- what was terminal stays as it was
      refine List.pairwise_iff_getElem.mpr fun i j hi hj hij hu => ?_
      have hi' : i < rows.length := hlasts.length_eq ▸ hi
      have hj' : j < rows.length := hlasts.length_eq ▸ hj
      have ha := hlasts.get hi' hi
      have hb := hlasts.get hj' hj
      have hdead := List.pairwise_iff_getElem.mp ho.closed i j hi' hj' hij
        (ha.userId_eq.symm.trans (hu.trans hb.userId_eq))
      exact (congrArg Row.isLive (ha.closed hdead)).trans hdead
  | opened other org vacant settled =>
    rename_i x
    have hu : x.userId = other := settled.userId_eq
    have hid : x.id = s.freshId := settled.id_eq
    have hnone : (holding rows).live? x.userId = none := hu ▸ live?_of_vacant (w := holding rows) vacant
    exact ho.add hnone (hid ▸ hf)
  | @reopened r q x mem drifts h left settled =>
    have hlive : r.isLive = true := drifts.isLive (by simp [Row.isLive, h, Status.isTerminal])
    exact ho.put (ho.live?_eq mem hlive) (settled.id_eq.trans drifts.id_eq)
      (settled.userId_eq.trans drifts.userId_eq)

/-- Rows stay listed in their order as long as a table's clock does not go back. -/
theorem Listed.run (hw : w.Listed now) (hf : t.freshId ∉ w.ids)
    (clock : w.store.keeping = .table → now ≤ t.surroundings.now ∧ t.surroundings.now.Stamped) :
    (t.run p w).2.Listed t.surroundings.now := by
  obtain ⟨launched, -, hwrote⟩ := t.reaches (p := p) hw.distinct hf
  have hdates := wrote_createdAt hw.distinct hwrote
  have hpast (hk : w.store.keeping = .table) : ∀ c ∈ w.store.rows.map Row.createdAt,
      c ≤ t.surroundings.now ∧ c.Stamped := by
    intro c hc
    obtain ⟨hle, hs⟩ := hw.past hk c hc
    exact ⟨Instant.le_trans hle (clock hk).1, hs⟩
  refine ⟨wrote_orderly hw.orderly hf hwrote, fun hk => ?_, fun hk => ?_⟩ <;> rw [t.keeping_eq] at hk
  · rcases hdates with h | h <;> rw [h]
    · exact hw.sorted hk
    · refine List.pairwise_append.mpr ⟨hw.sorted hk, List.pairwise_singleton _ _, fun a ha b hb => ?_⟩
      rw [List.mem_singleton.mp hb]
      exact (hpast hk a ha).1
  · rcases hdates with h | h <;> rw [h]
    · exact hpast hk
    · intro c hc
      rcases List.mem_append.mp hc with hc | hc
      · exact hpast hk c hc
      · rw [List.mem_singleton.mp hc]
        exact ⟨.inl rfl, (clock hk).2⟩

/-- A turn launches for a user and the user's last row is the launch's, or launches nothing for the user and
the last row lasts. -/
theorem Listed.run_cases (hw : w.Listed now) (hf : t.freshId ∉ w.ids)
    (clock : w.store.keeping = .table → now ≤ t.surroundings.now ∧ t.surroundings.now.Stamped)
    (user : String) :
    ((t.run p w).2.cycles user = w.cycles user ∧
      Option.Rel Row.Lasts (w.store.latest? user) ((t.run p w).2.store.latest? user)) ∨
    ∃ l x, (t.run p w).2.cycles user = w.cycles user ++ [l] ∧
      (t.run p w).2.store.latest? user = some x ∧ x.Begun t.surroundings user := by
  have hv := hw.run (p := p) hf clock
  obtain ⟨launched, hl, hwrote⟩ := t.reaches (p := p) hw.distinct hf
  have hcycles : (t.run p w).2.cycles user = w.cycles user ++ launched.filter fun l => l.userId == user := by
    rw [cycles, hl, List.filter_append, cycles]
  rw [hw.latest?_eq, hv.latest?_eq, hcycles]
  rcases wrote_latest? hw.orderly hwrote user with ⟨hnone, h⟩ | ⟨l, x, rfl, hu, hlast, hx⟩
  · rw [hnone, List.append_nil]
    exact .inl ⟨rfl, h⟩
  · exact .inr ⟨l, x, by simp [hu], hlast, hx⟩

/-- A row that a turn has written is its user's last one. -/
theorem Listed.latest?_of_written (hw : w.Listed now) (hf : t.freshId ∉ w.ids)
    (clock : w.store.keeping = .table → now ≤ t.surroundings.now ∧ t.surroundings.now.Stamped)
    (hr : r ∈ (t.run p w).2.store.rows) (hnew : r ∉ w.store.rows) :
    (t.run p w).2.store.latest? r.userId = some r := by
  have hv := hw.run (p := p) hf clock
  obtain ⟨launched, -, hwrote⟩ := t.reaches (p := p) hw.distinct hf
  rw [hv.latest?_eq]
  have hn := hv.distinct
  unfold ids at hn
  generalize (t.run p w).2.store.rows = rows' at hr hn hwrote ⊢
  rcases hwrote with h | ⟨other, org, vacant, settled⟩ | ⟨mem, drifts, hs, left, settled⟩
  · have hlasts : List.Forall₂ Row.Lasts w.store.rows rows' := h.imp fun _ _ hr => hr.lasts
    obtain ⟨i, hi, rfl⟩ := List.mem_iff_getElem.mp hr
    have hi' : i < w.store.rows.length := hlasts.length_eq ▸ hi
    have hrow : Row.Lasts w.store.rows[i] rows'[i] := hlasts.get hi' hi
    have hlive : w.store.rows[i].isLive = true := by
      by_contra hdead
      refine hnew ?_
      rw [hrow.closed (Bool.eq_false_iff.mpr hdead)]
      exact List.getElem_mem hi'
    have hlast := (latest?_of_live? (hw.orderly.live?_eq (List.getElem_mem hi') hlive)).1
    have hrel : Option.Rel Row.Lasts ((holding w.store.rows).store.latest? w.store.rows[i].userId)
        ((holding rows').store.latest? w.store.rows[i].userId) :=
      getLast?_rel (List.rel_filter (fun a b hab => by simp [Store.ofUser, hab.userId_eq]) hlasts)
    rw [hlast, ← hrow.userId_eq] at hrel
    generalize hx : (holding rows').store.latest? rows'[i].userId = x? at hrel
    obtain ⟨x, rfl⟩ : ∃ x, x? = some x := by cases hrel; exact ⟨_, rfl⟩
    have hlastx : Row.Lasts w.store.rows[i] x := by cases hrel; assumption
    have hmem : x ∈ rows' := (List.mem_filter.mp (List.mem_of_getLast? hx)).1
    exact congrArg some (List.inj_on_of_nodup_map hn hmem hr (hlastx.id_eq.trans hrow.id_eq.symm))
  · rcases List.mem_append.mp hr with hr | hr
    · exact absurd hr hnew
    · rw [List.mem_singleton.mp hr]
      simp [holding_latest?, Store.ofUser]
  · rename_i a q x
    rcases mem_put (w := holding w.store.rows) hr with rfl | ⟨hr, -⟩
    · have hlive : a.isLive = true := drifts.isLive (by simp [Row.isLive, hs, Status.isTerminal])
      have hu : r.userId = a.userId := settled.userId_eq.trans drifts.userId_eq
      rw [hu]
      exact hw.orderly.latest?_put (latest?_of_live? (hw.orderly.live?_eq mem hlive)).1
        (settled.id_eq.trans drifts.id_eq) hu
    · exact absurd hr hnew

end World

/-! ### Runs -/

/-- Rows are listed in their order; the turns to come bring new ids, and a table's clock goes on. -/
structure Paced (turns : List Turn) (now : Instant) (w : World) : Prop where
  listed : w.Listed now
  unused : ∀ t ∈ turns, t.freshId ∉ w.ids
  distinct : (turns.map Turn.freshId).Nodup
  clock : w.store.keeping = .table → Clocked turns now

namespace Paced

variable {turns early late : List Turn}

theorem unusedId (h : Paced (t :: turns) now w) : t.freshId ∉ w.ids := h.unused t List.mem_cons_self

theorem onward (h : Paced (t :: turns) now w) (hk : w.store.keeping = .table) :
    now ≤ t.surroundings.now ∧ t.surroundings.now.Stamped :=
  ⟨(List.pairwise_cons.mp (h.clock hk).onward).1 _ List.mem_cons_self,
    (h.clock hk).stamped t List.mem_cons_self⟩

theorem step (h : Paced (t :: turns) now w) : Paced turns t.surroundings.now (t.run p w).2 := by
  have hd := List.nodup_cons.mp (List.map_cons ▸ h.distinct)
  refine ⟨h.listed.run h.unusedId h.onward, fun u hu hm => ?_, hd.2, fun hk => ?_⟩
  · rcases Turn.mem_ids h.listed.distinct h.unusedId hm with hm | hm
    · exact h.unused u (List.mem_cons_of_mem _ hu) hm
    · exact hd.1 (List.mem_map.mpr ⟨u, hu, hm⟩)
  · exact (h.clock (t.keeping_eq p w ▸ hk)).step

theorem apart (h : Paced turns now w) : Apart turns w := ⟨h.listed.distinct, h.unused, h.distinct⟩

theorem append (h : Paced (early ++ late) now w) : ∃ now, Paced late now (play p early w).2 :=
  play_leads (H := fun ts a => ∃ now, Paced ts now a) (fun ⟨_, h⟩ => ⟨_, h.step⟩) ⟨now, h⟩

theorem cases (h : Paced (t :: turns) now w) (user : String) :
    ((t.run p w).2.cycles user = w.cycles user ∧
      Option.Rel Row.Lasts (w.store.latest? user) ((t.run p w).2.store.latest? user)) ∨
    ∃ l x, (t.run p w).2.cycles user = w.cycles user ++ [l] ∧
      (t.run p w).2.store.latest? user = some x ∧ x.Begun t.surroundings user :=
  h.listed.run_cases h.unusedId h.onward user

/-- Launches are never taken back. -/
theorem cycles_extend (h : Paced (early ++ late) now w) (user : String) :
    w.cycles user <+: (play p early w).2.cycles user := by
  induction early generalizing w now with
  | nil => exact List.prefix_rfl
  | cons t rest ih =>
    refine List.IsPrefix.trans ?_ (ih h.step)
    rcases h.cases (p := p) user with ⟨heq, -⟩ | ⟨l, x, heq, -⟩
    · exact ⟨[], (List.append_nil _).trans heq.symm⟩
    · exact ⟨[l], heq.symm⟩

/-- As long as nothing is launched for a user, what lasts of the user's last row is kept. -/
theorem keeps {P : Option Row → Prop} (hP : ∀ {a b}, Option.Rel Row.Lasts a b → P a → P b)
    (h : Paced (early ++ late) now w) (hw : P (w.store.latest? user))
    (hsame : ((play p early w).2.cycles user).length = (w.cycles user).length) :
    P ((play p early w).2.store.latest? user) := by
  induction early generalizing w now with
  | nil => exact hw
  | cons t rest ih =>
    have hrest : ((t.run p w).2.cycles user).length ≤ ((play p rest (t.run p w).2).2.cycles user).length :=
      (cycles_extend h.step user).length_le
    change ((play p rest (t.run p w).2).2.cycles user).length = _ at hsame
    rcases h.cases (p := p) user with ⟨heq, hlast⟩ | ⟨l, x, heq, -⟩
    · exact ih h.step (hP hlast hw) (hsame.trans (congrArg List.length heq).symm)
    · rw [hsame, heq, List.length_append, List.length_singleton] at hrest
      omega

theorem vacant {keeping : Keeping} {faults : List (Option Error)}
    (fresh : (turns.map Turn.freshId).Nodup)
    (clock : keeping = .table → (turns.map fun t => t.surroundings.now).Pairwise (· ≤ ·) ∧
      ∀ t ∈ turns, t.surroundings.now.Stamped) :
    ∃ now, Paced turns now (.vacant keeping faults) := by
  have hlisted (now : Instant) : (World.vacant keeping faults).Listed now :=
    ⟨empty_orderly, fun _ => .nil, fun _ _ h => absurd h List.not_mem_nil⟩
  cases keeping with
  | arrival => exact ⟨default, hlisted _, fun _ _ => List.not_mem_nil, fresh, fun h => nomatch h⟩
  | table =>
    obtain ⟨now, hc⟩ := Clocked.start (clock rfl).1 (clock rfl).2
    exact ⟨now, hlisted _, fun _ _ => List.not_mem_nil, fresh, fun _ => hc⟩

end Paced

/-- The user's last row is the one of the last launch. -/
def Turn.Began (u : Turn) (user : String) (last : Option Row) : Prop :=
  ∃ r, last = some r ∧ r.Begun u.surroundings user

theorem Turn.Began.lasts {u : Turn} {a b : Option Row} (hab : Option.Rel Row.Lasts a b)
    (h : u.Began user a) : u.Began user b := by
  obtain ⟨r, rfl, hr⟩ := h
  cases hab with
  | some hl =>
    exact ⟨_, rfl, hl.userId_eq.trans hr.userId_eq, hl.ticket_eq.trans hr.ticket_eq,
      hl.lastBootstrapAt_eq.trans hr.lastBootstrapAt_eq, hl.open_ hr.open_⟩

/-- A launch leaves its user with the row that it began. -/
theorem Paced.began (h : Paced (t :: turns) now w) (hl : t.Launches p w user) :
    t.Began user ((t.run p w).2.store.latest? user) := by
  rcases h.cases (p := p) user with ⟨heq, -⟩ | ⟨l, x, -, hlast, hx⟩
  · exact absurd (congrArg List.length heq) (Nat.ne_of_gt hl)
  · exact ⟨x, hlast, hx⟩

/-- What is due now has been due since the row's bootstrap. -/
theorem Row.Begun.since {u : Turn} {wsReady : Bool} (h : r.Begun u.surroundings user)
    (hdue : p.Due t.surroundings.now wsReady (some r)) :
    p.settings.cooldown ≤ t.since u ∧
      (r.status.isPending = true → p.settings.bootstrapTimeout ≤ t.since u) := by
  have hms : r.msSinceBootstrap t.surroundings.now = t.since u := by
    unfold Row.msSinceBootstrap
    rw [h.lastBootstrapAt_eq]
    rfl
  simp only [Policy.Due, Policy.cooldownLeft, hms] at hdue
  cases hs : r.status <;> rw [hs] at hdue
  case terminated => exact absurd hs h.open_
  case starting => exact ⟨by omega, fun _ => hdue.2.1⟩
  case provisioning => exact ⟨by omega, fun _ => hdue.2.1⟩
  all_goals exact ⟨by omega, fun h => nomatch h⟩

end Fleet.Vm
