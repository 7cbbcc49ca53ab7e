import Fleet.Proofs.Vm.Attempts
import Fleet.Proofs.Vm.Confined

/-!
Live rows on either kind of store, where no access fails: a user never has two of them. So a row that
is read and then written is written, and a row is marked disconnected exactly when it is the user's
live row and ready.
-/

namespace Fleet.Vm

variable {p : Policy} {s : Surroundings} {t : Turn} {w v : World} {r r' : Row} {user : String}

/-! ### Where rows come from -/

namespace Row

theorem Drifts.userId_eq {now : Instant} (h : r.Drifts p now r') : r'.userId = r.userId := by
  induction h with
  | refl => rfl
  | tail _ h ih => exact h.2.1.userId_eq.trans ih

theorem Drifts.isLive {now : Instant} (h : r.Drifts p now r') (hl : r'.isLive = true) :
    r.isLive = true := by
  rcases Relation.ReflTransGen.cases_head h with rfl | ⟨_, hd, _⟩
  · exact hl
  · exact hd.1

theorem Rewritten.comes {now : Instant} (h : r.Rewritten p now r') (hl : r'.isLive = true) :
    r'.userId = r.userId ∧ r.isLive = true := by
  cases h with
  | drifted h => exact ⟨h.userId_eq, h.isLive hl⟩
  | promoted live => exact ⟨rfl, live⟩

end Row

/-- A live row comes of a live row of its user, or it is new and its user had none. -/
theorem Wrote.comes {rows rows' : List Row} {launched : List Launch}
    (h : Wrote p s rows rows' launched) (hr : r' ∈ rows') (hl : r'.isLive = true) :
    (∃ r ∈ rows, r.id = r'.id ∧ r.userId = r'.userId ∧ r.isLive = true) ∨
      (r'.id = s.freshId ∧ Store.hasLive rows r'.userId = false) := by
  cases h with
  | quiet h =>
    obtain ⟨i, hi, rfl⟩ := List.mem_iff_getElem.mp hr
    have hi' : i < rows.length := h.length_eq ▸ hi
    have hrow := h.get hi' hi
    obtain ⟨hu, hlive⟩ := hrow.comes hl
    exact .inl ⟨_, List.getElem_mem hi', hrow.id_eq.symm, hu.symm, hlive⟩
  | opened user org vacant settled =>
    rcases List.mem_append.mp hr with hr | hr
    · exact .inl ⟨r', hr, rfl, rfl, hl⟩
    · rw [List.mem_singleton.mp hr]
      refine .inr ⟨settled.id_eq, ?_⟩
      rw [settled.userId_eq]
      exact vacant
  | @reopened r q x mem drifts h left settled =>
    obtain ⟨a, ha, rfl⟩ := List.mem_map.mp hr
    split
    · have hq : q.isLive = true := by simp [Row.isLive, h, Status.isTerminal]
      exact .inl ⟨r, mem, (settled.id_eq.trans drifts.id_eq).symm,
        (settled.userId_eq.trans drifts.userId_eq).symm, drifts.isLive hq⟩
    · rename_i hne
      rw [if_neg hne] at hl
      exact .inl ⟨a, ha, rfl, rfl, hl⟩

namespace World

/-- No id twice, no failure of the store, and of each user at most one live row. -/
structure Lone (w : World) : Prop where
  distinct : w.ids.Nodup
  faultless : w.faults = []
  alone : ∀ q ∈ w.store.rows, ∀ r ∈ w.store.rows, q.userId = r.userId →
    q.isLive = true → r.isLive = true → q = r

/-- No id twice, and of each user at most one live row; accesses may fail. -/
structure Single (w : World) : Prop where
  distinct : w.ids.Nodup
  alone : ∀ q ∈ w.store.rows, ∀ r ∈ w.store.rows, q.userId = r.userId →
    q.isLive = true → r.isLive = true → q = r

theorem Lone.single (hw : w.Lone) : w.Single := ⟨hw.distinct, hw.alone⟩

theorem Lone.vacant (keeping : Keeping) : (World.vacant keeping []).Lone :=
  ⟨List.nodup_nil, rfl, fun _ hq => absurd hq List.not_mem_nil⟩

theorem not_live_of_hasLive (h : Store.hasLive w.store.rows user = false) (hr : r ∈ w.store.rows)
    (hu : r.userId = user) (hl : r.isLive = true) : False := by
  rw [Store.hasLive, List.any_eq_false] at h
  exact h r hr (by simp [Store.ofUser, hu, hl])

theorem live?_of_vacant (h : Store.hasLive w.store.rows user = false) : w.live? user = none := by
  cases hl : w.live? user with
  | none => rfl
  | some r =>
    obtain ⟨hr, hlive⟩ := mem_of_live? hl
    exact (not_live_of_hasLive h hr (userId_of_live? hl) hlive).elim

/-- No turn makes a second live row of a user, whatever accesses to the store fail. -/
theorem Single.run (hw : w.Single) (hf : t.freshId ∉ w.ids) : (t.run p w).2.Single := by
  have hn := t.distinct (p := p) hw.distinct hf
  refine ⟨hn, fun q' hq' r' hr' hu hlq hlr => eq_of_id hn hq' hr' ?_⟩
  obtain ⟨launched, _, hwrote⟩ := t.reaches (p := p) hw.distinct hf
  rcases hwrote.comes hq' hlq with ⟨q, hq, hid, huq, hl⟩ | ⟨hid, hno⟩ <;>
    rcases hwrote.comes hr' hlr with ⟨r, hr, hid', hur, hl'⟩ | ⟨hid', hno'⟩
  · rw [← hid, ← hid', hw.alone q hq r hr (huq.trans (hu.trans hur.symm)) hl hl']
  · exact (not_live_of_hasLive hno' hq (huq.trans hu) hl).elim
  · exact (not_live_of_hasLive hno hr (hur.trans hu.symm) hl').elim
  · exact hid.trans hid'.symm

theorem Lone.run (hw : w.Lone) (hf : t.freshId ∉ w.ids) : (t.run p w).2.Lone := by
  have hv := hw.single.run (p := p) hf
  exact ⟨hv.distinct, t.faults_eq p hw.faultless, hv.alone⟩

theorem Single.play {turns : List Turn} (hw : w.Single) (h : Apart turns w) : (play p turns w).2.Single :=
  h.keeps (I := Single) (fun _ _ _ _ hf hu => hu.run hf) hw

theorem Lone.read (hw : w.Lone) (user : String) :
    Work.latest? user w = (.ok (w.store.latest? user), w) := by
  rw [Work.latest?, Work.access_apply hw.faultless]

theorem Lone.readLive (hw : w.Lone) (user : String) : Work.live? user w = (.ok (w.live? user), w) := by
  rw [Work.live?, Work.bind_of_ok (hw.read user)]
  rfl

/-- The store takes a live row in the place of the one before, since no other row of its user is live. -/
theorem Single.update_eq (hw : w.Single) (hr : r ∈ w.store.rows) (hl : r.isLive = true)
    (hid : r'.id = r.id) (hu : r'.userId = r.userId) (hc : r'.createdAt = r.createdAt) :
    w.store.update r' = .ok (w.put r').store := by
  have hclash : ¬ (w.store.keeping = .table ∧ r'.isLive = true ∧
      Store.hasLive (w.store.rows.filter fun q => q.id != r'.id) r'.userId = true) := by
    rintro ⟨_, _, hlive⟩
    obtain ⟨q, hq, hlive⟩ := List.any_eq_true.mp hlive
    obtain ⟨hq, hne⟩ := List.mem_filter.mp hq
    rw [Bool.and_eq_true] at hlive
    have huser : q.userId = r'.userId := by simpa [Store.ofUser] using hlive.1
    have hsame := hw.alone q hq r hr (huser.trans hu) hlive.2 hl
    simp [hsame, hid] at hne
  rw [Work.update_eq hw.distinct hr hid hu hc, if_neg hclash]

/-- A live row that stays live is written. -/
theorem Lone.update (hw : w.Lone) (hr : r ∈ w.store.rows) (hl : r.isLive = true)
    (hid : r'.id = r.id) (hu : r'.userId = r.userId) (hc : r'.createdAt = r.createdAt) :
    Work.update r' w = (.ok (), w.put r') := by
  rw [Work.update, Work.access_apply hw.faultless]
  simp only [hw.single.update_eq hr hl hid hu hc]
  rfl

theorem Lone.launching (hw : w.Lone) (l : Launch) : (w.launching l).Lone :=
  ⟨hw.distinct, hw.faultless, hw.alone⟩

/-- No other row of the user was live, and none becomes so. -/
theorem Single.put (hw : w.Single) (hr : r ∈ w.store.rows) (hl : r.isLive = true) (hid : r'.id = r.id)
    (hu : r'.userId = r.userId) : (w.put r').Single := by
  have other {q : Row} (hq : q ∈ w.store.rows) (hne : q.id ≠ r'.id) (hqu : q.userId = r'.userId) :
      ¬ q.isLive = true := fun hlq =>
    hne (hw.alone q hq r hr (hqu.trans hu) hlq hl ▸ hid.symm)
  refine ⟨(put_ids w r').symm ▸ hw.distinct, fun a ha b hb hab hla hlb => ?_⟩
  rcases mem_put ha with rfl | ⟨ha', hna⟩ <;> rcases mem_put hb with rfl | ⟨hb', hnb⟩
  · rfl
  · exact absurd hlb (other hb' hnb hab.symm)
  · exact absurd hla (other ha' hna hab)
  · exact hw.alone a ha' b hb' hab hla hlb

theorem Lone.put (hw : w.Lone) (hr : r ∈ w.store.rows) (hl : r.isLive = true) (hid : r'.id = r.id)
    (hu : r'.userId = r.userId) : (w.put r').Lone :=
  ⟨(put_ids w r').symm ▸ hw.distinct, hw.faultless, (hw.single.put hr hl hid hu).alone⟩

theorem Lone.add (hw : w.Lone) (hf : r.id ∉ w.ids) (hno : Store.hasLive w.store.rows r.userId = false) :
    (w.add r).Lone := by
  refine ⟨?_, hw.faultless, fun a ha b hb hab hla hlb => ?_⟩
  · rw [add_ids]
    exact List.concat_eq_append ▸ hw.distinct.concat hf
  · rw [add_rows, List.mem_append, List.mem_singleton] at ha hb
    rcases ha with ha | rfl <;> rcases hb with hb | rfl
    · exact hw.alone a ha b hb hab hla hlb
    · exact (not_live_of_hasLive hno ha hab hla).elim
    · exact (not_live_of_hasLive hno hb hab.symm hlb).elim
    · rfl

/-- A live row with a new id is refused exactly when its user has one. -/
theorem Lone.insert (hw : w.Lone) (hf : r.id ∉ w.ids) (hl : r.isLive = true) :
    Work.insert r w = if Store.hasLive w.store.rows r.userId then (.error (Store.refused r.userId), w)
      else (.ok (), w.add r) := by
  have hnew : (w.store.rows.any fun q => q.id == r.id) = false := by
    rw [List.any_eq_false]
    intro q hq h
    exact hf (List.mem_map.mpr ⟨q, hq, eq_of_beq h⟩)
  have hs : w.store.insert r = if Store.hasLive w.store.rows r.userId then .error (Store.refused r.userId)
      else .ok (w.add r).store := by
    unfold Store.insert Store.fits
    cases hk : w.store.keeping <;> simp [hnew, hl, World.add, hk]
  rw [Work.insert, Work.access_apply hw.faultless, hs]
  cases Store.hasLive w.store.rows r.userId <;> rfl

/-- A row of the user becomes disconnected. -/
def Loses (w v : World) (user : String) : Prop :=
  ∃ r ∈ w.store.rows, ∃ r' ∈ v.store.rows,
    r.userId = user ∧ r'.id = r.id ∧ r.status ≠ .disconnected ∧ r'.status = .disconnected

instance (w v : World) (user : String) : Decidable (w.Loses v user) :=
  inferInstanceAs (Decidable (∃ r ∈ w.store.rows, ∃ r' ∈ v.store.rows,
    r.userId = user ∧ r'.id = r.id ∧ r.status ≠ .disconnected ∧ r'.status = .disconnected))

theorem not_loses (hn : w.ids.Nodup) (hv : v.store.rows = w.store.rows) : ¬ w.Loses v user := by
  rintro ⟨r, hr, r', hr', _, hid, hne, hs⟩
  rw [hv] at hr'
  exact hne (eq_of_id hn hr' hr hid ▸ hs)

/-- A mark takes the user's live row if that is ready, and nothing else. -/
theorem Lone.loses_iff (hw : w.Lone) (now : Instant) (user : String) :
    w.Loses (Work.markDisconnected now user w).2 user ↔
      ∃ r, w.live? user = some r ∧ r.status = .ready := by
  rw [Work.markDisconnected, Work.bind_of_ok (hw.readLive user)]
  cases hl : w.live? user with
  | none =>
    refine ⟨fun h => absurd h (not_loses hw.distinct rfl), ?_⟩
    rintro ⟨r, hr, _⟩
    cases hr
  | some r =>
    obtain ⟨hr, hlive⟩ := mem_of_live? hl
    dsimp only
    split
    · rename_i hs
      have hup : Work.update (r.disconnect now) w = (.ok (), w.put (r.disconnect now)) :=
        hw.update hr hlive rfl rfl rfl
      rw [Work.bind_of_ok hup]
      refine ⟨fun _ => ⟨r, rfl, hs⟩, fun _ => ?_⟩
      exact ⟨r, hr, _, mem_put_self hr rfl, userId_of_live? hl, rfl, by simp [hs], rfl⟩
    · rename_i hs
      refine ⟨fun h => absurd h (not_loses hw.distinct rfl), ?_⟩
      rintro ⟨_, he, hready⟩
      exact absurd (Option.some.inj he ▸ hready) hs

end World

end Fleet.Vm
