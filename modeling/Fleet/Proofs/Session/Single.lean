import Fleet.Proofs.Session.Seats

/-!
One adapter for each session. A start looks for the session, starts an adapter and gives it its place in
three steps, and another start may come in between; then a session has two adapters, and the first of
them is forgotten while it works.
-/

namespace Fleet.Session

/-- Whether the request is a start of the session that goes on. -/
def Task.starts (id : String) : Task → Bool
  | replacing _ _ p | opening _ p | opened _ p => p.sessionId == id
  | stopping _ _ _ => false

/-- Whether the request will start an adapter for the session. -/
def Task.Opens (id : String) : Task → Prop
  | replacing _ _ p | opening _ p => p.sessionId = id
  | _ => False

namespace Station

/-- A session has at most one adapter that was started and not stopped, one that loses its place is
stopped, and no two adapters have runs that are not over. -/
structure Single (id : String) (o o' : Station) : Prop where
  one : ∀ j ∈ o'.live id, ∀ k ∈ o'.live id, j = k
  stopped : ∀ k ∈ o.seated id, k ∉ o'.seated id → k ∉ o'.live id
  alone : ∀ j ∈ o'.busy id, ∀ k ∈ o'.busy id, j = k

/-- An adapter is started only when the session has none, in the table or on its way there; and one gets
its first run only when no other has a run that is not over. -/
structure Apart (id : String) (o o' : Station) : Prop where
  starts : ∀ k ∈ o'.live id, k ∉ o.started → o.seated id = [] ∧ o.waiting id = []
  accepts : ∀ k ∈ o'.busy id, k ∉ o.busy id → o.busy id = []

/-- One start of the session is under way at a time, and it starts an adapter only when all runs of the
session are over. -/
structure Orderly (id : String) (o o' : Station) : Prop where
  turns : (o'.tasks.filter (Task.starts id)).length ≤ 1
  rested : ∀ k ∈ o'.live id, k ∉ o.started → o.busy id = []

instance (id : String) (o o' : Station) : Decidable (Single id o o') :=
  decidable_of_iff (_ ∧ _ ∧ _) ⟨fun h => ⟨h.1, h.2.1, h.2.2⟩, fun h => ⟨h.one, h.stopped, h.alone⟩⟩

instance (id : String) (o o' : Station) : Decidable (Orderly id o o') :=
  decidable_of_iff (_ ∧ _) ⟨fun h => ⟨h.1, h.2⟩, fun h => ⟨h.turns, h.rested⟩⟩

/-- Something holds of each step of a run. -/
def Always (P : Station → Station → Prop) : List Move → Station → Prop
  | [], _ => True
  | x :: rest, o => P o (o.take x) ∧ Always P rest (o.take x)

instance Always.decidable (P : Station → Station → Prop) [∀ o o', Decidable (P o o')] :
    (moves : List Move) → (o : Station) → Decidable (Always P moves o)
  | [], _ => .isTrue trivial
  | x :: rest, o =>
    have := Always.decidable P rest (o.take x)
    inferInstanceAs (Decidable (P o (o.take x) ∧ Always P rest (o.take x)))

def play (moves : List Move) (o : Station) : Station := moves.foldl take o

variable {o o' : Station} {id : String} {j k : Nat}

/-! ### What a step does to the adapters of one session -/

/-- A step in which an adapter of the session was started. -/
structure Opened (id : String) (k : Nat) (o o' : Station) : Prop where
  new : k ∉ o.started
  only : ∀ j ∈ o'.started, j ∉ o.started → j = k
  asked : ∃ p, Task.opening k p ∈ o.tasks ∧ p.sessionId = id
  waiting : k ∈ o'.waiting id
  seated : o'.seated id = o.seated id
  waited : o.waiting id ⊆ o'.waiting id

/-- An adapter that is live after a step was so before, or the step has started it. -/
theorem Went.live (hw : Went o o') (hs : Sound o) (hk : k ∈ o'.live id) :
    k ∈ o.live id ∨ Opened id k o o' := by
  obtain ⟨hin, b, hb, hsession, hhalted⟩ := mem_live.mp hk
  have kept {d : Disk} {key : Nat} {a c : Adapter} (there : o.manager.adapters[key]? = some a)
      (keeps : a.Keeps c) (hin : k ∈ o.started)
      (hb : (o.withAdapter d key c).manager.adapters[k]? = some b) : k ∈ o.live id := by
    rcases getElem?_set_cases there hb with ⟨rfl, rfl⟩ | ⟨-, hb⟩
    · exact mem_live.mpr ⟨hin, a, there, keeps.session.symm.trans hsession,
        keeps.halted.symm.trans hhalted⟩
    · exact mem_live.mpr ⟨hin, b, hb, hsession, hhalted⟩
  cases hw with
  | still fewer => exact .inl hk
  | made fewer free =>
    left
    refine mem_live.mpr ⟨hin, b, ?_, hsession, hhalted⟩
    exact (List.getElem?_append_left (hs.started k hin)).symm.trans hb
  | @taken id' info key t found takes =>
    left
    obtain ⟨-, a, there, -⟩ := mem_live.mp (hs.seated id' key (mem_seated.mpr ⟨info, found⟩))
    rw [adapters_withoutSeat _ _ there] at hb
    rcases getElem?_set_cases there hb with ⟨rfl, rfl⟩ | ⟨-, hb⟩
    · rw [a.stop_halts.2.1] at hhalted
      cases hhalted
    · exact mem_live.mpr ⟨hin, b, hb, hsession, hhalted⟩
  | handed found there hands =>
    left
    exact kept there (Adapter.handed_keeps hands) hin hb
  | @opened key p a c d waits there starts =>
    rcases getElem?_set_cases there hb with ⟨rfl, rfl⟩ | ⟨hne, hb⟩
    · right
      obtain ⟨hnew, a', ha', hid, hopen⟩ := hs.opening k p waits
      obtain rfl := Option.some.inj (there.symm.trans ha')
      have hp : p.sessionId = id :=
        hid.symm.trans ((Adapter.start_opens hopen starts).1.symm.trans hsession)
      refine ⟨hnew, ?_, ⟨p, waits, hp⟩, ?_, rfl, ?_⟩
      · intro j hj hnot
        exact (List.mem_cons.mp hj).resolve_right hnot
      · exact mem_waiting.mpr ⟨p, List.mem_append_right _ (List.mem_singleton_self _), hp⟩
      · intro j hj
        obtain ⟨q, ht, hq⟩ := mem_waiting.mp hj
        have hne : Task.opened j q ≠ Task.opening k p := nofun
        have hkept := (List.mem_erase_of_ne hne).mpr ht
        exact mem_waiting.mpr ⟨q, List.mem_append_left _ hkept, hq⟩
    · left
      exact mem_live.mpr ⟨(List.mem_cons.mp hin).resolve_left hne, b, hb, hsession, hhalted⟩
  | @placed key p waits =>
    left
    obtain ⟨a, ha, hpast⟩ := past_withSeat o key p hb
    exact mem_live.mpr ⟨hin, a, ha, hpast.session.symm.trans hsession, hpast.halted hhalted⟩
  | acted there acts =>
    left
    exact kept there (Adapter.act_keeps acts).1 hin hb

theorem seated_subsingleton (hj : j ∈ o.seated id) (hk : k ∈ o.seated id) : j = k := by
  obtain ⟨info, hfound⟩ := mem_seated.mp hj
  obtain ⟨info', hfound'⟩ := mem_seated.mp hk
  exact congrArg Prod.snd (Option.some.inj (hfound.symm.trans hfound'))

/-- An adapter gets its first run in its place, and takes none from others. -/
theorem Went.busy (hw : Went o o') (hk : k ∈ o'.busy id) (hnot : k ∉ o.busy id) (hs : Sound o) :
    k ∈ o.seated id ∧ o.busy id ⊆ o'.busy id := by
  obtain ⟨b, hb, hsession, hruns⟩ := mem_busy.mp hk
  -- one that had runs before was busy before
  have same {a : Adapter} (ha : o.manager.adapters[k]? = some a) (hid : a.session = id)
      (hsub : b.runs ⊆ a.runs) : k ∈ o.seated id ∧ o.busy id ⊆ o'.busy id := by
    refine absurd (mem_busy.mpr ⟨a, ha, hid, fun hnil => hruns ?_⟩) hnot
    exact List.eq_nil_of_subset_nil (hnil ▸ hsub)
  cases hw with
  | still fewer => exact absurd hk hnot
  | @made p rest fewer free =>
    by_cases hlt : k < o.manager.adapters.length
    · exact same ((List.getElem?_append_left hlt).symm.trans hb) hsession (List.Subset.refl _)
    · have hmade : b = .make p := by
        have hb : (o.manager.adapters ++ [Adapter.make p])[k]? = some b := hb
        rw [List.getElem?_append_right (Nat.le_of_not_lt hlt)] at hb
        exact List.mem_singleton.mp (List.mem_of_getElem? hb)
      exact absurd (hmade ▸ (Adapter.unopened_make p).1) hruns
  | @taken id' info key t found takes =>
    obtain ⟨-, a, there, -⟩ := mem_live.mp (hs.seated id' key (mem_seated.mpr ⟨info, found⟩))
    rw [adapters_withoutSeat _ _ there] at hb
    rcases getElem?_set_cases there hb with ⟨rfl, rfl⟩ | ⟨-, hb⟩
    · obtain ⟨hid, -, hsame⟩ := a.stop_halts
      exact same there (hid.symm.trans hsession) (hsame ▸ List.Subset.refl _)
    · exact same hb hsession (List.Subset.refl _)
  | @handed id' info key a c found there hands =>
    rcases getElem?_set_cases there hb with ⟨rfl, rfl⟩ | ⟨-, hb⟩
    · have hkeeps : a.Keeps b := Adapter.handed_keeps hands
      have hseated : k ∈ o.seated id' := mem_seated.mpr ⟨info, found⟩
      obtain ⟨-, a', ha', hid, -⟩ := mem_live.mp (hs.seated id' k hseated)
      obtain rfl := Option.some.inj (there.symm.trans ha')
      obtain rfl : id' = id := hid.symm.trans (hkeeps.session.symm.trans hsession)
      refine ⟨hseated, ?_⟩
      intro j hj
      obtain ⟨c, hc, hbusy⟩ := mem_busy.mp hj
      have hne : j ≠ k := by
        rintro rfl
        exact hnot hj
      exact mem_busy.mpr ⟨c, (List.getElem?_set_ne (Ne.symm hne)).trans hc, hbusy⟩
    · exact same hb hsession (List.Subset.refl _)
  | @opened key p a c d waits there starts =>
    rcases getElem?_set_cases there hb with ⟨rfl, rfl⟩ | ⟨-, hb⟩
    · obtain ⟨hnew, a', ha', hid, hopen⟩ := hs.opening k p waits
      obtain rfl := Option.some.inj (there.symm.trans ha')
      exact absurd (Adapter.start_opens hopen starts).2.2 hruns
    · exact same hb hsession (List.Subset.refl _)
  | @placed key p waits =>
    obtain ⟨a, ha, hpast⟩ := past_withSeat o key p hb
    exact same ha (hpast.session.symm.trans hsession) (hpast.runs ▸ List.Subset.refl _)
  | @acted key a c d x there acts =>
    rcases getElem?_set_cases there hb with ⟨rfl, rfl⟩ | ⟨-, hb⟩
    · obtain ⟨hkeeps, hsub⟩ := Adapter.act_keeps acts
      exact same there (hkeeps.session.symm.trans hsession) hsub
    · exact same hb hsession (List.Subset.refl _)

/-! ### While each adapter of the session is in its place or on its way there -/

/-- A session has one live adapter at most, and that has its place or waits for it. -/
structure Settled (id : String) (o : Station) : Prop where
  one : ∀ j ∈ o.live id, ∀ k ∈ o.live id, j = k
  placed : ∀ k ∈ o.live id, k ∈ o.seated id ∨ k ∈ o.waiting id

/-- A place that is given was free. -/
theorem Settled.free {key : Nat} {p : StartSession} (hset : Settled id o) (hs : Sound o)
    (waits : Task.opened key p ∈ o.tasks) (hid : p.sessionId = id) : o.seated id = [] := by
  apply List.eq_nil_iff_forall_not_mem.mpr
  intro k hk
  have hkey := hs.waiting id key (mem_waiting.mpr ⟨p, waits, hid⟩)
  exact hs.seated_ne hk waits rfl (hset.one k (hs.seated id k hk) key hkey)

theorem seated_withoutSeat {key : Nat} {t : Task} {id' : String} :
    (o.withoutSeat id' key t).seated id = if id = id' then [] else o.seated id := by
  unfold Station.seated
  rw [find?_withoutSeat]
  split <;> rfl

theorem seated_withSeat {key : Nat} {p : StartSession} :
    (o.withSeat key p).seated id = if id = p.sessionId then [key] else o.seated id := by
  unfold Station.seated
  rw [find?_withSeat]
  split <;> rfl

/-- An adapter waits for its place until it has it. -/
theorem Went.keeps_waiting (hw : Went o o') (hk : k ∈ o.waiting id) :
    k ∈ o'.seated id ∨ k ∈ o'.waiting id := by
  obtain ⟨q, ht, hid⟩ := mem_waiting.mp hk
  cases hw with
  | still fewer => exact .inr (mem_waiting.mpr ⟨q, fewer.opened k q ht, hid⟩)
  | made fewer free =>
    exact .inr (mem_waiting.mpr ⟨q, List.mem_append_left _ (fewer.opened k q ht), hid⟩)
  | taken found takes => exact .inr (mem_waiting.mpr ⟨q, List.mem_append_left _ ht, hid⟩)
  | handed found there hands => exact .inr hk
  | @opened key p a b d waits there starts =>
    have hne : Task.opened k q ≠ Task.opening key p := nofun
    have hkept := (List.mem_erase_of_ne hne).mpr ht
    exact .inr (mem_waiting.mpr ⟨q, List.mem_append_left _ hkept, hid⟩)
  | @placed key p waits =>
    by_cases heq : Task.opened k q = Task.opened key p
    · cases heq
      left
      rw [seated_withSeat, if_pos hid.symm]
      exact List.mem_singleton_self _
    · exact .inr (mem_waiting.mpr ⟨q, (List.mem_erase_of_ne heq).mpr ht, hid⟩)
  | acted there acts => exact .inr hk

/-- Where a session is settled, an adapter loses its place by being stopped. -/
theorem Settled.leaves (hset : Settled id o) (hs : Sound o) (hw : Went o o')
    (hk : k ∈ o.seated id) (hgone : k ∉ o'.seated id) : k ∉ o'.live id := by
  intro hlive
  cases hw with
  | @taken id' info key t found takes =>
    rw [seated_withoutSeat] at hgone
    split at hgone
    · rename_i hid
      subst hid
      obtain rfl := seated_subsingleton hk (mem_seated.mpr ⟨info, found⟩)
      obtain ⟨-, a, there, -⟩ := mem_live.mp (hs.seated id k hk)
      obtain ⟨-, b, hb, -, hhalted⟩ := mem_live.mp hlive
      rw [adapters_withoutSeat _ _ there] at hb
      rcases getElem?_set_cases there hb with ⟨-, rfl⟩ | ⟨hne, -⟩
      · rw [a.stop_halts.2.1] at hhalted
        cases hhalted
      · exact absurd rfl hne
    · exact hgone hk
  | placed waits =>
    rw [seated_withSeat] at hgone
    split at hgone
    · rename_i hid
      rw [hset.free hs waits hid.symm] at hk
      cases hk
    · exact hgone hk
  | _ => exact hgone hk

theorem Settled.step (hset : Settled id o) (hs : Sound o) (hw : Went o o') (ha : Apart id o o') :
    Settled id o' := by
  have hone : ∀ j ∈ o'.live id, ∀ k ∈ o'.live id, j = k := by
    -- before an adapter is started there is no other
    have only {j k : Nat} (hj : Opened id j o o') (hjlive : j ∈ o'.live id) (hk : k ∈ o'.live id) :
        k = j := by
      rcases hw.live hs hk with hold | hopened
      · obtain ⟨hseated, hwaiting⟩ := ha.starts j hjlive hj.new
        rcases hset.placed k hold with h | h
        · rw [hseated] at h
          cases h
        · rw [hwaiting] at h
          cases h
      · exact hj.only k (mem_live.mp hk).1 hopened.new
    intro j hj k hk
    rcases hw.live hs hj with hjold | hopened
    · rcases hw.live hs hk with hkold | hopened
      · exact hset.one j hjold k hkold
      · exact only hopened hk hj
    · exact (only hopened hj hk).symm
  refine ⟨hone, ?_⟩
  intro k hk
  rcases hw.live hs hk with hold | hopened
  · rcases hset.placed k hold with hseated | hwaiting
    · by_cases hkept : k ∈ o'.seated id
      · exact .inl hkept
      · exact absurd hk (hset.leaves hs hw hseated hkept)
    · exact hw.keeps_waiting hwaiting
  · exact .inr hopened.waiting

/-! ### Runs -/

theorem Single.apart (h : Single id o o') (hs : Sound o) (hw : Went o o') : Apart id o o' := by
  have hs' := hs.step hw
  refine ⟨fun k hk hnew => ?_, fun k hk hnot => ?_⟩
  · rcases hw.live hs hk with hold | hopened
    · exact absurd (mem_live.mp hold).1 hnew
    · refine ⟨List.eq_nil_iff_forall_not_mem.mpr fun j hj => ?_,
        List.eq_nil_iff_forall_not_mem.mpr fun j hj => ?_⟩
      · have hlive := hs'.seated id j (hopened.seated ▸ hj)
        rw [h.one j hlive k hk] at hj
        exact hnew (mem_live.mp (hs.seated id k hj)).1
      · have hlive := hs'.waiting id j (hopened.waited hj)
        rw [h.one j hlive k hk] at hj
        exact hnew (mem_live.mp (hs.waiting id k hj)).1
  · refine List.eq_nil_iff_forall_not_mem.mpr fun j hj => ?_
    have hj' := (hw.busy hk hnot hs).2 hj
    exact hnot (h.alone j hj' k hk ▸ hj)

/-- No two adapters of the session have runs that are not over. -/
def Alone (id : String) (o : Station) : Prop := ∀ j ∈ o.busy id, ∀ k ∈ o.busy id, j = k

theorem Apart.single (h : Apart id o o') (hset : Settled id o) (halone : Alone id o) (hs : Sound o)
    (hw : Went o o') : Single id o o' := by
  refine ⟨(hset.step hs hw h).one, fun k hk hgone => hset.leaves hs hw hk hgone, ?_⟩
  have first {j k : Nat} (hj : j ∈ o'.busy id) (hnot : j ∉ o.busy id) (hk : k ∈ o'.busy id) :
      j = k := by
    have hnone := h.accepts j hj hnot
    have hknot : k ∉ o.busy id := by
      rw [hnone]
      exact List.not_mem_nil
    exact seated_subsingleton (hw.busy hj hnot hs).1 (hw.busy hk hknot hs).1
  intro j hj k hk
  by_cases hjold : j ∈ o.busy id
  · by_cases hkold : k ∈ o.busy id
    · exact halone j hjold k hkold
    · exact (first hk hkold hj).symm
  · exact first hj hjold hk

theorem always_apart (moves : List Move) (hs : Sound o) (h : Always (Single id) moves o) :
    Always (Apart id) moves o := by
  induction moves generalizing o with
  | nil => trivial
  | cons x rest ih =>
    have hw := went_take o x
    exact ⟨h.1.apart hs hw, ih (hs.step hw) h.2⟩

theorem always_single (moves : List Move) (hs : Sound o) (hset : Settled id o) (halone : Alone id o)
    (h : Always (Apart id) moves o) : Always (Single id) moves o := by
  induction moves generalizing o with
  | nil => trivial
  | cons x rest ih =>
    have hw := went_take o x
    have hsingle := h.1.single hset halone hs hw
    exact ⟨hsingle, ih (hs.step hw) (hset.step hs hw h.1) hsingle.alone h.2⟩

/-! ### Starts that do not overlap -/

/-- What holds of a session while its starts come one after another, each when all runs are over. -/
structure Rested (id : String) (o : Station) : Prop where
  settled : Settled id o
  turns : (o.tasks.filter (Task.starts id)).length ≤ 1
  free : ∀ t ∈ o.tasks, t.Opens id → o.seated id = []
  near : ∀ j ∈ o.busy id, ∀ k ∈ o.live id, j = k

theorem starts_of_opens {t : Task} (h : t.Opens id) : t.starts id = true := by
  cases t with
  | replacing old process p => exact beq_iff_eq.mpr h
  | opening key p => exact beq_iff_eq.mpr h
  | opened key p => cases h
  | stopping key process info => cases h

/-- A start that goes to open an adapter is the only one under way. -/
theorem Rested.waiting_eq (hr : Rested id o) {t : Task} (ht : t ∈ o.tasks) (hopens : t.Opens id) :
    o.waiting id = [] := by
  refine List.eq_nil_iff_forall_not_mem.mpr fun k hk => ?_
  obtain ⟨q, hq, hid⟩ := mem_waiting.mp hk
  have hstart : (Task.opened k q).starts id = true := beq_iff_eq.mpr hid
  have hmem := List.mem_filter.mpr ⟨ht, starts_of_opens hopens⟩
  have hmem' := List.mem_filter.mpr ⟨hq, hstart⟩
  obtain rfl : t = .opened k q := by
    have hle := hr.turns
    generalize o.tasks.filter (Task.starts id) = found at hle hmem hmem'
    match found, hle with
    | [u], _ => rw [List.mem_singleton.mp hmem, List.mem_singleton.mp hmem']
  cases hopens

theorem Rested.apart (hr : Rested id o) (hs : Sound o) (hw : Went o o') : Apart id o o' := by
  refine ⟨fun k hk hnew => ?_, fun k hk hnot => ?_⟩
  · rcases hw.live hs hk with hold | hopened
    · exact absurd (mem_live.mp hold).1 hnew
    · obtain ⟨p, ht, hid⟩ := hopened.asked
      exact ⟨hr.free _ ht hid, hr.waiting_eq ht hid⟩
  · refine List.eq_nil_iff_forall_not_mem.mpr fun j hj => ?_
    have hlive := hs.seated id k (hw.busy hk hnot hs).1
    exact hnot (hr.near j hj k hlive ▸ hj)

theorem Rested.free_step (hr : Rested id o) (hw : Went o o') {t : Task}
    (ht : t ∈ o'.tasks) (hopens : t.Opens id) : o'.seated id = [] := by
  cases hw with
  | still fewer => exact hr.free t (fewer.sublist.subset ht) hopens
  | @made p rest fewer free =>
    rcases List.mem_append.mp ht with ht | ht
    · exact hr.free t (fewer.sublist.subset ht) hopens
    · obtain rfl := List.mem_singleton.mp ht
      rcases free with hnone | ⟨key, process, hreplacing⟩
      · have hid : p.sessionId = id := hopens
        change ((o.manager.find? id).map Prod.snd).toList = []
        rw [← hid, hnone]
        rfl
      · exact hr.free _ hreplacing hopens
  | @taken id' info key u found takes =>
    rw [seated_withoutSeat]
    split
    · rfl
    · rename_i hne
      rcases List.mem_append.mp ht with ht | ht
      · exact hr.free t ht hopens
      · obtain rfl := List.mem_singleton.mp ht
        cases t with
        | replacing old process p => exact absurd (hopens.symm.trans takes) hne
        | opening key p => cases takes
        | opened key p => cases takes
        | stopping key process info => cases hopens
  | handed found there hands => exact hr.free t ht hopens
  | opened waits there starts =>
    rcases List.mem_append.mp ht with ht | ht
    · exact hr.free t (List.mem_of_mem_erase ht) hopens
    · obtain rfl := List.mem_singleton.mp ht
      cases hopens
  | @placed key p waits =>
    have ht := List.mem_of_mem_erase ht
    rw [seated_withSeat]
    split
    · rename_i hid
      have hnone := hr.waiting_eq ht hopens
      have hmem : key ∈ o.waiting id := mem_waiting.mpr ⟨p, waits, hid.symm⟩
      rw [hnone] at hmem
      cases hmem
    · exact hr.free t ht hopens
  | acted there acts => exact hr.free t ht hopens

theorem Rested.step (hr : Rested id o) (hs : Sound o) (hw : Went o o') (ho : Orderly id o o') :
    Rested id o' := by
  have ha := hr.apart hs hw
  have hset := hr.settled.step hs hw ha
  refine ⟨hset, ho.turns, fun t ht hopens => hr.free_step hw ht hopens, ?_⟩
  intro j hj k hk
  by_cases hold : j ∈ o.busy id
  · rcases hw.live hs hk with hlive | hopened
    · exact hr.near j hold k hlive
    · rw [ho.rested k hk hopened.new] at hold
      cases hold
  · have hseated := (hw.busy hj hold hs).1
    rcases hw.live hs hk with hlive | hopened
    · exact hr.settled.one j (hs.seated id j hseated) k hlive
    · rw [(ha.starts k hk hopened.new).1] at hseated
      cases hseated

theorem always_orderly (moves : List Move) (hs : Sound o) (hr : Rested id o)
    (h : Always (Orderly id) moves o) : Always (Apart id) moves o := by
  induction moves generalizing o with
  | nil => trivial
  | cons x rest ih =>
    have hw := went_take o x
    exact ⟨hr.apart hs hw, ih (hs.step hw) (hr.step hs hw h.1) h.2⟩

/-- A machine that has just come up. -/
def opening (workspace : Path) (d : Disk) : Station := { manager := { workspace }, disk := d }

def startOf (user : String) : StartSession := { sessionId := "s", userId := user }

def asks (user : String) : Move := .request Method.startSession (startOf user).toJson

def tells (text : String) : Move := .request Method.userMessage (UserMessage.toJson ⟨"s", text⟩)

def ends : Move := .request Method.stopSession (SessionRef.toJson ⟨"s"⟩)

/-- A start goes on until its adapter has its place. -/
def opens (key : Nat) (user : String) : List Move :=
  [.resume (.opening key (startOf user)), .resume (.opened key (startOf user))]

/-- A run gets the state and ends. -/
def works (key : Nat) (text : String) : List Move :=
  [.enter ⟨0, 0, text⟩, .walk "call", .answer (.ok .null), .walk "", .walk "", .save ⟨0, 0⟩, .tell].map
    fun x => .act key (.run x)

/-- A session is started, works, is stopped and is started again. -/
def inTurn : List Move :=
  [asks "alice"] ++ opens 0 "alice" ++ [tells "hi"] ++ works 0 "hi" ++
    [ends, .resume (.stopping 0 none (.ofStart (startOf "alice"))), asks "bob"] ++ opens 1 "bob" ++
    [tells "hello", .act 1 (.run (.enter ⟨0, 0, "hello"⟩))]

/-- Two starts of one session come before either has an adapter. -/
def atOnce : List Move :=
  [asks "alice", asks "bob"] ++ opens 0 "alice" ++
    [tells "hi", .act 0 (.run (.enter ⟨0, 0, "hi"⟩))] ++ opens 1 "bob" ++
    [tells "hello", .act 1 (.run (.enter ⟨0, 0, "hello"⟩))]

end Station

end Fleet.Session
