import Fleet.Proofs.Session.Station
import Fleet.Proofs.Tables
import Mathlib.Data.List.Nodup

/-!
Where the started adapters of a machine are. The table and the requests under way have each adapter at
one place at most, those in the table are started and not stopped, and one that has not been started has
no runs.
-/

namespace Fleet.Session

/-- The adapter that a request has made and will give a place. -/
def Task.key? : Task → Option Nat
  | opening key _ | opened key _ => some key
  | _ => none

namespace Station

/-- The adapters of a session that were started and are not stopped. -/
def live (o : Station) (id : String) : List Nat :=
  o.started.filter fun k => (o.manager.adapters[k]?).any fun a => a.session == id && !a.halted

/-- The adapter that has a session's place in the table. -/
def seated (o : Station) (id : String) : List Nat := ((o.manager.find? id).map Prod.snd).toList

/-- The adapters of a session that are started and wait for their place. -/
def waiting (o : Station) (id : String) : List Nat :=
  o.tasks.filterMap fun
    | .opened key p => if p.sessionId = id then some key else none
    | _ => none

/-- The adapters of a session with runs that are not over. -/
def busy (o : Station) (id : String) : List Nat :=
  (List.range o.manager.adapters.length).filter fun k =>
    (o.manager.adapters[k]?).any fun a => a.session == id && !a.runs.isEmpty

variable {o : Station} {id : String} {j k key : Nat} {p : StartSession} {a b : Adapter}

theorem mem_live : k ∈ o.live id ↔
    k ∈ o.started ∧ ∃ a, o.manager.adapters[k]? = some a ∧ a.session = id ∧ a.halted = false := by
  simp [live, Option.any_eq_true]

theorem mem_seated : k ∈ o.seated id ↔ ∃ info, o.manager.find? id = some (info, k) := by
  simp [seated]

theorem mem_waiting : k ∈ o.waiting id ↔ ∃ p, Task.opened k p ∈ o.tasks ∧ p.sessionId = id := by
  unfold waiting
  rw [List.mem_filterMap]
  constructor
  · rintro ⟨t, ht, hkey⟩
    cases t with
    | opened key p =>
      dsimp only at hkey
      split at hkey
      · rename_i hid
        cases hkey
        exact ⟨p, ht, hid⟩
      · cases hkey
    | _ => cases hkey
  · rintro ⟨p, ht, rfl⟩
    exact ⟨_, ht, if_pos rfl⟩

theorem mem_busy : k ∈ o.busy id ↔
    ∃ a, o.manager.adapters[k]? = some a ∧ a.session = id ∧ a.runs ≠ [] := by
  unfold busy
  rw [List.mem_filter, List.mem_range, Option.any_eq_true]
  constructor
  · rintro ⟨-, a, hthere, ha⟩
    refine ⟨a, hthere, ?_⟩
    simpa using ha
  · rintro ⟨a, hthere, ha⟩
    refine ⟨(List.getElem?_eq_some_iff.mp hthere).1, a, hthere, ?_⟩
    simpa using ha

/-- The adapters in the table and in the requests under way. -/
def keys (o : Station) : List Nat :=
  o.manager.entries.map (fun e => e.2.2) ++ o.tasks.filterMap Task.key?

/-- What holds of the adapters of a machine at all times. -/
structure Sound (o : Station) : Prop where
  seated : ∀ id, ∀ k ∈ o.seated id, k ∈ o.live id
  waiting : ∀ id, ∀ k ∈ o.waiting id, k ∈ o.live id
  opening : ∀ k p, Task.opening k p ∈ o.tasks →
    k ∉ o.started ∧ ∃ a, o.manager.adapters[k]? = some a ∧ a.session = p.sessionId ∧ a.Unopened
  keys : o.keys.Nodup
  there : ∀ k ∈ o.keys, k < o.manager.adapters.length
  started : ∀ k ∈ o.started, k < o.manager.adapters.length
  idle : ∀ k a, o.manager.adapters[k]? = some a → k ∉ o.started → a.runs = []

theorem mem_entries_of_seated (h : k ∈ o.seated id) :
    k ∈ o.manager.entries.map fun e => e.2.2 := by
  obtain ⟨info, hfound⟩ := mem_seated.mp h
  obtain ⟨before, after, hentries, _⟩ := List.lookup_eq_some_iff.mp hfound
  rw [hentries]
  simp

/-- An adapter in the table is not one that waits for its place. -/
theorem Sound.seated_ne (hs : Sound o) (hk : k ∈ o.seated id) {t : Task} (ht : t ∈ o.tasks)
    (hkey : t.key? = some j) : k ≠ j := by
  have hdisjoint := (List.nodup_append.mp hs.keys).2.2
  exact hdisjoint k (mem_entries_of_seated hk) j (List.mem_filterMap.mpr ⟨t, ht, hkey⟩)

/-- Two sessions have two adapters in the table. -/
theorem Sound.seated_apart (hs : Sound o) {id' : String} (hj : j ∈ o.seated id)
    (hk : k ∈ o.seated id') (hne : id ≠ id') : j ≠ k := by
  intro heq
  obtain ⟨a, ha, hid, _⟩ := (mem_live.mp (hs.seated id j hj)).2
  obtain ⟨a', ha', hid', _⟩ := (mem_live.mp (hs.seated id' k hk)).2
  subst heq
  obtain rfl := Option.some.inj (ha.symm.trans ha')
  exact hne (hid.symm.trans hid')

theorem sound_start (workspace : Path) (d : Disk) :
    Sound { manager := { workspace := workspace }, disk := d } := by
  refine ⟨?_, ?_, nofun, List.nodup_nil, nofun, nofun, ?_⟩
  · intro id k hk
    cases hk
  · intro id k hk
    cases hk
  · intro k a hthere
    simp at hthere

/-! ### Adapters and places after a move -/

variable {o' : Station} {d : Disk} {t : Task} {rest : List Task}

theorem entries_withoutSeat (o : Station) (id : String) (key : Nat) (t : Task) :
    (o.withoutSeat id key t).manager.entries = o.manager.entries.filter fun e => e.1 ≠ id := by
  unfold withoutSeat Manager.stopAdapter
  dsimp only
  split <;> rfl

theorem find?_withoutSeat (o : Station) (id : String) (key : Nat) (t : Task) (id' : String) :
    (o.withoutSeat id key t).manager.find? id' =
      if id' = id then none else o.manager.find? id' := by
  unfold Manager.find?
  rw [entries_withoutSeat, lookup_filter_ne]

theorem adapters_withoutSeat (id : String) (t : Task) (there : o.manager.adapters[key]? = some a) :
    (o.withoutSeat id key t).manager.adapters = o.manager.adapters.set key a.stop.1 := by
  unfold withoutSeat Manager.stopAdapter
  dsimp only
  rw [show (o.manager.withoutEntry id).adapters[key]? = some a from there]
  rfl

theorem entries_withSeat (o : Station) (key : Nat) (p : StartSession) :
    (o.withSeat key p).manager.entries =
      (o.manager.entries.filter fun e => e.1 ≠ p.sessionId) ++ [(p.sessionId, .ofStart p, key)] := by
  unfold withSeat Manager.insert
  dsimp only
  split <;> rfl

theorem find?_withSeat (o : Station) (key : Nat) (p : StartSession) (id : String) :
    (o.withSeat key p).manager.find? id =
      if id = p.sessionId then some (.ofStart p, key) else o.manager.find? id := by
  unfold Manager.find?
  rw [entries_withSeat, List.lookup_append, lookup_filter_ne]
  by_cases hid : id = p.sessionId
  · subst hid
    simp
  · rw [if_neg hid, if_neg hid]
    simp [List.lookup_cons, beq_false_of_ne hid]

/-- Only the adapter that had the place before is touched, and that is forgotten. -/
theorem adapters_withSeat (o : Station) (key : Nat) (p : StartSession) :
    (o.withSeat key p).manager.adapters = o.manager.adapters ∨
      ∃ old ∈ o.seated p.sessionId, ∃ a, o.manager.adapters[old]? = some a ∧
        (o.withSeat key p).manager.adapters = o.manager.adapters.set old a.discard := by
  unfold withSeat Manager.insert
  dsimp only
  split
  · rename_i old a hold
    obtain ⟨⟨info, old'⟩, hfound, hadapter⟩ := Option.bind_eq_some_iff.mp hold
    obtain ⟨a', hthere, heq⟩ := Option.map_eq_some_iff.mp hadapter
    cases heq
    exact .inr ⟨_, mem_seated.mpr ⟨info, hfound⟩, _, hthere, rfl⟩
  · exact .inl rfl

/-- An adapter stays as live as it was where it keeps its session and is not stopped. -/
theorem live_of_kept (hstarted : o.started ⊆ o'.started)
    (hkept : ∀ a, o.manager.adapters[k]? = some a →
      ∃ b, o'.manager.adapters[k]? = some b ∧ a.Keeps b) (hk : k ∈ o.live id) : k ∈ o'.live id := by
  obtain ⟨hin, a, hthere, hsession, hhalted⟩ := mem_live.mp hk
  obtain ⟨b, hb, hkeeps⟩ := hkept a hthere
  exact mem_live.mpr ⟨hstarted hin, b, hb, hkeeps.session.trans hsession,
    hkeeps.halted.trans hhalted⟩

/-! ### Every move keeps them sound -/

theorem Sound.withTasks (hs : Sound o) (fewer : o.Leaves rest) : Sound (o.withTasks d rest) := by
  have hkeys : (o.withTasks d rest).keys.Sublist o.keys :=
    List.Sublist.append_left (fewer.sublist.filterMap _) _
  refine ⟨hs.seated, ?_, ?_, hs.keys.sublist hkeys, ?_, hs.started, hs.idle⟩
  · intro id k hk
    obtain ⟨p, ht, hid⟩ := mem_waiting.mp hk
    exact hs.waiting id k (mem_waiting.mpr ⟨p, fewer.sublist.subset ht, hid⟩)
  · intro k p ht
    exact hs.opening k p (fewer.sublist.subset ht)
  · intro k hk
    exact hs.there k (hkeys.subset hk)

theorem Sound.withAdapter (hs : Sound o) (there : o.manager.adapters[key]? = some a)
    (keeps : a.Keeps b)
    (unopened : key ∉ o.started → (a.Unopened → b.Unopened) ∧ (a.runs = [] → b.runs = [])) :
    Sound (o.withAdapter d key b) := by
  have hlength : (o.withAdapter d key b).manager.adapters.length = o.manager.adapters.length :=
    List.length_set
  have hself : (o.withAdapter d key b).manager.adapters[key]? = some b :=
    List.getElem?_set_self (List.getElem?_eq_some_iff.mp there).1
  have hothers {k : Nat} (hne : k ≠ key) :
      (o.withAdapter d key b).manager.adapters[k]? = o.manager.adapters[k]? :=
    List.getElem?_set_ne (Ne.symm hne)
  have hlive {id : String} {k : Nat} (hk : k ∈ o.live id) : k ∈ (o.withAdapter d key b).live id := by
    refine live_of_kept (o := o) (List.Subset.refl _) (fun c hthere => ?_) hk
    by_cases hne : k = key
    · subst hne
      obtain rfl := Option.some.inj (there.symm.trans hthere)
      exact ⟨b, hself, keeps⟩
    · exact ⟨c, (hothers hne).trans hthere, rfl, rfl⟩
  refine ⟨fun id k hk => hlive (hs.seated id k hk), fun id k hk => hlive (hs.waiting id k hk), ?_,
    hs.keys, fun k hk => hlength ▸ hs.there k hk, fun k hk => hlength ▸ hs.started k hk, ?_⟩
  · intro k p ht
    obtain ⟨hnot, c, hc, hsession, hopen⟩ := hs.opening k p ht
    refine ⟨hnot, ?_⟩
    by_cases hne : k = key
    · subst hne
      obtain rfl := Option.some.inj (there.symm.trans hc)
      exact ⟨b, hself, keeps.session.trans hsession, (unopened hnot).1 hopen⟩
    · exact ⟨c, (hothers hne).trans hc, hsession, hopen⟩
  · intro k c hc hnot
    by_cases hne : k = key
    · subst hne
      obtain rfl := Option.some.inj (hself.symm.trans hc)
      exact (unopened hnot).2 (hs.idle k a there hnot)
    · exact hs.idle k c ((hothers hne).symm.trans hc) hnot

theorem Sound.withNew (hs : Sound o) (fewer : o.Leaves rest) (p : StartSession) :
    Sound (o.withNew rest p) := by
  have hrest := hs.withTasks (d := o.disk) fewer
  have hlength : (o.withNew rest p).manager.adapters.length = o.manager.adapters.length + 1 :=
    List.length_append
  have hold {k : Nat} (hk : k < o.manager.adapters.length) :
      (o.withNew rest p).manager.adapters[k]? = o.manager.adapters[k]? :=
    List.getElem?_append_left hk
  have hnew : (o.withNew rest p).manager.adapters[o.manager.adapters.length]? = some (.make p) :=
    List.getElem?_concat_length
  have hlive {id : String} {k : Nat} (hk : k ∈ o.live id) : k ∈ (o.withNew rest p).live id := by
    refine live_of_kept (o := o) (List.Subset.refl _) (fun a hthere => ⟨a, ?_, rfl, rfl⟩) hk
    exact (hold (List.getElem?_eq_some_iff.mp hthere).1).trans hthere
  have hkeys : (o.withNew rest p).keys = (o.withTasks o.disk rest).keys ++ [o.manager.adapters.length] := by
    unfold Station.keys Station.withNew Station.withTasks
    rw [List.filterMap_append, ← List.append_assoc]
    rfl
  refine ⟨fun id k hk => hlive (hs.seated id k hk), ?_, ?_, ?_, ?_, ?_, ?_⟩
  · intro id k hk
    obtain ⟨q, ht, hid⟩ := mem_waiting.mp hk
    rcases List.mem_append.mp ht with ht | ht
    · exact hlive (hrest.waiting id k (mem_waiting.mpr ⟨q, ht, hid⟩))
    · cases List.mem_singleton.mp ht
  · intro k q ht
    rcases List.mem_append.mp ht with ht | ht
    · obtain ⟨hnot, a, hthere, ha⟩ := hrest.opening k q ht
      exact ⟨hnot, a, (hold (List.getElem?_eq_some_iff.mp hthere).1).trans hthere, ha⟩
    · cases List.mem_singleton.mp ht
      refine ⟨fun hin => Nat.lt_irrefl _ (hs.started _ hin), _, hnew, ?_, ?_⟩
      · exact Adapter.session_make p
      · exact Adapter.unopened_make p
  · rw [hkeys]
    refine List.nodup_append.mpr ⟨hrest.keys, List.nodup_singleton _, ?_⟩
    intro j hj k hk heq
    rw [heq, List.mem_singleton.mp hk] at hj
    exact Nat.lt_irrefl _ (hrest.there _ hj)
  · intro k hk
    rw [hkeys] at hk
    rw [hlength]
    rcases List.mem_append.mp hk with hk | hk
    · exact Nat.lt_succ_of_lt (hrest.there k hk)
    · rw [List.mem_singleton.mp hk]
      exact Nat.lt_succ_self _
  · intro k hk
    rw [hlength]
    exact Nat.lt_succ_of_lt (hs.started k hk)
  · intro k a ha hnot
    by_cases hk : k < o.manager.adapters.length
    · exact hs.idle k a ((hold hk).symm.trans ha) hnot
    · obtain rfl : k = o.manager.adapters.length := by
        have := (List.getElem?_eq_some_iff.mp ha).1
        omega
      obtain rfl := Option.some.inj (hnew.symm.trans ha)
      exact (Adapter.unopened_make p).1

theorem Sound.withoutSeat {info : Info} (hs : Sound o)
    (found : o.manager.find? id = some (info, key)) (takes : t.Takes id) :
    Sound (o.withoutSeat id key t) := by
  have hseated : key ∈ o.seated id := mem_seated.mpr ⟨info, found⟩
  obtain ⟨hstarted, a, there, -⟩ := mem_live.mp (hs.seated id key hseated)
  have hadapters := adapters_withoutSeat id t there
  have hlength : (o.withoutSeat id key t).manager.adapters.length = o.manager.adapters.length := by
    rw [hadapters, List.length_set]
  have hothers {k : Nat} (hne : k ≠ key) :
      (o.withoutSeat id key t).manager.adapters[k]? = o.manager.adapters[k]? := by
    rw [hadapters, List.getElem?_set_ne (Ne.symm hne)]
  have hlive {id' : String} {k : Nat} (hne : k ≠ key) (hk : k ∈ o.live id') :
      k ∈ (o.withoutSeat id key t).live id' :=
    live_of_kept (o := o) (List.Subset.refl _)
      (fun a hthere => ⟨a, (hothers hne).trans hthere, rfl, rfl⟩) hk
  have hkeys : (o.withoutSeat id key t).keys.Sublist o.keys := by
    have hnone : [t].filterMap Task.key? = [] := by
      cases t with
      | replacing _ _ _ => rfl
      | stopping _ _ _ => rfl
      | opening _ _ => cases takes
      | opened _ _ => cases takes
    have htasks : (o.withoutSeat id key t).tasks = o.tasks ++ [t] := rfl
    unfold Station.keys
    rw [entries_withoutSeat, htasks, List.filterMap_append, hnone, List.append_nil]
    exact (List.filter_sublist.map _).append_right _
  have htask {u : Task} {j : Nat} (hu : u ∈ (o.withoutSeat id key t).tasks) (hkey : u.key? = some j) :
      u ∈ o.tasks := by
    rcases List.mem_append.mp hu with hu | hu
    · exact hu
    · rw [List.mem_singleton.mp hu] at hkey
      cases t with
      | replacing _ _ _ => cases hkey
      | stopping _ _ _ => cases hkey
      | opening _ _ => cases takes
      | opened _ _ => cases takes
  refine ⟨?_, ?_, ?_, hs.keys.sublist hkeys, ?_, ?_, ?_⟩
  · intro id' k hk
    obtain ⟨info', hfound⟩ := mem_seated.mp hk
    rw [find?_withoutSeat] at hfound
    split at hfound
    · cases hfound
    · rename_i hid
      have hk' : k ∈ o.seated id' := mem_seated.mpr ⟨info', hfound⟩
      exact hlive (hs.seated_apart hk' hseated hid) (hs.seated id' k hk')
  · intro id' k hk
    obtain ⟨p, hu, hid⟩ := mem_waiting.mp hk
    have hu := htask hu rfl
    exact hlive (hs.seated_ne hseated hu rfl).symm (hs.waiting id' k (mem_waiting.mpr ⟨p, hu, hid⟩))
  · intro k p hu
    obtain ⟨hnot, c, hc, ha⟩ := hs.opening k p (htask hu rfl)
    have hne : k ≠ key := fun heq => hnot (heq ▸ hstarted)
    exact ⟨hnot, c, (hothers hne).trans hc, ha⟩
  · intro k hk
    rw [hlength]
    exact hs.there k (hkeys.subset hk)
  · intro k hk
    rw [hlength]
    exact hs.started k hk
  · intro k c hc hnot
    have hne : k ≠ key := fun heq => hnot (heq ▸ hstarted)
    exact hs.idle k c ((hothers hne).symm.trans hc) hnot

theorem Sound.withStarted (hs : Sound o) (waits : Task.opening key p ∈ o.tasks)
    (there : o.manager.adapters[key]? = some a)
    (starts : a.start o.disk o.manager.workspace p = (.ok b, d)) :
    Sound (o.withStarted d key p b) := by
  obtain ⟨hnew, a', ha', hsession, hopen⟩ := hs.opening key p waits
  obtain rfl := Option.some.inj (there.symm.trans ha')
  obtain ⟨hsame, hlives, hidle⟩ := Adapter.start_opens hopen starts
  have hlength : (o.withStarted d key p b).manager.adapters.length = o.manager.adapters.length :=
    List.length_set
  have hself : (o.withStarted d key p b).manager.adapters[key]? = some b :=
    List.getElem?_set_self (List.getElem?_eq_some_iff.mp there).1
  have hothers {k : Nat} (hne : k ≠ key) :
      (o.withStarted d key p b).manager.adapters[k]? = o.manager.adapters[k]? :=
    List.getElem?_set_ne (Ne.symm hne)
  have hlive {id : String} {k : Nat} (hk : k ∈ o.live id) : k ∈ (o.withStarted d key p b).live id := by
    have hne : k ≠ key := fun heq => hnew (heq ▸ (mem_live.mp hk).1)
    refine live_of_kept (o := o) (List.subset_cons_self _ _) (fun c hthere => ?_) hk
    exact ⟨c, (hothers hne).trans hthere, rfl, rfl⟩
  have hperm : (o.withStarted d key p b).keys.Perm o.keys := by
    unfold Station.keys Station.withStarted
    refine List.Perm.append_left _ ?_
    rw [List.filterMap_append]
    refine List.perm_append_comm.trans ?_
    exact ((List.perm_cons_erase waits).filterMap Task.key?).symm
  refine ⟨fun id k hk => hlive (hs.seated id k hk), ?_, ?_, hperm.nodup_iff.mpr hs.keys, ?_, ?_, ?_⟩
  · intro id k hk
    obtain ⟨q, ht, hid⟩ := mem_waiting.mp hk
    rcases List.mem_append.mp ht with ht | ht
    · exact hlive (hs.waiting id k (mem_waiting.mpr ⟨q, List.mem_of_mem_erase ht, hid⟩))
    · cases List.mem_singleton.mp ht
      exact mem_live.mpr ⟨List.mem_cons_self, b, hself, hsame.trans (hsession.trans hid), hlives⟩
  · intro k q ht
    have ht : Task.opening k q ∈ o.tasks.erase (.opening key p) := by
      rcases List.mem_append.mp ht with ht | ht
      · exact ht
      · cases List.mem_singleton.mp ht
    have hne : k ≠ key := by
      rintro rfl
      have hnodup := (List.nodup_append.mp hs.keys).2.1
      rw [((List.perm_cons_erase waits).filterMap Task.key?).nodup_iff] at hnodup
      exact (List.nodup_cons.mp hnodup).1 (List.mem_filterMap.mpr ⟨_, ht, rfl⟩)
    obtain ⟨hnot, c, hc, ha⟩ := hs.opening k q (List.mem_of_mem_erase ht)
    refine ⟨fun hin => ?_, c, (hothers hne).trans hc, ha⟩
    rcases List.mem_cons.mp hin with heq | hin
    · exact hne heq
    · exact hnot hin
  · intro k hk
    rw [hlength]
    exact hs.there k (hperm.subset hk)
  · intro k hk
    rw [hlength]
    rcases List.mem_cons.mp hk with rfl | hk
    · exact (List.getElem?_eq_some_iff.mp there).1
    · exact hs.started k hk
  · intro k c hc hnot
    have hne : k ≠ key := fun heq => hnot (heq ▸ List.mem_cons_self)
    exact hs.idle k c ((hothers hne).symm.trans hc) fun hin => hnot (List.mem_cons_of_mem _ hin)

theorem past_withSeat (o : Station) (key : Nat) (p : StartSession)
    (h : (o.withSeat key p).manager.adapters[k]? = some b) :
    ∃ a, o.manager.adapters[k]? = some a ∧ a.Past b := by
  rcases adapters_withSeat o key p with hsame | ⟨old, -, a, there, hset⟩
  · rw [hsame] at h
    exact ⟨b, h, .refl b⟩
  · rw [hset] at h
    rcases getElem?_set_cases there h with ⟨rfl, rfl⟩ | ⟨-, h⟩
    · exact ⟨a, there, a.discard_past⟩
    · exact ⟨b, h, .refl b⟩

theorem getElem?_withSeat (o : Station) (key : Nat) (p : StartSession)
    (hk : k ∉ o.seated p.sessionId) :
    (o.withSeat key p).manager.adapters[k]? = o.manager.adapters[k]? := by
  rcases adapters_withSeat o key p with hsame | ⟨old, hold, a, -, hset⟩
  · rw [hsame]
  · rw [hset, List.getElem?_set_ne]
    rintro rfl
    exact hk hold

theorem Sound.withSeat (hs : Sound o) (waits : Task.opened key p ∈ o.tasks) :
    Sound (o.withSeat key p) := by
  have hlength : (o.withSeat key p).manager.adapters.length = o.manager.adapters.length := by
    rcases adapters_withSeat o key p with hsame | ⟨old, -, a, -, hset⟩
    · rw [hsame]
    · rw [hset, List.length_set]
  have hlive {id : String} {k : Nat} (hk : k ∈ o.live id) (hnot : k ∉ o.seated p.sessionId) :
      k ∈ (o.withSeat key p).live id := by
    refine live_of_kept (o := o) (List.Subset.refl _) (fun a hthere => ⟨a, ?_, rfl, rfl⟩) hk
    rw [getElem?_withSeat o key p hnot, hthere]
  have hapart {t : Task} {j : Nat} (ht : t ∈ o.tasks) (hkey : t.key? = some j) :
      j ∉ o.seated p.sessionId := fun hj => hs.seated_ne hj ht hkey rfl
  have hkeys : ∃ all, all.Perm o.keys ∧ (o.withSeat key p).keys.Sublist all := by
    refine ⟨o.manager.entries.map (fun e => e.2.2) ++
      key :: (o.tasks.erase (.opened key p)).filterMap Task.key?, ?_, ?_⟩
    · exact List.Perm.append_left _ ((List.perm_cons_erase waits).filterMap Task.key?).symm
    · have htasks : (o.withSeat key p).tasks = o.tasks.erase (.opened key p) := rfl
      unfold Station.keys
      rw [entries_withSeat, htasks, List.map_append, List.append_assoc]
      exact (List.filter_sublist.map _).append_right _
  obtain ⟨all, hperm, hsublist⟩ := hkeys
  refine ⟨?_, ?_, ?_, (hperm.nodup_iff.mpr hs.keys).sublist hsublist, ?_, ?_, ?_⟩
  · intro id k hk
    obtain ⟨info, hfound⟩ := mem_seated.mp hk
    rw [find?_withSeat] at hfound
    split at hfound
    · rename_i hid
      cases hfound
      exact hlive (hs.waiting id key (mem_waiting.mpr ⟨p, waits, hid.symm⟩)) (hapart waits rfl)
    · rename_i hid
      have hold : k ∈ o.seated id := mem_seated.mpr ⟨info, hfound⟩
      exact hlive (hs.seated id k hold) fun hk' => hs.seated_apart hold hk' hid rfl
  · intro id k hk
    obtain ⟨q, ht, hid⟩ := mem_waiting.mp hk
    have ht := List.mem_of_mem_erase ht
    exact hlive (hs.waiting id k (mem_waiting.mpr ⟨q, ht, hid⟩)) (hapart ht rfl)
  · intro k q ht
    have ht := List.mem_of_mem_erase ht
    obtain ⟨hnot, a, hthere, ha⟩ := hs.opening k q ht
    exact ⟨hnot, a, (getElem?_withSeat o key p (hapart ht rfl)).trans hthere, ha⟩
  · intro k hk
    rw [hlength]
    exact hs.there k (hperm.subset (hsublist.subset hk))
  · intro k hk
    rw [hlength]
    exact hs.started k hk
  · intro k b hb hnot
    obtain ⟨a, ha, hpast⟩ := past_withSeat o key p hb
    rw [hpast.runs]
    exact hs.idle k a ha hnot

theorem Sound.step (hs : Sound o) (hw : Went o o') : Sound o' := by
  cases hw with
  | still fewer => exact hs.withTasks fewer
  | made fewer free => exact hs.withNew fewer _
  | taken found takes => exact hs.withoutSeat found takes
  | @handed id info key a b found there hands =>
    have hstarted := (mem_live.mp (hs.seated id key (mem_seated.mpr ⟨info, found⟩))).1
    exact hs.withAdapter there (Adapter.handed_keeps hands) fun hnot => absurd hstarted hnot
  | opened waits there starts => exact hs.withStarted waits there starts
  | placed waits => exact hs.withSeat waits
  | acted there acts =>
    obtain ⟨hkeeps, hruns⟩ := Adapter.act_keeps acts
    refine hs.withAdapter there hkeeps fun _ => ⟨Adapter.act_unopened acts, fun hnil => ?_⟩
    exact List.eq_nil_of_subset_nil (hnil ▸ hruns)

end Station

end Fleet.Session
