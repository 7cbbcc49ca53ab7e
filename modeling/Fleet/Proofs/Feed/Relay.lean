import Fleet.Feed.Relay
import Mathlib.Data.List.Nodup

/-!
The relay's two lists agree: an id is among a session's ids exactly when its connection listens to
that session. So a session's targets are its connections, each once.
-/

namespace Fleet.Feed.Relay

/-- The ids that a list keeps for a session. -/
def idsIn (m : List (String × List String)) (session : String) : List String :=
  (m.lookup session).getD []

theorem lookup_of_fresh {β : Type} {m : List (String × β)} {k : String}
    (h : k ∉ m.map Prod.fst) : m.lookup k = none := by
  rw [List.lookup_eq_none_iff]
  intro q hq
  have hne : k ≠ q.1 := fun he => h (List.mem_map.mpr ⟨q, hq, he.symm⟩)
  simpa using hne

theorem idsIn_cons (k : String) (ids : List String) (m : List (String × List String))
    (session : String) :
    idsIn ((k, ids) :: m) session = if session = k then ids else idsIn m session := by
  by_cases h : session = k
  · simp [idsIn, h]
  · have hb : (session == k) = false := by simpa using h
    simp [idsIn, List.lookup_cons, hb, h]

theorem idsIn_attach (s id : String) (m : List (String × List String)) (session : String) :
    idsIn (attach s id m) session =
      if session = s then if (idsIn m s).contains id then idsIn m s else idsIn m s ++ [id]
      else idsIn m session := by
  induction m with
  | nil =>
    rw [attach, idsIn_cons]
    by_cases h : session = s <;> simp [h, idsIn]
  | cons q rest ih =>
    obtain ⟨k, ids⟩ := q
    by_cases hk : k = s
    · subst hk
      rw [attach, if_pos rfl, idsIn_cons, idsIn_cons, idsIn_cons]
      by_cases h : session = k <;> simp [h]
    · rw [attach, if_neg hk, idsIn_cons, ih, idsIn_cons, idsIn_cons, if_neg (Ne.symm hk)]
      by_cases h : session = k
      · simp [h, hk]
      · simp [h]

theorem keys_attach (s id : String) {m : List (String × List String)}
    (h : (m.map Prod.fst).Nodup) : ((attach s id m).map Prod.fst).Nodup ∧
      ∀ k, k ∈ (attach s id m).map Prod.fst → k = s ∨ k ∈ m.map Prod.fst := by
  induction m with
  | nil => simp [attach]
  | cons q rest ih =>
    obtain ⟨k, ids⟩ := q
    rw [List.map_cons, List.nodup_cons] at h
    obtain ⟨hn, hm⟩ := ih h.2
    by_cases hk : k = s
    · rw [attach, if_pos hk]
      exact ⟨List.nodup_cons.mpr h, fun _ => .inr⟩
    · rw [attach, if_neg hk]
      refine ⟨List.nodup_cons.mpr ⟨fun hc => ?_, hn⟩, ?_⟩
      · rcases hm k hc with he | hr
        · exact hk he
        · exact h.1 hr
      · intro j hj
        rcases List.mem_cons.mp hj with rfl | hj
        · exact .inr List.mem_cons_self
        · exact (hm j hj).imp_right (List.mem_cons_of_mem _)

theorem idsIn_detach (s id : String) {m : List (String × List String)}
    (h : (m.map Prod.fst).Nodup) (session : String) :
    idsIn (detach s id m) session =
      if session = s then (idsIn m s).filter (· ≠ id) else idsIn m session := by
  induction m with
  | nil => simp [detach, idsIn]
  | cons q rest ih =>
    obtain ⟨k, ids⟩ := q
    rw [List.map_cons, List.nodup_cons] at h
    by_cases hk : k = s
    · subst hk
      have hrest : idsIn rest k = [] := by simp [idsIn, lookup_of_fresh h.1]
      simp only [detach, ↓reduceIte]
      split
      · rename_i hempty
        rw [List.isEmpty_iff] at hempty
        rw [idsIn_cons, idsIn_cons, if_pos rfl, hempty]
        by_cases hs : session = k <;> simp [hs, hrest]
      · rw [idsIn_cons, idsIn_cons, idsIn_cons, if_pos rfl]
        by_cases hs : session = k <;> simp [hs]
    · rw [detach, if_neg hk, idsIn_cons, ih h.2, idsIn_cons, idsIn_cons, if_neg (Ne.symm hk)]
      by_cases hs : session = k
      · simp [hs, hk]
      · simp [hs]

theorem detach_sublist (s id : String) (m : List (String × List String)) :
    ((detach s id m).map Prod.fst).Sublist (m.map Prod.fst) := by
  induction m with
  | nil => exact .slnil
  | cons q rest ih =>
    obtain ⟨k, ids⟩ := q
    by_cases hk : k = s
    · simp only [detach, hk, ↓reduceIte]
      split
      · exact .cons _ (List.Sublist.refl _)
      · exact List.Sublist.refl _
    · rw [detach, if_neg hk]
      exact ih.cons_cons _

/-- The two lists of a relay agree. -/
structure Sound (r : Relay) : Prop where
  connections : (r.connections.map Connection.id).Nodup
  sessions : (r.sessions.map Prod.fst).Nodup
  distinct : ∀ s, (r.ids s).Nodup
  mem_ids : ∀ s id, id ∈ r.ids s ↔ ∃ c ∈ r.connections, c.id = id ∧ c.session = s

theorem Sound.empty : Sound {} := by
  refine ⟨List.nodup_nil, List.nodup_nil, fun _ => List.nodup_nil, ?_⟩
  intro s id
  simp [ids]

variable {r : Relay} {c d : Connection} {id session : String}

theorem Sound.eq_of_id (h : r.Sound) (hc : c ∈ r.connections) (hd : d ∈ r.connections)
    (he : c.id = d.id) : c = d :=
  List.inj_on_of_nodup_map h.connections hc hd he

theorem Sound.find?_eq (h : r.Sound) (hc : c ∈ r.connections) : r.find? c.id = some c := by
  obtain ⟨d, hd⟩ := Option.isSome_iff_exists.mp
    (List.find?_isSome (p := fun d : Connection => d.id == c.id).mpr ⟨c, hc, by simp⟩)
  have he : d.id = c.id := by simpa using List.find?_some hd
  rw [find?, hd, h.eq_of_id (List.mem_of_find?_eq_some hd) hc he]

theorem mem_of_find? (h : r.find? id = some c) : c ∈ r.connections ∧ c.id = id :=
  ⟨List.mem_of_find?_eq_some h, by simpa using List.find?_some h⟩

/-- A relay without a connection. -/
theorem mem_remove (h : d ∈ (r.remove id).connections) : d ∈ r.connections ∧ d.id ≠ id := by
  unfold remove at h
  split at h
  · rename_i hn
    refine ⟨h, fun he => ?_⟩
    have := List.find?_eq_none.mp hn d h
    simp [he] at this
  · simpa using List.mem_filter.mp h

theorem Sound.remove (h : r.Sound) (id : String) : (r.remove id).Sound := by
  unfold Relay.remove
  split
  · exact h
  · rename_i c hc
    obtain ⟨hm, rfl⟩ := mem_of_find? hc
    have hids (s : String) : ids ⟨r.connections.filter fun d => d.id != c.id,
        detach c.session c.id r.sessions⟩ s =
        if s = c.session then (r.ids s).filter (· ≠ c.id) else r.ids s := by
      have := idsIn_detach c.session c.id h.sessions s
      by_cases hs : s = c.session
      · subst hs
        simpa [idsIn, ids] using this
      · simpa [idsIn, ids, hs] using this
    refine ⟨?_, ?_, ?_, ?_⟩
    · exact List.Nodup.sublist (List.filter_sublist.map _) h.connections
    · exact List.Nodup.sublist (detach_sublist _ _ _) h.sessions
    · intro s
      rw [hids]
      split
      · exact (h.distinct s).filter _
      · exact h.distinct s
    · intro s id
      have hkeep : (∃ d ∈ r.connections.filter fun d => d.id != c.id, d.id = id ∧ d.session = s) ↔
          id ∈ r.ids s ∧ id ≠ c.id := by
        rw [h.mem_ids]
        constructor
        · rintro ⟨d, hd, rfl, hs⟩
          obtain ⟨hd, hne⟩ := List.mem_filter.mp hd
          exact ⟨⟨d, hd, rfl, hs⟩, by simpa using hne⟩
        · rintro ⟨⟨d, hd, rfl, hs⟩, hne⟩
          exact ⟨d, List.mem_filter.mpr ⟨hd, by simpa using hne⟩, rfl, hs⟩
      rw [hkeep, hids]
      by_cases hs : s = c.session
      · simp [hs]
      · rw [if_neg hs]
        refine ⟨fun hi => ⟨hi, fun he => ?_⟩, fun hi => hi.1⟩
        obtain ⟨d, hd, hid, hds⟩ := (h.mem_ids s id).mp hi
        rw [h.eq_of_id hd hm (hid.trans he)] at hds
        exact hs hds.symm

theorem Sound.register (h : r.Sound) (c : Connection) : (r.register c).Sound := by
  have hr := h.remove c.id
  have hnew {d : Connection} (hd : d ∈ (r.remove c.id).connections) : d.id ≠ c.id :=
    (mem_remove hd).2
  have hids (s : String) : (r.register c).ids s =
      if s = c.session then (r.remove c.id).ids s ++ [c.id] else (r.remove c.id).ids s := by
    have hfresh : ((r.remove c.id).ids c.session).contains c.id = false := by
      rw [Bool.eq_false_iff]
      intro hc
      obtain ⟨d, hd, he, _⟩ := (hr.mem_ids _ _).mp (List.contains_iff_mem.mp hc)
      exact hnew hd he
    have := idsIn_attach c.session c.id (r.remove c.id).sessions s
    change idsIn (attach c.session c.id (r.remove c.id).sessions) s = _
    rw [this]
    change (if s = c.session then
      if ((r.remove c.id).ids c.session).contains c.id then _ else _ else _) = _
    rw [hfresh]
    by_cases hs : s = c.session
    · subst hs
      rfl
    · simp only [hs, ↓reduceIte]
      rfl
  refine ⟨?_, (keys_attach _ _ hr.sessions).1, ?_, ?_⟩
  · change ((_ ++ [c]).map Connection.id).Nodup
    rw [List.map_append]
    refine List.nodup_append.mpr ⟨hr.connections, List.nodup_singleton _, ?_⟩
    intro a ha b hb hab
    obtain ⟨d, hd, rfl⟩ := List.mem_map.mp ha
    rw [List.map_singleton, List.mem_singleton] at hb
    exact hnew hd (hab.trans hb)
  · intro s
    rw [hids]
    split
    · refine List.nodup_append.mpr ⟨hr.distinct s, List.nodup_singleton _, ?_⟩
      intro a ha b hb hab
      obtain ⟨d, hd, he, _⟩ := (hr.mem_ids _ _).mp ha
      rw [List.mem_singleton] at hb
      exact hnew hd (he.trans (hab.trans hb))
    · exact hr.distinct s
  · intro s id
    change _ ↔ ∃ d ∈ (r.remove c.id).connections ++ [c], d.id = id ∧ d.session = s
    rw [hids]
    constructor
    · intro hi
      split at hi
      · rename_i hs
        rcases List.mem_append.mp hi with hi | hi
        · obtain ⟨d, hd, he⟩ := (hr.mem_ids _ _).mp hi
          exact ⟨d, List.mem_append_left _ hd, he⟩
        · exact ⟨c, by simp, (List.mem_singleton.mp hi).symm, hs.symm⟩
      · obtain ⟨d, hd, he⟩ := (hr.mem_ids _ _).mp hi
        exact ⟨d, List.mem_append_left _ hd, he⟩
    · rintro ⟨d, hd, rfl, rfl⟩
      rcases List.mem_append.mp hd with hd | hd
      · have := (hr.mem_ids _ _).mpr ⟨d, hd, rfl, rfl⟩
        split
        · exact List.mem_append_left _ this
        · exact this
      · rw [List.mem_singleton.mp hd, if_pos rfl]
        exact List.mem_append_right _ (List.mem_singleton.mpr rfl)

theorem mem_register (h : d ∈ (r.register c).connections) :
    d = c ∨ d ∈ r.connections ∧ d.id ≠ c.id := by
  rcases List.mem_append.mp h with h | h
  · exact .inr (mem_remove h)
  · exact .inl (List.mem_singleton.mp h)

/-! ### Targets -/

theorem Sound.mem_targets (h : r.Sound) :
    c ∈ r.targets session ↔ c ∈ r.connections ∧ c.session = session := by
  rw [targets, List.mem_filterMap]
  constructor
  · rintro ⟨id, hi, hf⟩
    obtain ⟨hc, rfl⟩ := mem_of_find? hf
    obtain ⟨d, hd, he, hs⟩ := (h.mem_ids _ _).mp hi
    rw [h.eq_of_id hd hc he] at hs
    exact ⟨hc, hs⟩
  · rintro ⟨hc, hs⟩
    exact ⟨c.id, (h.mem_ids _ _).mpr ⟨c, hc, rfl, hs⟩, h.find?_eq hc⟩

/-- The targets of a session are its ids in their order, so that none is there twice. -/
theorem Sound.targets_ids (h : r.Sound) (session : String) :
    (r.targets session).map Connection.id = r.ids session := by
  have : ∀ ids : List String, (∀ id ∈ ids, id ∈ r.ids session) →
      (ids.filterMap r.find?).map Connection.id = ids := by
    intro ids
    induction ids with
    | nil => exact fun _ => rfl
    | cons id rest ih =>
      intro hall
      obtain ⟨c, hc, rfl, _⟩ := (h.mem_ids _ _).mp (hall id List.mem_cons_self)
      rw [List.filterMap_cons_some (h.find?_eq hc), List.map_cons,
        ih fun x hx => hall x (List.mem_cons_of_mem _ hx)]
  exact this _ fun _ hi => hi

theorem Sound.targets_nodup (h : r.Sound) (session : String) :
    ((r.targets session).map Connection.id).Nodup := by
  rw [h.targets_ids]
  exact h.distinct session

/-! ### Connections that go -/

def removeAll (r : Relay) (ids : List String) : Relay := ids.foldl remove r

theorem Sound.removeAll (h : r.Sound) (ids : List String) : (r.removeAll ids).Sound := by
  induction ids generalizing r with
  | nil => exact h
  | cons id rest ih => exact ih (h.remove id)

theorem removeAll_subset (r : Relay) (ids : List String) :
    (r.removeAll ids).connections ⊆ r.connections := by
  induction ids generalizing r with
  | nil => exact List.Subset.refl _
  | cons id rest ih =>
    intro c hc
    exact (mem_remove (ih (r.remove id) hc)).1

variable {σ : Type} {k : Sinks σ} {n : Notice} {s : σ}

/-- A relay only loses connections while it offers a notice: those that refuse it. -/
theorem offer_relay (cs : List Connection) (r : Relay) (s : σ) :
    ∃ ids, (offer k n cs r s).2.1 = r.removeAll ids := by
  induction cs generalizing r s with
  | nil => exact ⟨[], rfl⟩
  | cons c rest ih =>
    unfold offer
    split
    · exact ih r _
    · obtain ⟨ids, h⟩ := ih (r.remove c.id) (k.close c.sink ‹σ›)
      exact ⟨c.id :: ids, h⟩

theorem closeSession_relay (k : Sinks σ) (r : Relay) (session : String) (s : σ) :
    (closeSession k r session s).2.1 = r.removeAll ((r.targets session).map Connection.id) := by
  simp [closeSession, removeAll, List.foldl_map]

end Fleet.Feed.Relay
