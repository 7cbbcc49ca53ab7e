import Fleet.Proofs.Vm.Columns
import Fleet.Proofs.Vm.History
import Fleet.Proofs.Vm.Lone
import Fleet.Proofs.Vm.Mirrors

/-!
Rows in memory and rows in a table. A table answers in the order of the creation times' text, lets some
columns change and not others, and refuses a second live row of a user on every write; memory does none of
this. In worlds that scheduling leads to it makes no difference.
-/

namespace Fleet.Vm

/-- Of two times the later one has the greater text in a table. -/
theorem Store.timeText_lt {a b : Instant} (ha : a.Stamped) (hb : b.Stamped) (h : a < b) :
    timeText a < timeText b := by
  change (String.ofList _).toList < (String.ofList _).toList
  rw [String.toList_ofList, String.toList_ofList]
  exact Instant.civilText_lt ha hb h ' ' (by decide)

theorem Store.timeText_mono {a b : Instant} (ha : a.Stamped) (hb : b.Stamped) (h : a ≤ b) :
    timeText a ≤ timeText b := by
  rcases h with rfl | h
  · exact String.le_refl _
  · exact String.lt_asymm (timeText_lt ha hb h)

namespace World

/-- The same rows in a table. -/
def tabled (w : World) : World := { w with store := { w.store with keeping := .table } }

/-- Rows were made one after the other and none after now, at times that have a year of four digits. -/
structure Dated (now : Instant) (w : World) : Prop extends Orderly w where
  sorted : w.store.rows.Pairwise fun a b => a.createdAt ≤ b.createdAt
  past : ∀ r ∈ w.store.rows, r.createdAt ≤ now
  stamped : ∀ r ∈ w.store.rows, ∀ t ∈ r.times, t.Stamped

variable {w v : World} {now : Instant} {user : String} {r r' : Row}

/-! ### The order of answers -/

theorem notAfter_of_le {a b : Row} (ha : a.createdAt.Stamped) (hb : b.createdAt.Stamped)
    (h : a.createdAt ≤ b.createdAt) : Store.notAfter a b = true :=
  decide_eq_true (Store.timeText_mono ha hb h)

/-- A table's order is the one in which rows were made. -/
theorem listing_of_sorted (hk : w.store.keeping = .table)
    (sorted : w.store.rows.Pairwise fun a b => a.createdAt ≤ b.createdAt)
    (stamped : ∀ r ∈ w.store.rows, r.createdAt.Stamped) : w.store.listing = w.store.rows := by
  unfold Store.listing
  rw [hk]
  apply List.mergeSort_of_pairwise
  refine sorted.imp_of_mem fun {a b} ha hb h => ?_
  exact notAfter_of_le (stamped a ha) (stamped b hb) h

theorem Dated.listing_tabled (hd : w.Dated now) : w.tabled.store.listing = w.store.rows :=
  listing_of_sorted (w := w.tabled) rfl hd.sorted fun r hr => hd.stamped r hr _ r.createdAt_mem

theorem Dated.history_tabled (hd : w.Dated now) (user : String) :
    w.tabled.store.history user = w.store.history user := by
  rw [hd.history, Store.history, hd.listing_tabled]

theorem Dated.latest?_tabled (hd : w.Dated now) (user : String) :
    w.tabled.store.latest? user = w.store.latest? user := by
  rw [Store.latest?, hd.history_tabled, Store.latest?]

theorem Dated.byStatus_tabled (hd : w.Dated now) (status : Status) :
    w.tabled.store.byStatus status = w.store.byStatus status := by
  rw [Store.byStatus, hd.listing_tabled, Store.byStatus, hd.listing]

/-! ### Writes -/

theorem Dated.mono {later : Instant} (hd : w.Dated now) (h : ∀ t, t ≤ now → t ≤ later) : w.Dated later :=
  ⟨hd.toOrderly, hd.sorted, fun r hr => h _ (hd.past r hr), hd.stamped⟩

theorem Dated.launching (hd : w.Dated now) (l : Launch) : (w.launching l).Dated now :=
  ⟨hd.toOrderly.launching l, hd.sorted, hd.past, hd.stamped⟩

theorem Dated.put (hd : w.Dated now) (hn : now.Stamped) (hr : r ∈ w.store.rows) (hl : r.isLive = true)
    (h : r.Renewed now r') : (w.put r').Dated now := by
  -- times of creation stay where they were
  have hsame (a : Row) (ha : a ∈ w.store.rows) :
      (if a.id = r'.id then r' else a).createdAt = a.createdAt := by
    split
    · rename_i hid
      rw [hd.eq_of_id ha hr (hid.trans h.id_eq), h.createdAt_eq]
    · rfl
  refine ⟨hd.toOrderly.put (hd.live?_eq hr hl) h.id_eq h.userId_eq, ?_, fun a ha => ?_, fun a ha t ht => ?_⟩
  · rw [put_rows, List.pairwise_map]
    refine hd.sorted.imp_of_mem fun {a b} ha hb h => ?_
    rw [hsame a ha, hsame b hb]
    exact h
  · obtain ⟨b, hb, rfl⟩ := List.mem_map.mp ha
    rw [hsame b hb]
    exact hd.past b hb
  · rcases mem_put ha with rfl | ⟨ha, -⟩
    · rcases h.times t ht with hold | rfl
      · exact hd.stamped r hr t hold
      · exact hn
    · exact hd.stamped a ha t ht

theorem Dated.add (hd : w.Dated now) (hn : w.live? r.userId = none) (hf : r.id ∉ w.ids)
    (hc : r.createdAt = now) (ht : ∀ t ∈ r.times, t.Stamped) : (w.add r).Dated now := by
  refine ⟨hd.toOrderly.add hn hf, ?_, fun a ha => ?_, fun a ha => ?_⟩
  · rw [add_rows, List.pairwise_append]
    refine ⟨hd.sorted, List.pairwise_singleton _ _, fun a ha b hb => ?_⟩
    rw [List.mem_singleton.mp hb, hc]
    exact hd.past a ha
  · rcases List.mem_append.mp ha with ha | ha
    · exact hd.past a ha
    · rw [List.mem_singleton.mp ha, hc]
      exact .inl rfl
  · rcases List.mem_append.mp ha with ha | ha
    · exact hd.stamped a ha
    · exact List.mem_singleton.mp ha ▸ ht

theorem Dated.lone (hd : w.Dated now) : w.Lone := by
  refine ⟨hd.distinct, hd.faultless, fun q hq r hr hu hlq hlr => ?_⟩
  have hq := hd.live?_eq hq hlq
  rw [hu, hd.live?_eq hr hlr] at hq
  exact (Option.some.inj hq).symm

theorem Lone.tabled (hw : w.Lone) : w.tabled.Lone := ⟨hw.distinct, hw.faultless, hw.alone⟩

/-- A table lets all columns change that change and finds no second live row that memory does not find. -/
theorem mirror_tabled {s : Surroundings} (hn : s.now.Stamped) (user : String) :
    Mirror s user World.tabled (Dated s.now) where
  distinct hd := hd.distinct
  read {w} hd := by
    refine ⟨_, w, hd.lone.read user, ?_, hd⟩
    rw [hd.lone.tabled.read, hd.latest?_tabled]
  record {w} hd l _ := ⟨.ok (), w.launching l, rfl, rfl, hd.launching l⟩
  update {w} hd {r r'} hr hl _ h :=
    ⟨_, _, hd.lone.update hr hl h.id_eq h.userId_eq h.createdAt_eq,
      hd.lone.tabled.update hr hl h.id_eq h.userId_eq h.createdAt_eq, hd.put hn hr hl h⟩
  insert {w} hd hf org := by
    let r := Row.start s.freshId user org s.freshTicket s.now
    have hins : Work.insert r w = if Store.hasLive w.store.rows user then _ else _ := hd.lone.insert hf rfl
    have hins' : Work.insert r w.tabled = if Store.hasLive w.store.rows user then _ else _ :=
      hd.lone.tabled.insert hf rfl
    have hstamped : ∀ t ∈ r.times, t.Stamped := by
      intro t ht
      have hnow : t = s.now := by simpa [r, Row.times, Row.start] using ht
      exact hnow ▸ hn
    cases hlive : Store.hasLive w.store.rows user <;> rw [hlive] at hins hins'
    · exact ⟨_, _, hins, hins', hd.add (live?_of_vacant hlive) hf rfl hstamped⟩
    · exact ⟨_, _, hins, hins', hd⟩

end World

/-! ### Operations -/

namespace Work

open World

variable {s : Surroundings} {w : World}

theorem demoteAll_tabled (hd : w.Dated s.now) (hn : s.now.Stamped) (rows : List Row) (n : Nat) :
    Same World.tabled (Dated s.now) (demoteAll s.now rows n) w := by
  induction rows generalizing w n with
  | nil => exact .answer hd _
  | cons r rest ih => exact ((mirror_tabled hn r.userId).demoteStale hd).bind fun _ _ _ hv => ih hv _

theorem sweep_tabled (hd : w.Dated s.now) (hn : s.now.Stamped) (cutoff : Instant) :
    Same World.tabled (Dated s.now) (sweep s.now cutoff) w := by
  have hread : Same World.tabled (Dated s.now) (byStatus .ready) w := by
    refine ⟨_, w, byStatus_apply hd.toCalm .ready, ?_, hd⟩
    rw [byStatus, access_apply (w := w.tabled) hd.faultless, hd.byStatus_tabled]
  exact (hread.map _).bind fun _ _ _ hv => demoteAll_tabled hv hn _ 0

end Work

/-- In memory and in a table an operation gives the same answer and leaves the same rows and launches. -/
theorem Operation.work_tabled {p : Policy} {s : Surroundings} {w : World} (hd : w.Dated s.now)
    (hn : s.now.Stamped) (hf : s.freshId ∉ w.ids) (o : Operation) :
    Work.Same World.tabled (World.Dated s.now) (o.work p s) w := by
  cases hu : o.user? with
  | some user => exact (World.mirror_tabled hn user).work hd hf hu
  | none =>
    cases o <;> cases hu
    rename_i timeoutMs
    cases hcut : Work.cutoff? s.now timeoutMs with
    | none =>
      simp only [work, hcut]
      exact .answer hd _
    | some cutoff =>
      simp only [work, hcut]
      exact (Work.sweep_tabled hd hn cutoff).map _

/-! ### Runs -/

theorem World.empty_dated (now : Instant) : empty.Dated now :=
  ⟨empty_orderly, .nil, fun _ h => absurd h List.not_mem_nil, fun _ h => absurd h List.not_mem_nil⟩

/-- Over a run the clock does not go back, and shows years of four digits. -/
structure Clocked (turns : List Turn) (now : Instant) : Prop where
  onward : (now :: turns.map fun t => t.surroundings.now).Pairwise (· ≤ ·)
  stamped : ∀ t ∈ turns, t.surroundings.now.Stamped

theorem Clocked.step {t : Turn} {turns : List Turn} {now : Instant} (h : Clocked (t :: turns) now) :
    Clocked turns t.surroundings.now :=
  ⟨(List.pairwise_cons.mp h.onward).2, fun u hu => h.stamped u (List.mem_cons_of_mem _ hu)⟩

theorem Clocked.start {turns : List Turn} (onward : (turns.map fun t => t.surroundings.now).Pairwise (· ≤ ·))
    (stamped : ∀ t ∈ turns, t.surroundings.now.Stamped) : ∃ now, Clocked turns now := by
  cases turns with
  | nil => exact ⟨default, List.pairwise_singleton _ _, stamped⟩
  | cons t rest =>
    refine ⟨t.surroundings.now, List.pairwise_cons.mpr ⟨fun u hu => ?_, onward⟩, stamped⟩
    rcases List.mem_cons.mp hu with rfl | hu
    · exact .inl rfl
    · exact (List.pairwise_cons.mp onward).1 u hu

/-- Turn by turn the world in memory and the one in a table stay the same. -/
theorem play_tabled (p : Policy) {turns : List Turn} {w : World} {now : Instant} (ha : Ahead turns w)
    (hd : w.Dated now) (hc : Clocked turns now) :
    ∃ answers v last, play p turns w = (answers, v) ∧ play p turns w.tabled = (answers, v.tabled) ∧
      v.Dated last := by
  induction turns generalizing w now with
  | nil => exact ⟨[], w, now, rfl, rfl, hd⟩
  | cons t rest ih =>
    have hnow : now ≤ t.surroundings.now := (List.pairwise_cons.mp hc.onward).1 _ List.mem_cons_self
    have hd' := hd.mono fun _ h => Instant.le_trans h hnow
    obtain ⟨a, v, hm, ht, hv⟩ := t.operation.work_tabled (p := p) hd' (hc.stamped t List.mem_cons_self)
      (ha.unused t List.mem_cons_self)
    have hrun : t.run p w = (a, v) := hm
    have hrun' : t.run p w.tabled = (a, v.tabled) := ht
    have hstep := ha.step (p := p)
    rw [hrun] at hstep
    obtain ⟨answers, u, last, hm, ht, hu⟩ := ih hstep hv hc.step
    refine ⟨a :: answers, u, last, ?_, ?_, hu⟩
    · rw [play, hrun, hm]
    · rw [play, hrun', ht]

/-- Over any operations of any users whose clock does not go back: with a table the scheduler answers as
in memory, launches the same, and leaves what is listed in the same way, for a user and by status. The
table holds texts from which its rows are read back. -/
theorem table_answers_as_memory (p : Policy) (turns : List Turn) (fresh : (turns.map Turn.freshId).Nodup)
    (onward : (turns.map fun t => t.surroundings.now).Pairwise (· ≤ ·))
    (stamped : ∀ t ∈ turns, t.surroundings.now.Stamped) :
    let memory := play p turns .empty
    let table := play p turns World.empty.tabled
    table.1 = memory.1 ∧ table.2.launches = memory.2.launches ∧
      (∀ user, table.2.store.latest? user = memory.2.store.latest? user) ∧
      (∀ user, table.2.store.history user = memory.2.store.history user) ∧
      (∀ status, table.2.store.byStatus status = memory.2.store.byStatus status) ∧
      (∀ r ∈ table.2.store.rows, r.columns.row? = some r) := by
  obtain ⟨now, hc⟩ := Clocked.start onward stamped
  obtain ⟨answers, v, last, hm, ht, hv⟩ := play_tabled p (Ahead.empty fresh) (World.empty_dated now) hc
  intro memory table
  have hmemory : memory = (answers, v) := hm
  have htable : table = (answers, v.tabled) := ht
  rw [hmemory, htable]
  exact ⟨rfl, rfl, hv.latest?_tabled, hv.history_tabled, hv.byStatus_tabled,
    fun r hr => Row.row?_columns (hv.stamped r hr)⟩

/-- Two users come one after the other, the second of them in the same second and in a fraction whose text
is shorter. -/
theorem table_after_two_launches :
    let p : Policy := ⟨{}, ⟨"secret", 600⟩⟩
    let turns : List Turn :=
      [⟨⟨⟨5, 0⟩, 5, "row-1", "ticket-1", .ok ()⟩, .ensure "u" "o" false⟩,
        ⟨⟨⟨5, 123456789⟩, 5, "row-2", "ticket-2", .ok ()⟩, .force "v" "o"⟩,
        ⟨⟨⟨5, 500000000⟩, 5, "row-3", "ticket-3", .ok ()⟩, .connected "v"⟩]
    (play p turns World.empty.tabled).1 = (play p turns .empty).1 ∧
      (play p turns World.empty.tabled).2.store.latest? "v" = (play p turns .empty).2.store.latest? "v" ∧
      ((play p turns .empty).2.store.latest? "v").map Row.status = some .ready := by
  intro p turns
  have h := table_answers_as_memory p turns (by decide) (by decide) (by decide +kernel)
  exact ⟨h.1, h.2.2.1 "v", by decide +kernel⟩

end Fleet.Vm
