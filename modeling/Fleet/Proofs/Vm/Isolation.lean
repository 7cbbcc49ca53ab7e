import Fleet.Proofs.Vm.Lone
import Fleet.Proofs.Vm.Mirrors
import Fleet.Proofs.Vm.Tickets

/-!
Users do not see each other, on either kind of store. What there is of one user, the rows and the launches,
answers this user's operations as the whole does; operations of others leave it as it is, and a sweep does to
it what it does to the whole.
-/

namespace Fleet.Vm

/-! ### Sorting and leaving out -/

section Sorting

variable {α : Type} {le : α → α → Bool} (trans : ∀ a b c, le a b = true → le b c = true → le a c = true)
  (total : ∀ a b, (le a b || le b a) = true)

include trans total

/-- A sorted list falls into what is less than an element and the rest, and the element goes in between. -/
theorem mergeSort_split (a : α) (l : List α) :
    let less := (l.mergeSort le).filter fun b => !le a b
    let rest := (l.mergeSort le).filter (le a)
    l.mergeSort le = less ++ rest ∧ (a :: l).mergeSort le = less ++ a :: rest := by
  obtain ⟨before, after, hcons, hl, hbefore⟩ := List.mergeSort_cons trans total a l
  have hsorted := List.pairwise_mergeSort trans total (a :: l)
  rw [hcons, List.pairwise_append, List.pairwise_cons] at hsorted
  have hafter : ∀ b ∈ after, le a b = true := hsorted.2.1.1
  have hskip : before.filter (le a) = [] :=
    List.filter_eq_nil_iff.mpr fun b hb => by simpa using hbefore b hb
  have hrest : (after.filter fun b => !le a b) = [] :=
    List.filter_eq_nil_iff.mpr fun b hb => by simp [hafter b hb]
  rw [hcons, hl, List.filter_append, List.filter_append, List.filter_eq_self.mpr hbefore,
    List.filter_eq_self.mpr hafter, hskip, hrest, List.append_nil, List.nil_append]
  exact ⟨rfl, rfl⟩

/-- Sorting keeps the order of equals, so that it makes no difference whether some are left out before or
after. -/
theorem filter_mergeSort (keep : α → Bool) (l : List α) :
    (l.mergeSort le).filter keep = (l.filter keep).mergeSort le := by
  induction l with
  | nil => simp
  | cons a l ih =>
    have hcomm (q : α → Bool) : ((l.mergeSort le).filter q).filter keep =
        ((l.filter keep).mergeSort le).filter q := by rw [← ih, List.filter_comm]
    obtain ⟨-, hcons⟩ := mergeSort_split trans total a l
    obtain ⟨hkept, hcons'⟩ := mergeSort_split trans total a (l.filter keep)
    rw [hcons, List.filter_append, hcomm]
    by_cases h : keep a = true
    · rw [List.filter_cons_of_pos h, List.filter_cons_of_pos h, hcomm, hcons']
    · rw [List.filter_cons_of_neg h, List.filter_cons_of_neg h, hcomm, ← hkept]

/-- What no element comes after goes last. -/
theorem mergeSort_concat {a : α} {l : List α} (h : ∀ b ∈ l, le b a = true) :
    (l ++ [a]).mergeSort le = l.mergeSort le ++ [a] := by
  induction l with
  | nil => simp
  | cons b l ih =>
    obtain ⟨-, hcons⟩ := mergeSort_split trans total b l
    obtain ⟨-, hcons'⟩ := mergeSort_split trans total b (l ++ [a])
    have hb := h b List.mem_cons_self
    rw [List.cons_append, hcons', hcons, ih fun c hc => h c (List.mem_cons_of_mem b hc)]
    simp [List.filter_append, hb]

end Sorting

namespace Store

theorem notAfter_trans (a b c : Row) (hab : notAfter a b = true) (hbc : notAfter b c = true) :
    notAfter a c = true := by
  simp only [notAfter, decide_eq_true_eq] at *
  exact String.le_trans hab hbc

theorem notAfter_total (a b : Row) : (notAfter a b || notAfter b a) = true := by
  simp only [notAfter, Bool.or_eq_true, decide_eq_true_eq]
  exact String.le_total _ _

end Store

/-! ### What there is of one user -/

namespace World

/-- The rows and the launches of one user. -/
def only (w : World) (user : String) : World :=
  { w with
    store := { w.store with rows := w.store.rows.filter (Store.ofUser user) }
    launches := w.cycles user }

variable {w v : World} {user : String} {r r' : Row} {s : Surroundings}

theorem mem_only : r ∈ (w.only user).store.rows ↔ r ∈ w.store.rows ∧ r.userId = user := by
  simp [only, Store.ofUser]

theorem ids_only : (w.only user).ids.Sublist w.ids := List.filter_sublist.map _

theorem listing_only (w : World) (user : String) :
    (w.only user).store.listing = w.store.listing.filter (Store.ofUser user) := by
  unfold Store.listing only
  cases w.store.keeping with
  | arrival => rfl
  | table => exact (filter_mergeSort Store.notAfter_trans Store.notAfter_total _ _).symm

theorem history_only (w : World) (user : String) :
    (w.only user).store.history user = w.store.history user := by
  rw [Store.history, listing_only, List.filter_filter, Store.history]
  simp

theorem latest?_only (w : World) (user : String) :
    (w.only user).store.latest? user = w.store.latest? user := by
  rw [Store.latest?, history_only, Store.latest?]

theorem hasLive_only (w : World) (user : String) :
    Store.hasLive (w.only user).store.rows user = Store.hasLive w.store.rows user := by
  simp [Store.hasLive, only, List.any_filter]

theorem only_launching (w : World) (l : Launch) (user : String) : (w.launching l).only user =
    if l.userId = user then (w.only user).launching l else w.only user := by
  by_cases h : l.userId = user <;> simp [only, launching, cycles, List.filter_append, h]

theorem only_add (w : World) (r : Row) (user : String) : (w.add r).only user =
    if r.userId = user then (w.only user).add r else w.only user := by
  by_cases h : r.userId = user <;> simp [only, add, cycles, List.filter_append, Store.ofUser, h]

/-- A row that keeps its id and its user is written among that user's rows. -/
theorem only_put (hn : w.ids.Nodup) (hr : r ∈ w.store.rows) (hid : r'.id = r.id) (hu : r'.userId = r.userId)
    (user : String) : (w.put r').only user = (w.only user).put r' := by
  have hrows : (w.put r').store.rows.filter (Store.ofUser user) =
      ((w.only user).put r').store.rows := by
    rw [put_rows, List.filter_map]
    refine congrArg _ (List.filter_congr fun q hq => ?_)
    simp only [Function.comp_apply, Store.ofUser]
    split
    · rename_i h
      rw [eq_of_id hn hq hr (h.trans hid), hu]
    · rfl
  simp only [only, put, cycles] at hrows ⊢
  rw [hrows]

/-- A row of another user is not among them. -/
theorem only_put_ne (hn : w.ids.Nodup) (hr : r ∈ w.store.rows) (hid : r'.id = r.id)
    (hu : r'.userId = r.userId) (hne : r.userId ≠ user) : (w.put r').only user = w.only user := by
  rw [only_put hn hr hid hu]
  have habsent : r'.id ∉ (w.only user).ids := by
    intro h
    obtain ⟨q, hq, he⟩ := List.mem_map.mp h
    obtain ⟨hq, hqu⟩ := mem_only.mp hq
    rw [eq_of_id hn hq hr (he.trans hid)] at hqu
    exact hne hqu
  have hsame := map_of_fresh habsent
  simp only [put, hsame]

end World

/-! ### One turn -/

namespace World

variable {w : World} {user : String}

theorem Lone.only (hw : w.Lone) (user : String) : (w.only user).Lone :=
  ⟨ids_only.nodup hw.distinct, hw.faultless, fun a ha b hb =>
    hw.alone a (mem_only.mp ha).1 b (mem_only.mp hb).1⟩

/-- What there is of the user answers the user's accesses as the whole does. -/
theorem mirror_only (s : Surroundings) (user : String) : Mirror s user (·.only user) World.Lone where
  distinct hw := hw.distinct
  read {w} hw := by
    refine ⟨_, w, hw.read user, ?_, hw⟩
    change Work.latest? user (w.only user) = (.ok (w.store.latest? user), w.only user)
    rw [(hw.only user).read, latest?_only]
  record {w} hw l hl := by
    refine ⟨.ok (), w.launching l, rfl, ?_, hw.launching l⟩
    simp only [only_launching, hl, ↓reduceIte]
    rfl
  update {w} hw {r r'} hr hl hu h := by
    refine ⟨_, _, hw.update hr hl h.id_eq h.userId_eq h.createdAt_eq, ?_, hw.put hr hl h.id_eq h.userId_eq⟩
    change Work.update r' (w.only user) = (.ok (), (w.put r').only user)
    rw [only_put hw.distinct hr h.id_eq h.userId_eq]
    exact (hw.only user).update (mem_only.mpr ⟨hr, hu⟩) hl h.id_eq h.userId_eq h.createdAt_eq
  insert {w} hw hf org := by
    have hins := hw.insert (r := Row.start s.freshId user org s.freshTicket s.now) hf rfl
    have hins' := (hw.only user).insert (r := Row.start s.freshId user org s.freshTicket s.now)
      (fun h => hf (ids_only.subset h)) rfl
    have hsame : Store.hasLive (w.only user).store.rows
        (Row.start s.freshId user org s.freshTicket s.now).userId = Store.hasLive w.store.rows user :=
      hasLive_only w user
    rw [hsame] at hins'
    change _ = if Store.hasLive w.store.rows user then _ else _ at hins
    cases hl : Store.hasLive w.store.rows user <;> rw [hl] at hins hins'
    · refine ⟨_, _, hins, ?_, hw.add hf hl⟩
      simp only [only_add, Row.start, ↓reduceIte]
      exact hins'
    · exact ⟨_, _, hins, hins', hw⟩

/-- Accesses for another user leave what there is of this one. -/
theorem mirror_others (s : Surroundings) {other : String} (hne : other ≠ user) (part : World) :
    Mirror s other id fun v => v.Lone ∧ v.only user = part where
  distinct hw := hw.1.distinct
  read {w} hw := ⟨_, w, hw.1.read other, hw.1.read other, hw⟩
  record {w} hw l hl := by
    refine ⟨.ok (), w.launching l, rfl, rfl, hw.1.launching l, ?_⟩
    rw [only_launching, if_neg (hl ▸ hne), hw.2]
  update {w} hw {r r'} hr hl hu h := by
    have hup := hw.1.update hr hl h.id_eq h.userId_eq h.createdAt_eq
    refine ⟨_, _, hup, hup, hw.1.put hr hl h.id_eq h.userId_eq, ?_⟩
    rw [only_put_ne hw.1.distinct hr h.id_eq h.userId_eq (hu ▸ hne), hw.2]
  insert {w} hw hf org := by
    have hins := hw.1.insert (r := Row.start s.freshId other org s.freshTicket s.now) hf rfl
    change _ = if Store.hasLive w.store.rows other then _ else _ at hins
    cases hl : Store.hasLive w.store.rows other <;> rw [hl] at hins
    · refine ⟨_, _, hins, hins, hw.1.add hf hl, ?_⟩
      rw [only_add, if_neg (show (Row.start s.freshId other org s.freshTicket s.now).userId ≠ user from hne),
        hw.2]
    · exact ⟨_, _, hins, hins, hw⟩

end World

namespace Work

variable {w : World} {user : String} {now : Instant}

/-- Among rows of which no two of a user are live, a stale one is demoted or left, but no access is refused. -/
theorem demoteStale_ok (hw : w.Lone) (now : Instant) (candidate : Row) :
    ∃ b v, demoteStale now candidate w = (.ok b, v) := by
  have hread : live? candidate.userId w = (.ok (w.live? candidate.userId), w) :=
    bind_of_ok (hw.read candidate.userId)
  rw [demoteStale, bind_of_ok hread]
  cases hl : w.live? candidate.userId with
  | none => exact ⟨false, w, rfl⟩
  | some r =>
    obtain ⟨hr, hlive⟩ := World.mem_of_live? hl
    dsimp only
    split
    · have hup : update (r.disconnect now) w = (.ok (), w.put (r.disconnect now)) :=
        hw.update hr hlive rfl rfl rfl
      exact ⟨true, _, bind_of_ok hup⟩
    · exact ⟨false, w, rfl⟩

/-- Of the candidates of a sweep only the user's own matter to what there is of the user. -/
theorem demoteAll_only (hw : w.Lone) (s : Surroundings) (user : String) (rows : List Row) (n m : Nat) :
    (demoteAll s.now (rows.filter (Store.ofUser user)) m (w.only user)).2 =
      (demoteAll s.now rows n w).2.only user := by
  induction rows generalizing w n m with
  | nil => rfl
  | cons c rest ih =>
    obtain ⟨b, v, hrun⟩ := demoteStale_ok hw s.now c
    rw [demoteAll, bind_of_ok hrun]
    by_cases hc : c.userId = user
    · subst hc
      obtain ⟨a, u, hsame, hsame', hu⟩ := (World.mirror_only s c.userId).demoteStale hw
      obtain ⟨rfl, rfl⟩ := Prod.mk.inj (hrun.symm.trans hsame)
      rw [List.filter_cons_of_pos (by simp [Store.ofUser]), demoteAll, bind_of_ok hsame']
      exact ih hu _ _
    · obtain ⟨a, u, hsame, -, hu, hpart⟩ :=
        (World.mirror_others s hc (w.only user)).demoteStale ⟨hw, rfl⟩
      obtain ⟨rfl, rfl⟩ := Prod.mk.inj (hrun.symm.trans hsame)
      rw [List.filter_cons_of_neg (by simp [Store.ofUser, hc]), ← hpart]
      exact ih hu _ _

theorem staleRows_eq (hw : w.Lone) (cutoff : Instant) : staleRows cutoff w =
    (.ok ((w.store.byStatus .ready).filter fun r => decide (r.lastSeen < cutoff)), w) := by
  have hread : byStatus .ready w = (.ok (w.store.byStatus .ready), w) := by
    rw [byStatus, access_apply hw.faultless]
  exact bind_of_ok hread

theorem sweep_only (hw : w.Lone) (s : Surroundings) (user : String) (cutoff : Instant) :
    (sweep s.now cutoff (w.only user)).2 = (sweep s.now cutoff w).2.only user := by
  have hstale : (((w.only user).store.byStatus .ready).filter fun r => decide (r.lastSeen < cutoff)) =
      ((w.store.byStatus .ready).filter fun r => decide (r.lastSeen < cutoff)).filter
        (Store.ofUser user) := by
    simp only [Store.byStatus, World.listing_only, List.filter_filter]
    exact List.filter_congr fun _ _ => by ac_rfl
  rw [sweep, bind_of_ok (staleRows_eq (hw.only user) cutoff), hstale, bind_of_ok (staleRows_eq hw cutoff)]
  exact demoteAll_only hw s user _ 0 0

end Work

/-- Whether the operation is the user's own. -/
def Turn.isOf (user : String) (t : Turn) : Bool := t.operation.user? == some user

/-- Whether a run with one user alone has the turn: it is the user's own, or a sweep. -/
def Turn.concerns (user : String) (t : Turn) : Bool := t.isOf user || t.operation.user? == none

namespace Turn

open World

variable {p : Policy} {t : Turn} {w : World} {user : String}

/-- The user's own operations find in what there is of the user all that they look at. -/
theorem run_only (hw : w.Lone) (hf : t.freshId ∉ w.ids) (ht : t.isOf user = true) :
    t.run p (w.only user) = ((t.run p w).1, (t.run p w).2.only user) := by
  obtain ⟨a, v, hrun, hrun', -⟩ := (mirror_only t.surroundings user).work (p := p) hw hf (eq_of_beq ht)
  change t.operation.work p t.surroundings (w.only user) = _
  rw [run, hrun]
  exact hrun'

/-- What is no concern of a user leaves what there is of the user. -/
theorem only_run (hw : w.Lone) (hf : t.freshId ∉ w.ids) (ht : t.concerns user = false) :
    (t.run p w).2.only user = w.only user := by
  obtain ⟨other, ho⟩ : ∃ other, t.operation.user? = some other := by
    cases ho : t.operation.user? with
    | none => simp [concerns, ho] at ht
    | some other => exact ⟨other, rfl⟩
  have hne : other ≠ user := by
    rintro rfl
    simp [concerns, isOf, ho] at ht
  obtain ⟨a, v, hrun, -, -, hpart⟩ :=
    (mirror_others t.surroundings hne (w.only user)).work (p := p) ⟨hw, rfl⟩ hf ho
  rw [run, hrun]
  exact hpart

theorem sweep_only (hw : w.Lone) (ht : t.operation.user? = none) :
    (t.run p (w.only user)).2 = (t.run p w).2.only user := by
  obtain ⟨timeoutMs, hop⟩ : ∃ timeoutMs, t.operation = .sweep timeoutMs := by
    cases hop : t.operation <;> rw [hop] at ht <;> cases ht
    exact ⟨_, rfl⟩
  unfold run Operation.work
  rw [hop]
  cases hcut : Work.cutoff? t.surroundings.now timeoutMs with
  | none =>
    simp only [hcut]
    rfl
  | some cutoff =>
    simp only [hcut]
    rw [Work.bind_pure_world, Work.bind_pure_world]
    exact Work.sweep_only hw t.surroundings user cutoff

end Turn

/-! ### Runs -/

/-- The answers that were given to the user's own operations. -/
def answersTo (user : String) (turns : List Turn) (answers : List (Except Error Answer)) :
    List (Except Error Answer) :=
  ((turns.zip answers).filter fun x => x.1.isOf user).map Prod.snd

theorem answersTo_cons (user : String) (t : Turn) (turns : List Turn) (a : Except Error Answer)
    (answers : List (Except Error Answer)) : answersTo user (t :: turns) (a :: answers) =
      if t.isOf user then a :: answersTo user turns answers else answersTo user turns answers := by
  by_cases h : t.isOf user = true <;> simp [answersTo, h]

/-- Turn by turn, what there is of a user goes through the turns that concern the user. -/
theorem play_only (p : Policy) (user : String) {turns : List Turn} {w : World} (hw : w.Lone)
    (h : Apart turns w) :
    (play p (turns.filter (Turn.concerns user)) (w.only user)).2 = (play p turns w).2.only user ∧
      answersTo user (turns.filter (Turn.concerns user))
        (play p (turns.filter (Turn.concerns user)) (w.only user)).1 =
          answersTo user turns (play p turns w).1 := by
  induction turns generalizing w with
  | nil => exact ⟨rfl, rfl⟩
  | cons t rest ih =>
    have hf := h.unusedId
    obtain ⟨hworld, hanswers⟩ := ih (hw.run hf) h.step
    by_cases hc : t.concerns user = true
    · rw [List.filter_cons_of_pos hc]
      have hrun : (t.run p (w.only user)).2 = (t.run p w).2.only user := by
        by_cases hown : t.isOf user = true
        · rw [Turn.run_only hw hf hown]
        · exact Turn.sweep_only hw (by simpa [Turn.concerns, hown] using hc)
      simp only [play, hrun, answersTo_cons]
      refine ⟨hworld, ?_⟩
      by_cases hown : t.isOf user = true
      · rw [if_pos hown, if_pos hown, Turn.run_only hw hf hown, hanswers]
      · rw [if_neg hown, if_neg hown, hanswers]
    · rw [List.filter_cons_of_neg hc]
      have hown : ¬ t.isOf user = true := fun h => hc (by simp [Turn.concerns, h])
      rw [Turn.only_run hw hf (Bool.eq_false_iff.mpr hc)] at hworld hanswers
      simp only [play, answersTo_cons, if_neg hown]
      exact ⟨hworld, hanswers⟩

/-- Over any operations of any users, on either kind of store and whatever the clocks and the launcher say:
a user's operations are answered, and the user's rows and launches become, what they are in the run that has
only this user's operations and the sweeps. -/
theorem users_are_isolated (p : Policy) (keeping : Keeping) (turns : List Turn)
    (fresh : (turns.map Turn.freshId).Nodup) (user : String) :
    let kept := turns.filter (Turn.concerns user)
    let together := play p turns (.vacant keeping [])
    let alone := play p kept (.vacant keeping [])
    answersTo user kept alone.1 = answersTo user turns together.1 ∧
      alone.2.store.rows = together.2.store.rows.filter (Store.ofUser user) ∧
      alone.2.store.history user = together.2.store.history user ∧
      alone.2.launches = together.2.cycles user := by
  intro kept together alone
  obtain ⟨hworld, hanswers⟩ := play_only p user (World.Lone.vacant keeping) (.vacant fresh)
  have halone : alone.2 = together.2.only user := hworld
  refine ⟨hanswers, ?_, ?_, ?_⟩ <;> rw [halone]
  · rfl
  · exact World.history_only _ user
  · rfl

/-- Two users come up one after the other and a sweep finds both of them stale; one of them goes on, and the
other one's row is as it would have been alone. -/
theorem isolation_across_a_sweep :
    let p : Policy := ⟨{}, ⟨"secret", 600⟩⟩
    let turn (n : Int) (op : Operation) : Turn :=
      ⟨⟨⟨n, 0⟩, 0, s!"row-{n}", s!"ticket-{n}", .ok ()⟩, op⟩
    let turns := [turn 0 (.ensure "v" "o" false), turn 1 (.ensure "u" "o" false), turn 2 (.connected "v"),
      turn 3 (.connected "u"), turn 90 (.sweep 30000), turn 91 (.force "v" "o")]
    let kept := turns.filter (Turn.concerns "u")
    let run (turns : List Turn) := play p turns (.vacant .arrival [])
    (turns.map Turn.freshId).Nodup ∧ kept.length = 3 ∧ (run turns).2.launches.length = 3 ∧
      answersTo "u" kept (run kept).1 = answersTo "u" turns (run turns).1 ∧
      (run kept).2.store.history "u" = (run turns).2.store.history "u" ∧
      (run kept).2.store.rows.map (fun r => (r.id, r.status)) = [("row-1", .disconnected)] ∧
      (run kept).2.launches = (run turns).2.cycles "u" := by
  intro p turn turns kept run
  have hfresh : (turns.map Turn.freshId).Nodup := by decide +kernel
  obtain ⟨hanswers, -, hhistory, hlaunches⟩ := users_are_isolated p .arrival turns hfresh "u"
  exact ⟨hfresh, by decide +kernel, by decide +kernel, hanswers, hhistory, by decide +kernel, hlaunches⟩

end Fleet.Vm
