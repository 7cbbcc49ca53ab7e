import Fleet.Proofs.Vm.Runs

/-!
The history of a user's rows over a run: only its last row may be live, a row that has become
terminal stays as it is for good, and no operation fails on account of the store.
-/

namespace Fleet.Vm

variable {p : Policy} {s : Surroundings} {w v : World} {user : String} {r : Row} {i : Nat}

namespace World

theorem empty_orderly : empty.Orderly := by
  refine ⟨⟨rfl, rfl, ?_⟩, ?_⟩
  · exact List.nodup_nil
  · exact List.Pairwise.nil

/-- All rows of a user but the last are terminal. -/
theorem Orderly.terminal_of_mem_dropLast (ho : w.Orderly) (user : String) :
    ∀ r ∈ (w.store.history user).dropLast, r.status.isTerminal = true := by
  intro r hr
  have hp : (w.store.history user).Pairwise fun a b => a.userId = b.userId → a.isLive = false := by
    rw [ho.history]
    exact ho.closed.filter _
  have hne : w.store.history user ≠ [] := by
    intro h
    simp [h] at hr
  rw [← List.dropLast_append_getLast hne, List.pairwise_append] at hp
  have huser : ∀ q ∈ w.store.history user, q.userId = user := by
    intro q hq
    rw [ho.history, List.mem_filter] at hq
    simpa [Store.ofUser] using hq.2
  have hdead := hp.2.2 r hr _ (List.mem_singleton.mpr rfl)
    ((huser r ((List.dropLast_sublist _).subset hr)).trans (huser _ (List.getLast_mem hne)).symm)
  simpa [Row.isLive] using hdead

/-- Writing a live row leaves the terminal ones where they are. -/
theorem Orderly.terminal_put (ho : w.Orderly) {q q' : Row} (hl : w.live? user = some q)
    (hid : q'.id = q.id) (hi : w.store.rows[i]? = some r) (ht : r.isLive = false) :
    (w.put q').store.rows[i]? = some r := by
  have hne : r.id ≠ q'.id := by
    intro h
    have heq := ho.eq_of_id (List.mem_of_getElem? hi) (ho.mem_of_live? hl).1 (h.trans hid)
    rw [heq, (latest?_of_live? hl).2] at ht
    cases ht
  simp [hi, hne]

theorem terminal_add (hi : w.store.rows[i]? = some r) (q : Row) :
    (w.add q).store.rows[i]? = some r := by
  rw [add_rows, List.getElem?_append_left (List.getElem?_eq_some_iff.mp hi).1, hi]

end World

open World

/-- The world is orderly, has the ids it had at first, and a terminal row where it was. -/
theorem Effect.orderly (h : Effect p s w v) (ho : w.Orderly) (hf : s.freshId ∉ w.ids) :
    v.Orderly := by
  refine h.leads (I := fun a => a.Orderly ∧ a.ids = w.ids) ⟨ho, rfl⟩ ?_ ?_ fun h => h.1
  · rintro user a b ⟨hoa, hids⟩ hr
    refine ⟨hoa.revision hr, ?_⟩
    obtain ⟨live, h⟩ := hr
    rw [put_ids, hids]
  · rintro user a b ⟨hoa, hids⟩ hb
    exact hoa.bootstrap (hids ▸ hf) hb

theorem Bootstrap.mem_ids (h : Bootstrap p s user w v) {id : String} (hm : id ∈ v.ids) :
    id ∈ w.ids ∨ id = s.freshId := by
  cases h with
  | opened org vacant =>
    change id ∈ (w.add _).ids at hm
    rw [add_ids, List.mem_append, List.mem_singleton] at hm
    simpa [Row.start] using hm
  | reopened live h left =>
    change id ∈ (w.put _).ids at hm
    rw [put_ids] at hm
    exact .inl hm

/-- The ids after an operation are those before it and at most the one it was given. -/
theorem Effect.mem_ids (h : Effect p s w v) {id : String} (hm : id ∈ v.ids) :
    id ∈ w.ids ∨ id = s.freshId := by
  refine h.leads (I := fun a => a.ids = w.ids) (J := fun a => id ∈ a.ids → id ∈ w.ids ∨ id = s.freshId)
    rfl ?_ ?_ ?_ hm
  · rintro user a b hids ⟨live, h⟩
    rw [put_ids, hids]
  · intro user a b hids hb hm
    exact hids ▸ hb.mem_ids hm
  · intro a hids hm
    exact .inl (hids ▸ hm)

theorem Effect.keeps_terminal (h : Effect p s w v) (ho : w.Orderly)
    (hi : w.store.rows[i]? = some r) (ht : r.isLive = false) : v.store.rows[i]? = some r := by
  refine h.leads (I := fun a => a.Orderly ∧ a.store.rows[i]? = some r) ⟨ho, hi⟩ ?_ ?_ fun h => h.2
  · rintro user a b ⟨hoa, hia⟩ hr
    refine ⟨hoa.revision hr, ?_⟩
    obtain ⟨live, h⟩ := hr
    exact hoa.terminal_put live h.id_eq hia ht
  · rintro user a b ⟨hoa, hia⟩ hb
    cases hb with
    | opened org vacant => exact terminal_add hia _
    | reopened live h left => exact hoa.terminal_put live (by simp [Row.retry]) hia ht

/-! ### Runs -/

/-- The turns to come bring ids that are new, to the store and among themselves. -/
structure Ahead (turns : List Turn) (w : World) : Prop where
  orderly : w.Orderly
  unused : ∀ t ∈ turns, t.freshId ∉ w.ids
  distinct : (turns.map Turn.freshId).Nodup

namespace Ahead

variable {t : Turn} {turns early late : List Turn}

theorem effect (ha : Ahead (t :: turns) w) : Effect p t.surroundings w (t.run p w).2 :=
  t.effect ha.orderly (ha.unused t List.mem_cons_self)

theorem step (ha : Ahead (t :: turns) w) : Ahead turns (t.run p w).2 := by
  have hf := ha.unused t List.mem_cons_self
  have hd := List.nodup_cons.mp (List.map_cons ▸ ha.distinct)
  refine ⟨ha.effect.orderly ha.orderly hf, ?_, hd.2⟩
  intro u hu hm
  rcases (ha.effect (p := p)).mem_ids hm with h | h
  · exact ha.unused u (List.mem_cons_of_mem _ hu) h
  · exact hd.1 (List.mem_map.mpr ⟨u, hu, h⟩)

/-- The only errors are refusals of tickets. -/
theorem auth_of_error (ha : Ahead turns w) {e : Error} (he : .error e ∈ (play p turns w).1) :
    ∃ text, e = .auth text := by
  induction turns generalizing w with
  | nil => cases he
  | cons t rest ih =>
    rcases List.mem_cons.mp he with h | h
    · rcases t.operation.work_cases (p := p) ha.orderly (ha.unused t List.mem_cons_self) with
        ⟨a, v, hrun, _⟩ | ⟨text, hrun⟩
      · rw [Turn.run, hrun] at h
        cases h
      · rw [Turn.run, hrun] at h
        exact ⟨text, Except.error.inj h⟩
    · exact ih ha.step h

theorem empty (hd : (turns.map Turn.freshId).Nodup) : Ahead turns World.empty :=
  ⟨empty_orderly, fun _ _ => List.not_mem_nil, hd⟩

end Ahead

namespace Ahead

variable {early late : List Turn}

theorem append (ha : Ahead (early ++ late) w) : Ahead late (play p early w).2 :=
  play_leads (H := Ahead) (fun h => h.step) ha

theorem play_orderly {turns : List Turn} (ha : Ahead turns w) : (play p turns w).2.Orderly :=
  have hend : Ahead [] (play p turns w).2 := append (by simpa using ha)
  hend.orderly

theorem play_keeps_terminal {turns : List Turn} (ha : Ahead turns w)
    (hi : w.store.rows[i]? = some r) (ht : r.isLive = false) :
    (play p turns w).2.store.rows[i]? = some r := by
  suffices h : Ahead [] (play p turns w).2 ∧ (play p turns w).2.store.rows[i]? = some r from h.2
  refine play_leads (H := fun ts a => Ahead ts a ∧ a.store.rows[i]? = some r) ?_
    ⟨by simpa using ha, hi⟩
  rintro t rest a ⟨h, hi⟩
  exact ⟨h.step, h.effect.keeps_terminal h.orderly hi ht⟩

end Ahead

/-- Over any operations of any users, whatever the clocks and the launcher say: all rows of a user
but the last are terminal, terminal rows are never written again, and the store refuses nothing. -/
theorem history_settles (p : Policy) (turns : List Turn) (fresh : (turns.map Turn.freshId).Nodup) :
    (∀ user, ∀ r ∈ ((play p turns .empty).2.store.history user).dropLast,
      r.status.isTerminal = true) ∧
    (∀ early late, turns = early ++ late → ∀ (i : Nat) (r : Row),
      (play p early .empty).2.store.rows[i]? = some r → r.status.isTerminal = true →
      (play p turns .empty).2.store.rows[i]? = some r) ∧
    (∀ text, .error (.store text) ∉ (play p turns .empty).1) := by
  have ha := Ahead.empty fresh
  refine ⟨ha.play_orderly.terminal_of_mem_dropLast, ?_, ?_⟩
  · rintro early late rfl i r hi ht
    rw [play_append]
    exact ha.append.play_keeps_terminal hi (by simp [Row.isLive, ht])
  · intro text hm
    obtain ⟨_, h⟩ := ha.auth_of_error hm
    cases h

/-- A user whose first launch was refused and who then forces another one has two rows, the first of
them terminal. -/
theorem history_after_a_refused_launch :
    let p : Policy := ⟨{}, ⟨"secret", 600⟩⟩
    let turns : List Turn :=
      [⟨⟨⟨0, 0⟩, 0, "row-1", "ticket-1", .error (.transport "refused")⟩, .ensure "u" "o" false⟩,
        ⟨⟨⟨5, 0⟩, 5, "row-2", "ticket-2", .ok ()⟩, .force "u" "o"⟩]
    (turns.map Turn.freshId).Nodup ∧
    ((play p turns .empty).2.store.history "u").map Row.status = [.failed, .starting] ∧
    (∀ r ∈ ((play p turns .empty).2.store.history "u").dropLast, r.status.isTerminal = true) ∧
    (∀ text, .error (.store text) ∉ (play p turns .empty).1) := by
  intro p turns
  have h := history_settles p turns (by decide)
  exact ⟨by decide, by decide +kernel, h.1 "u", h.2.2⟩

end Fleet.Vm
