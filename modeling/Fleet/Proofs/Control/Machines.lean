import Fleet.Proofs.Control.Lines
import Fleet.Proofs.Vm.Lone

/-!
What turns do to the rows of machines. A turn runs at most one operation on them, with the clocks and
the new row's id that it finds; so whatever operations keep is kept along every run.
-/

namespace Fleet.Control

variable {h g : Hub} {m : Moment}

/-- At most one operation is run on the rows. -/
def Hub.Runs (m : Moment) (h g : Hub) : Prop :=
  g.machines = h.machines ∨ ∃ op, g.machines = (Vm.Turn.run h.policy ⟨m.vm, op⟩ h.machines).2

theorem Hub.Runs.refl (h : Hub) : h.Runs m h := .inl rfl

/-- An operation, whatever is made of its answer. -/
theorem Hub.runs_perform {α : Type} {work : Vm.Work α} (op : Vm.Operation) (f : α → Vm.Answer)
    (hop : op.work h.policy m.vm = (do return f (← work))) : h.Runs m (h.perform work).2 := by
  refine .inr ⟨op, ?_⟩
  rw [Vm.Turn.run, hop]
  exact (Vm.Work.bind_pure_world work f h.machines).symm

/-! ### Errands -/

namespace Errand

variable {e : Errand} {stage stage' : Stage}

theorem machines_conclude (e : Errand) (o : Except Error Json) (h : Hub) :
    (e.conclude o h).2.machines = h.machines := by
  unfold conclude
  split <;> rfl

theorem machines_call (e : Errand) (m : Moment) (method : String) (params : Json)
    (waiting : Nat → Stage) (h : Hub) : (e.call m method params waiting h).2.machines = h.machines := by
  rcases e.call_cases m method params waiting h with ⟨q, c, he, _⟩ | ⟨err, he⟩ <;> rw [he]
  exact e.machines_conclude _ h

theorem machines_dispatch (e : Errand) (m : Moment) (r : ChatRequest) (h : Hub) :
    (e.dispatch m r h).2.machines = h.machines := by
  have start (connection : String) : (e.startSession m r connection h).2.machines = h.machines :=
    e.machines_call m _ _ _ (h.pruneRoutes e.userId connection)
  unfold dispatch
  split
  · rfl
  · split
    · exact start _
    · split
      · rfl
      · split
        · exact start _
        · exact e.machines_call _ _ _ _ _

theorem machines_begin (e : Errand) (m : Moment) (h : Hub) :
    (e.begin m h).2.machines = h.machines := by
  have refer (method : String) : (e.refer m method h).2.machines = h.machines := by
    unfold refer
    split
    · exact e.machines_call _ _ _ _ _
    · rfl
  unfold begin
  split
  · split <;> rfl
  · exact refer _
  · exact refer _

theorem runs_next (hn : e.next m h stage = some (stage', g)) : h.Runs m g := by
  have same {x : Stage × Hub} (hx : some x = some (stage', g)) (he : x.2.machines = h.machines) :
      h.Runs m g := by
    rw [Option.some.injEq] at hx
    rw [hx] at he
    exact .inl he
  cases stage with
  | ensuring connected =>
    cases ha : e.ask with
    | message org request =>
      have hruns : h.Runs m (h.perform (h.policy.ensure m.vm e.userId org connected)).2 :=
        Hub.runs_perform (.ensure e.userId org connected) .outcome rfl
      have after {x : Stage × Hub} (hx : some x = some (stage', g)) (he : x.2.machines =
          (h.perform (h.policy.ensure m.vm e.userId org connected)).2.machines) : h.Runs m g := by
        rw [Option.some.injEq] at hx
        rw [hx] at he
        unfold Hub.Runs
        rw [he]
        exact hruns
      simp only [next, ha] at hn
      split at hn
      · exact after hn rfl
      · exact after hn (e.machines_dispatch _ _ _)
    | _ => simp [next, ha] at hn
  | starting q connection =>
    unfold next at hn
    dsimp only at hn
    split at hn
    · exact same hn rfl
    · exact same hn (e.machines_call _ _ _ _ _)
    · cases hn
  | calling q =>
    obtain ⟨o, _, ho⟩ := Option.map_eq_some_iff.mp hn
    exact same (congrArg some ho) (e.machines_conclude o h)
  | ended o => cases hn

end Errand

/-! ### Sockets -/

namespace Socket

variable {s s' : Socket} {j : Nat}

theorem machines_push (h : Hub) (j : Nat) (f : Frame) : (push h j f).machines = h.machines := by
  unfold push
  split <;> rfl

theorem runs_authenticate (h : Hub) (m : Moment) (c : Credentials) :
    h.Runs m (h.authenticate m c).2 := by
  unfold Hub.authenticate
  split
  · exact .refl h
  · dsimp only
    split
    · exact .refl h
    · exact Hub.runs_perform (.consume c.userId c.connectTicket) .row rfl

theorem runs_enrol (s : Socket) (m : Moment) (c : Credentials) (h : Hub) :
    h.Runs m (s.enrol m c h).2 := by
  have hruns := runs_authenticate h m c
  unfold enrol
  split <;> (rename_i hg; rw [hg] at hruns; exact hruns)

theorem runs_greet (s : Socket) (m : Moment) (j : Nat) (c : Connection) (h : Hub) :
    h.Runs m (s.greet m j c h).2 := by
  have hruns : h.Runs m (h.perform (Vm.Work.markConnected m.vm.now c.userId)).2 :=
    Hub.runs_perform (.connected c.userId) .last rfl
  unfold greet Hub.Runs
  dsimp only
  rw [machines_push]
  exact hruns

theorem runs_handle (m : Moment) (j : Nat) (user : String) (h : Hub) (f : Frame) :
    h.Runs m (handle m j user h f) := by
  cases f with
  | heartbeat ts => exact Hub.runs_perform (.heartbeat user) (fun _ => .done) rfl
  | request call => exact .inl (machines_push _ _ _)
  | resume ids => exact .inl (machines_push _ _ _)
  | fireAndForget method payload =>
    simp only [handle]
    split <;> exact .inl rfl
  | sessionEvent session event data =>
    simp only [handle]
    split <;> exact .inl rfl
  | _ => exact .inl rfl

theorem runs_attend {deadline : Nat} {c : Connection} (hn : s.attend m j deadline c h = some (s', g)) :
    h.Runs m g := by
  unfold attend at hn
  split at hn
  · cases hn
    exact .inl rfl
  · split at hn
    · rw [Option.some.injEq] at hn
      unfold hear at hn
      split at hn
      · cases hn
        exact .refl h
      · cases hn
        exact runs_handle _ _ _ _ _
    · cases hn
      exact .refl h
    · cases hn
      exact .inl rfl
    · cases hn
      exact .inl rfl
    · split at hn
      · cases hn
        exact .inl rfl
      · cases hn

theorem runs_next (hn : s.next m h = some (s', g)) : h.Runs m g := by
  unfold next at hn
  split at hn
  · split at hn
    all_goals try (cases hn; exact .refl h)
    split at hn
    · cases hn
      exact .refl h
    · cases hn
  · rw [Option.some.injEq] at hn
    have := s.runs_enrol m ‹_› h
    rwa [hn] at this
  · obtain ⟨c, _, hn⟩ := Option.map_eq_some_iff.mp hn
    have := s.runs_greet m ‹_› c h
    rwa [hn] at this
  · obtain ⟨c, _, hn⟩ := Option.bind_eq_some_iff.mp hn
    exact runs_attend hn
  · obtain ⟨c, _, hn⟩ := Option.bind_eq_some_iff.mp hn
    split at hn
    · cases hn
      split
      · exact Hub.runs_perform (.disconnected c.userId) .last rfl
      · exact .refl h
    · cases hn
  · cases hn

theorem machines_write (hw : s.write h = some (s', g)) : g.machines = h.machines := by
  unfold write at hw
  split at hw
  · cases hw
  · obtain ⟨j, _, hw⟩ := Option.bind_eq_some_iff.mp hw
    obtain ⟨c, _, hw⟩ := Option.bind_eq_some_iff.mp hw
    split at hw
    · cases hw
      rfl
    · split at hw
      · cases hw
        rfl
      · cases hw

end Socket

/-! ### Planes -/

namespace Plane

variable {p q : Plane} {t : Turn} {n : Nat}

theorem machines_settle (v : Visit) (h : Hub) : (settle v h).machines = h.machines := by
  unfold settle
  split <;> rfl

theorem machines_moveFeed (hm : p.moveFeed n = some q) : q.hub.machines = p.hub.machines := by
  obtain ⟨v, _, hm⟩ := Option.bind_eq_some_iff.mp hm
  obtain ⟨id, _, hm⟩ := Option.bind_eq_some_iff.mp hm
  have read {x : Feed.Notice} {g : Hub} (hr : p.hub.readFeed id = some (x, g)) :
      g.machines = p.hub.machines := by
    obtain ⟨c, _, hr⟩ := Option.bind_eq_some_iff.mp hr
    obtain ⟨y, _, hy⟩ := Option.map_eq_some_iff.mp hr
    cases hy
    rfl
  split at hm
  · split at hm
    · rename_i hr
      have hread := read hr
      split at hm <;> (cases hm; exact hread)
    · split at hm
      · cases hm
        rfl
      · cases hm
  · cases hm

theorem machines_abandon (p : Plane) (n : Nat) : (p.abandon n).hub.machines = p.hub.machines := by
  unfold abandon
  split
  · rfl
  · rename_i v _
    split
    · cases v.stage.call? <;> cases v.feed <;> rfl
    · rfl

theorem machines_visit (p : Plane) (m : Moment) (e : Errand) :
    (p.visit m e).hub.machines = p.hub.machines := by
  unfold visit
  dsimp only
  rw [machines_settle, e.machines_begin]
  split <;> rfl

theorem runs_move (x : Move) (hm : p.move m x = some q) : p.hub.Runs m q.hub := by
  cases x with
  | socket k =>
    obtain ⟨s, _, hm⟩ := Option.bind_eq_some_iff.mp hm
    obtain ⟨⟨s', g⟩, hn, rfl⟩ := Option.map_eq_some_iff.mp hm
    exact Socket.runs_next hn
  | write k =>
    obtain ⟨s, _, hm⟩ := Option.bind_eq_some_iff.mp hm
    obtain ⟨⟨s', g⟩, hw, rfl⟩ := Option.map_eq_some_iff.mp hm
    exact .inl (Socket.machines_write hw)
  | errand n =>
    obtain ⟨v, _, hm⟩ := Option.bind_eq_some_iff.mp hm
    split at hm
    · obtain ⟨⟨stage, hub⟩, hn, rfl⟩ := Option.map_eq_some_iff.mp hm
      have hruns := Errand.runs_next hn
      unfold Hub.Runs
      dsimp only [setVisit]
      rw [machines_settle]
      exact hruns
    · cases hm
  | feed n => exact .inl (machines_moveFeed hm)
  | expire c =>
    simp only [move] at hm
    split at hm
    · cases hm
      exact .refl _
    · cases hm

theorem runs_take (p : Plane) (t : Turn) : p.hub.Runs t.moment (p.take t).hub := by
  unfold take
  split
  · rename_i x _
    cases hm : p.move t.moment x with
    | none => exact .refl _
    | some q => exact runs_move x hm
  · exact .refl _
  · exact .refl _
  · exact .inl (machines_visit p _ _)
  · exact .inl (machines_abandon p _)
  · exact Hub.runs_perform (.force _ _) .outcome rfl
  · rename_i timeoutMs _
    unfold Hub.sweep
    split
    · rename_i cutoff hcut
      have hop : (Vm.Operation.sweep timeoutMs).work p.hub.policy t.moment.vm =
          (do return .count (← Vm.Work.sweep t.moment.vm.now cutoff)) := by
        simp only [Vm.Operation.work, hcut]
      exact Hub.runs_perform _ _ hop
    · exact .refl _

/-- Rows are well kept, no user has two live ones, and the turns to come bring new ids for rows. -/
structure Stocked (turns : List Turn) (p : Plane) : Prop where
  lone : p.hub.machines.Lone
  unused : ∀ t ∈ turns, t.moment.vm.freshId ∉ p.hub.machines.ids
  fresh : (turns.map fun t => t.moment.vm.freshId).Nodup

namespace Stocked

variable {turns early late : List Turn}

theorem unusedId (h : Stocked (t :: turns) p) (op : Vm.Operation) :
    (⟨t.moment.vm, op⟩ : Vm.Turn).freshId ∉ p.hub.machines.ids := h.unused t List.mem_cons_self

theorem step (h : Stocked (t :: turns) p) : Stocked turns (p.take t) := by
  have fresh := h.fresh
  rw [List.map_cons, List.nodup_cons] at fresh
  have later (u : Turn) (hu : u ∈ turns) : u.moment.vm.freshId ≠ t.moment.vm.freshId :=
    fun he => fresh.1 (List.mem_map.mpr ⟨u, hu, he⟩)
  rcases runs_take p t with he | ⟨op, he⟩
  · refine ⟨he ▸ h.lone, fun u hu => ?_, fresh.2⟩
    rw [he]
    exact h.unused u (List.mem_cons_of_mem _ hu)
  · refine ⟨he ▸ h.lone.run (h.unusedId op), fun u hu hm => ?_, fresh.2⟩
    rw [he] at hm
    rcases Vm.Turn.mem_ids h.lone.distinct (h.unusedId op) hm with hm | hm
    · exact h.unused u (List.mem_cons_of_mem _ hu) hm
    · exact later u hu hm

theorem append (h : Stocked (early ++ late) p) : Stocked late (play early p) := by
  induction early generalizing p with
  | nil => exact h
  | cons t rest ih => exact ih h.step

end Stocked

/-- Along a run on a store that starts empty, no user ever has two live rows. -/
theorem lone_play {turns : List Turn} (hp : p.hub.machines.Lone)
    (unused : ∀ t ∈ turns, t.moment.vm.freshId ∉ p.hub.machines.ids)
    (fresh : (turns.map fun t => t.moment.vm.freshId).Nodup) : (play turns p).hub.machines.Lone := by
  have h : Stocked (turns ++ []) p := by
    rw [List.append_nil]
    exact ⟨hp, unused, fresh⟩
  exact h.append.lone

end Plane

end Fleet.Control
