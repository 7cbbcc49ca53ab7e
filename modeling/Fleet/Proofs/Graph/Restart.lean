import Fleet.Proofs.Graph.Contents
import Fleet.Proofs.Graph.Story

/-!
A session that starts anew where another one ran. It takes up the state that the other one had after its last
run, as long as no number of a checkpoint has started over.
-/

namespace Fleet.Graph

open Course (Written play take)

/-- The checkpoints that were written, oldest first. -/
def checkpoints (log : List Note) : List Checkpoint :=
  log.filterMap fun
    | .wrote _ (.ok c) => some c
    | _ => none

variable {s t : Session} {d e : Disk} {workspace : Path} {x : Step} {sent : List Sent} {st : State}
  {p : StartSession} {id : String} {nodes : List Node} {w : Course}

theorem checkpoints_append {notes : List Note} (log : List Note) (h : checkpoints notes = []) :
    checkpoints (log ++ notes) = checkpoints log := by
  rw [checkpoints, List.filterMap_append, ← checkpoints, ← checkpoints, h, List.append_nil]

/-! ### Counts -/

/-- Nodes that are run leave the count of them alone. -/
theorem Node.step_run (n : Node) (name fresh : String) (rest : List Node) (st : State) :
    (n.run name fresh rest st).walk.state.step = st.step := by
  cases n with
  | search limit =>
    simp only [Node.run]
    split <;> rfl
  | respond =>
    simp only [Node.run]
    split <;> rfl
  | fail cause => rfl
  | say message => rfl
  | cancel => rfl

theorem Walk.step_lt {walk : Walk} (h : walk.state.step < bitBound 64) (name fresh : String) (cancelled : Bool) :
    (Walk.step name fresh cancelled walk).walk.state.step < bitBound 64 := by
  cases walk with
  | ready rest st =>
    cases rest with
    | nil => exact h
    | cons n rest =>
      simp only [Walk.step]
      split
      · exact h
      · rw [Node.step_run]
        exact Nat.mod_lt _ (by decide)
  | recalling call rest st => exact h
  | ended outcome st => exact h

theorem Walk.answer_lt {walk : Walk} (h : walk.state.step < bitBound 64) (outcome : Except Error Json) :
    (Walk.answer outcome walk).walk.state.step < bitBound 64 := by
  cases walk with
  | ready rest st => exact h
  | recalling call rest st => cases outcome <;> exact h
  | ended outcome st => exact h

theorem Checkpoint.latest_lt {root : Path} {c : Checkpoint} (h : latest d root = .ok (some c)) :
    c.state.step < bitBound 64 := by
  unfold latest at h
  cases hfound : indices d root with
  | error cause =>
    rw [hfound] at h
    cases h
  | ok found =>
    rw [hfound] at h
    obtain ⟨i, -, hi⟩ := List.exists_of_findSome?_eq_some (Except.ok.inj h)
    cases hload : load d root i with
    | error cause =>
      rw [hload] at hi
      cases hi
    | ok c' =>
      rw [hload] at hi
      cases hi
      obtain ⟨content, -, hbytes⟩ := load_ok.mp hload
      exact Checkpoint.step_lt hbytes

namespace Session

/-- A session with the same name that starts on this disk has this session's state, and writes nothing. -/
def Resumes (s : Session) (workspace : Path) (d : Disk) : Prop :=
  ∀ nodes p, p.history = none → ({ id := s.id, nodes := nodes } : Session).start d workspace p =
    (.ok { id := s.id, nodes := nodes, state := s.state }, d)

/-- The nodes that were run are counted in 64 bits. -/
structure Counted (s : Session) : Prop where
  state : s.state.step < bitBound 64
  walk : ∀ r w, s.active = some (r, .walking w) → w.state.step < bitBound 64

/-! ### Starts -/

theorem directory_of_checkpoints (there : d.find (Checkpoint.directory (sessionRoot workspace id)) = .ok .directory) :
    d.find (sessionRoot workspace id) = .ok .directory :=
  Disk.find_of_prefix there (List.prefix_append _ _)

theorem start_ok (h : s.start d workspace p = (.ok t, e)) : checkSessionId s.id = .ok () ∧
    e.find (sessionRoot workspace s.id) = .ok .directory ∧
    ∃ st, opening e (sessionRoot workspace s.id) p = .ok st ∧ t = { s with state := st } := by
  unfold start at h
  split at h
  · cases h
  · rename_i hid
    dsimp only at h
    split at h
    · cases h
    · rename_i made hmade
      cases hopening : opening made (sessionRoot workspace s.id) p with
      | error e =>
        rw [hopening] at h
        cases h
      | ok st =>
        rw [hopening] at h
        cases h
        exact ⟨hid, (Disk.makeAll_ok hmade).1, st, hopening, rfl⟩

/-- Where the session's directory is there a start only reads. -/
theorem start_eq (hid : checkSessionId id = .ok ()) (there : d.find (sessionRoot workspace id) = .ok .directory)
    (h : opening d (sessionRoot workspace id) p = .ok st) :
    ({ id := id, nodes := nodes } : Session).start d workspace p =
      (.ok { id := id, nodes := nodes, state := st }, d) := by
  unfold start
  simp only [hid, Disk.makeAll_self there, h]
  rfl

theorem opening_history (d : Disk) (root : Path) {q : StartSession} (hp : p.history = none)
    (hq : q.history = none) : opening d root p = opening d root q := by
  unfold opening
  rw [hp, hq]

/-- Without a conversation to start from, the newest checkpoint that can be read is taken up. -/
theorem opening_spec {root : Path} (there : d.find (Checkpoint.directory root) = .ok .directory)
    (hp : p.history = none) : ∃ st, opening d root p = .ok st ∧
      ((∃ i c, Checkpoint.Newest d root i c ∧ st = c.state) ∨ Checkpoint.Unreadable d root ∧ st = {}) := by
  unfold opening
  rw [hp]
  rcases Checkpoint.latest_spec there with ⟨i, c, hlatest, hnewest⟩ | ⟨hlatest, hno⟩
  · exact ⟨c.state, by simp only [hlatest]; rfl, .inl ⟨i, c, hnewest, rfl⟩⟩
  · exact ⟨{}, by simp only [hlatest]; rfl, .inr ⟨hno, rfl⟩⟩

theorem opening_newest {root : Path} {i : Nat} {c : Checkpoint}
    (there : d.find (Checkpoint.directory root) = .ok .directory) (h : Checkpoint.Newest d root i c)
    (hp : p.history = none) : opening d root p = .ok c.state := by
  unfold opening
  rw [hp]
  simp only [Checkpoint.latest_eq there h]
  rfl

theorem start_resumes (h : ({ id := id, nodes := nodes } : Session).start d workspace p = (.ok s, e))
    (hp : p.history = none) : s.Resumes workspace e := by
  obtain ⟨hid, there, st, hopening, rfl⟩ := start_ok h
  exact fun nodes' q hq => start_eq hid there ((opening_history e _ hq hp).trans hopening)

theorem opening_lt {root : Path} (h : opening d root p = .ok st) : st.step < bitBound 64 := by
  unfold opening at h
  split at h
  · cases h
    exact Nat.two_pow_pos 64
  · cases hlatest : Checkpoint.latest d root with
    | error cause =>
      rw [hlatest] at h
      cases h
    | ok found =>
      rw [hlatest] at h
      cases h
      cases found with
      | none => decide
      | some c => exact Checkpoint.latest_lt hlatest

theorem start_counted (h : ({ id := id, nodes := nodes } : Session).start d workspace p = (.ok s, e)) :
    s.Counted := by
  obtain ⟨-, -, st, hopening, rfl⟩ := start_ok h
  exact ⟨opening_lt hopening, nofun⟩

/-! ### Steps -/

/-- What is counted stays counted in 64 bits. -/
theorem Advanced.counted (h : Advanced s d workspace x t e sent) (hs : s.Counted) : t.Counted := by
  cases h with
  | entered free waits =>
    refine ⟨hs.state, fun q walk hactive => ?_⟩
    cases hactive
    split <;> exact hs.state
  | walked active goes =>
    refine ⟨hs.state, fun q walk hactive => ?_⟩
    cases hactive
    subst goes
    exact Walk.step_lt (hs.walk _ _ active) _ _ _
  | answered active goes =>
    refine ⟨hs.state, fun q walk hactive => ?_⟩
    cases hactive
    subst goes
    have hcount := hs.walk _ _ active
    exact Walk.answer_lt hcount _
  | gaveUp active cancelled =>
    refine ⟨hs.state, fun q walk hactive => ?_⟩
    cases hactive
    have hcount := hs.walk _ _ active
    exact hcount
  | saved active appended => exact ⟨hs.walk _ _ active, nofun⟩
  | told active => exact ⟨hs.state, nofun⟩

theorem Resumes.congr (h : s.Resumes workspace d) (hid : t.id = s.id) (hstate : t.state = s.state) :
    t.Resumes workspace d := by
  unfold Resumes
  rw [hid, hstate]
  exact h

/-- A run whose checkpoint is written leaves its state to whatever starts after it. -/
theorem resumes_saved {outcome : Outcome} {now : Instant} {r : Run} {c : Checkpoint}
    (hid : checkSessionId s.id = .ok ()) (hs : s.Counted) (hnow : now.Stamped)
    (active : s.active = some (r, .walking (.ended outcome st)))
    (appended : Checkpoint.append d (sessionRoot workspace s.id) s.id outcome.status st outcome.failure now =
      (.ok c, e)) (positive : 0 < c.index) :
    ({ s with state := st, active := some (r, .saved outcome (some c.index)) } : Session).Resumes workspace e := by
  have hc := (Checkpoint.append_ok appended).1
  have hindex : c.index = (Checkpoint.newest d (sessionRoot workspace s.id) + 1) % bitBound 64 := by rw [hc]
  have hstate : c.state = st := by rw [hc]
  have hlt := Checkpoint.lt_of_index_pos (hindex ▸ positive)
  have hformed : c.WellFormed := by
    refine ⟨?_, ?_, ?_⟩
    · rw [hindex]
      exact Nat.mod_lt _ (by decide)
    · rw [hstate]
      exact hs.walk _ _ active
    · rw [hc]
      exact hnow
  have there := (Checkpoint.append_contents appended hlt).1
  have hopening (p : StartSession) (hp : p.history = none) :=
    opening_newest there (Checkpoint.append_newest appended hlt hformed) hp
  intro nodes p hp
  exact hstate ▸ start_eq hid (directory_of_checkpoints there) (hopening p hp)

end Session

/-- What is kept of a session that was started on a machine's disk: from then on, or from its first checkpoint
on if it was given a conversation, what starts anew has its state. -/
structure Restorable (id : String) (workspace : Path) (bare : Prop) (w : Course) : Prop where
  session : w.session.id = id
  valid : checkSessionId id = .ok ()
  counted : w.session.Counted
  resumes : bare ∨ checkpoints w.log ≠ [] → w.session.Resumes workspace w.disk

variable {bare : Prop}

/-- Everything but the end of a run leaves the state and the disk alone. -/
theorem Restorable.aside {log : List Note} (h : Restorable id workspace bare w) (hid : t.id = w.session.id)
    (hstate : t.state = w.session.state) (hcounted : t.Counted) (hlog : checkpoints log = checkpoints w.log) :
    Restorable id workspace bare ⟨t, w.disk, log⟩ :=
  ⟨hid.trans h.session, h.valid, hcounted, fun hsome => (h.resumes (hlog ▸ hsome)).congr hid hstate⟩

theorem Restorable.advanced (h : Restorable id workspace bare w)
    (hadvanced : Session.Advanced w.session w.disk workspace x t e sent)
    (written : Written (w.log ++ w.session.notes w.disk workspace sent x))
    (positive : ∀ c ∈ checkpoints (w.log ++ w.session.notes w.disk workspace sent x), 0 < c.index)
    (stamped : ∀ now, x = .save now → now.Stamped) :
    Restorable id workspace bare ⟨t, e, w.log ++ w.session.notes w.disk workspace sent x⟩ := by
  have hcounted := hadvanced.counted h.counted
  cases hadvanced with
  | entered free waits => exact h.aside rfl rfl hcounted (checkpoints_append _ rfl)
  | walked active goes =>
    exact h.aside rfl rfl hcounted (checkpoints_append _ (by simp [Session.notes, active, checkpoints]))
  | answered active goes =>
    exact h.aside rfl rfl hcounted (checkpoints_append _ (by simp [Session.notes, active, checkpoints]))
  | gaveUp active cancelled => exact h.aside rfl rfl hcounted (checkpoints_append _ rfl)
  | @saved now r outcome st c e active appended =>
    have hnotes : w.session.notes w.disk workspace [] (.save now) = [.wrote r c] := by
      simp only [Session.notes, active, appended]
    rw [hnotes] at written positive ⊢
    cases c with
    | error cause => cases written (.wrote r (.error cause)) (List.mem_append_right _ List.mem_cons_self)
    | ok c =>
      have hpositive : 0 < c.index := positive c (by simp [checkpoints])
      have hvalid : checkSessionId w.session.id = .ok () := h.session ▸ h.valid
      exact ⟨h.session, h.valid, hcounted,
        fun _ => Session.resumes_saved hvalid h.counted (stamped now rfl) active appended hpositive⟩
  | told active =>
    exact h.aside rfl rfl hcounted (checkpoints_append _ (by simp [Session.notes, active, checkpoints]))

theorem Restorable.take (h : Restorable id workspace bare w) (turn : Turn)
    (written : Written (take workspace w turn).log)
    (positive : ∀ c ∈ checkpoints (take workspace w turn).log, 0 < c.index)
    (stamped : ∀ now, turn = .step (.save now) → now.Stamped) :
    Restorable id workspace bare (take workspace w turn) := by
  cases turn with
  | message text =>
    simp only [Course.take]
    split
    · rename_i t haccept
      obtain ⟨-, rfl⟩ := Session.accept_ok haccept
      exact h.aside rfl rfl ⟨h.counted.state, h.counted.walk⟩ (checkpoints_append _ rfl)
    · exact h
  | cancel => exact h.aside rfl rfl ⟨h.counted.state, h.counted.walk⟩ rfl
  | stop => exact h.aside rfl rfl ⟨h.counted.state, h.counted.walk⟩ rfl
  | step x =>
    simp only [Course.take] at written positive ⊢
    cases hadvance : w.session.advance w.disk workspace x with
    | none => exact h
    | some moved =>
      obtain ⟨t, e, sent⟩ := moved
      simp only [hadvance] at written positive
      exact h.advanced (Session.advanced hadvance) written positive fun now hnow => stamped now (hnow ▸ rfl)

theorem Restorable.play (h : Restorable id workspace bare w) (turns : List Turn)
    (written : Written (play workspace turns w).log)
    (positive : ∀ c ∈ checkpoints (play workspace turns w).log, 0 < c.index)
    (stamped : ∀ now, .step (.save now) ∈ turns → now.Stamped) :
    Restorable id workspace bare (play workspace turns w) := by
  induction turns generalizing w with
  | nil => exact h
  | cons turn turns ih =>
    have hlog : (Course.take workspace w turn).log <+: (play workspace turns (Course.take workspace w turn)).log :=
      log_prefix_play turns _
    refine ih (h.take turn ?_ ?_ ?_) written positive ?_
    · exact fun x hx => written x (hlog.subset hx)
    · exact fun c hc => positive c ((hlog.filterMap _).subset hc)
    · exact fun now hnow => stamped now (hnow ▸ List.mem_cons_self)
    · exact fun now hnow => stamped now (List.mem_cons_of_mem _ hnow)

theorem restorable_start (h : ({ id := id, nodes := nodes } : Session).start d workspace p = (.ok s, e)) :
    Restorable id workspace (p.history = none) { session := s, disk := e } := by
  have hcounted := Session.start_counted h
  have hresumes := Session.start_resumes h
  obtain ⟨hid, -, st, -, rfl⟩ := Session.start_ok h
  exact ⟨rfl, hid, hcounted, fun hbare => hresumes (hbare.resolve_right (· rfl))⟩

/-- A checkpoint has a larger number than all others, unless the largest that there can be is taken. -/
theorem saved_above {now : Instant} {r : Run} {c : Checkpoint}
    (h : (take workspace w (.step (.save now))).log = w.log ++ [.wrote r (.ok c)]) :
    (∀ i ∈ Checkpoint.numbers w.disk (sessionRoot workspace w.session.id), i < c.index) ↔
      bitBound 64 - 1 ∉ Checkpoint.numbers w.disk (sessionRoot workspace w.session.id) := by
  simp only [Course.take] at h
  cases hadvance : w.session.advance w.disk workspace (.save now) with
  | none =>
    rw [hadvance] at h
    have hlength := congrArg List.length h
    simp at hlength
  | some moved =>
    obtain ⟨t, e, sent⟩ := moved
    simp only [hadvance] at h
    cases Session.advanced hadvance with
    | saved active appended =>
      simp only [Session.notes, active, appended, List.append_cancel_left_eq, List.cons.injEq, Note.wrote.injEq] at h
      obtain ⟨⟨-, rfl⟩, -⟩ := h
      rw [(Checkpoint.append_steps appended).1]
      exact Checkpoint.above_iff _ _

end Fleet.Graph
