import Fleet.Graph.Session

/-!
The steps that the runs of a session take on their own, and what each of them leaves alone.
-/

namespace Fleet.Graph

/-- A step of a run: it gets the state, goes on in the graph, or ends. -/
inductive Step where
  | enter (r : Run)
  | walk (fresh : String)
  | answer (outcome : Except Error Json)
  | giveUp
  | save (now : Instant)
  | tell

namespace Session

/-- A step, if it can be taken now, with what it sends. -/
def advance (s : Session) (d : Disk) (workspace : Path) :
    Step → Option (Session × Disk × List Sent)
  | .enter r => (s.enter r).map (·, d, [])
  | .walk fresh => (s.walk fresh).map fun (s, sent) => (s, d, sent)
  | .answer outcome => (s.answer outcome).map fun (s, sent) => (s, d, sent)
  | .giveUp => s.giveUp.map (·, d, [])
  | .save now => (s.save d workspace now).map fun (s, d) => (s, d, [])
  | .tell => s.tell.map fun (s, sent) => (s, d, sent)

/-- The runs that are not over. -/
def runs (s : Session) : List Run := (s.active.map Prod.fst).toList ++ s.queue

variable {s t : Session} {d e : Disk} {workspace : Path} {x : Step} {sent : List Sent}

/-- All that a step can do. -/
inductive Advanced (s : Session) (d : Disk) (workspace : Path) :
    Step → Session → Disk → List Sent → Prop
  | entered {r : Run} (free : s.active = none) (waits : r ∈ s.queue) :
    Advanced s d workspace (.enter r)
      { s with
        queue := s.queue.filter (· ≠ r)
        active := some (r, .walking (if s.isCancelled r then
          .ended .cancelled (s.state.push (.user r.message))
          else .ready s.nodes (s.state.push (.user r.message)))) } d []
  | walked {fresh : String} {r : Run} {rest : List Node} {st : State} {stride : Stride}
    (active : s.active = some (r, .walking (.ready rest st)))
    (goes : Walk.step s.id fresh (s.isCancelled r) (.ready rest st) = stride) :
    Advanced s d workspace (.walk fresh) (s.follow r stride).1 d stride.sent
  | answered {outcome : Except Error Json} {r : Run} {id : String} {rest : List Node} {st : State}
    {stride : Stride} (active : s.active = some (r, .walking (.recalling id rest st)))
    (goes : Walk.answer outcome (.recalling id rest st) = stride) :
    Advanced s d workspace (.answer outcome) (s.follow r stride).1 d stride.sent
  | gaveUp {r : Run} {id : String} {rest : List Node} {st : State}
    (active : s.active = some (r, .walking (.recalling id rest st)))
    (cancelled : s.isCancelled r = true) :
    Advanced s d workspace .giveUp { s with active := some (r, .walking (.ready rest st)) } d []
  | saved {now : Instant} {r : Run} {outcome : Outcome} {st : State} {c : Except Error Checkpoint}
    {e : Disk} (active : s.active = some (r, .walking (.ended outcome st)))
    (appended : Checkpoint.append d (sessionRoot workspace s.id) s.id outcome.status st
      outcome.failure now = (c, e)) :
    Advanced s d workspace (.save now)
      { s with state := st, active := some (r, .saved outcome (c.toOption.map Checkpoint.index)) } e []
  | told {r : Run} {outcome : Outcome} {index : Option Nat}
    (active : s.active = some (r, .saved outcome index)) :
    Advanced s d workspace .tell { s with active := none } d
      ((index.map s.snapshot).toList ++ [.event outcome.event])

theorem advanced (h : s.advance d workspace x = some (t, e, sent)) :
    Advanced s d workspace x t e sent := by
  cases x with
  | enter r =>
    obtain ⟨s', hs, heq⟩ := Option.map_eq_some_iff.mp h
    cases heq
    unfold enter at hs
    split at hs
    · rename_i hfree
      cases hs
      exact .entered (Option.isNone_iff_eq_none.mp hfree.1) hfree.2
    · cases hs
  | walk fresh =>
    obtain ⟨⟨s', out⟩, hs, heq⟩ := Option.map_eq_some_iff.mp h
    cases heq
    unfold walk at hs
    split at hs
    · rename_i hactive
      cases hs
      exact .walked hactive rfl
    · cases hs
  | answer outcome =>
    obtain ⟨⟨s', out⟩, hs, heq⟩ := Option.map_eq_some_iff.mp h
    cases heq
    unfold answer at hs
    split at hs
    · rename_i hactive
      cases hs
      exact .answered hactive rfl
    · cases hs
  | giveUp =>
    obtain ⟨s', hs, heq⟩ := Option.map_eq_some_iff.mp h
    cases heq
    unfold giveUp at hs
    split at hs
    · rename_i hactive
      split at hs
      · rename_i hcancelled
        cases hs
        exact .gaveUp hactive hcancelled
      · cases hs
    · cases hs
  | save now =>
    obtain ⟨⟨s', d'⟩, hs, heq⟩ := Option.map_eq_some_iff.mp h
    cases heq
    unfold save at hs
    split at hs
    · rename_i hactive
      generalize happended : Checkpoint.append _ _ _ _ _ _ now = written at hs
      obtain ⟨c, e⟩ := written
      cases hs
      cases c with
      | ok c => exact .saved hactive happended
      | error cause => exact .saved hactive happended
    · cases hs
  | tell =>
    obtain ⟨⟨s', out⟩, hs, heq⟩ := Option.map_eq_some_iff.mp h
    cases heq
    unfold tell at hs
    split at hs
    · rename_i hactive
      cases hs
      exact .told hactive
    · cases hs

theorem accept_ok {message : String} (h : s.accept message = .ok t) : s.stopped = false ∧
    t = { s with queue := s.queue ++ [⟨s.count, s.token, message⟩], count := s.count + 1 } := by
  unfold accept at h
  cases hid : checkSessionId s.id with
  | error cause =>
    rw [hid] at h
    cases h
  | ok valid =>
    cases hstopped : s.stopped with
    | true =>
      rw [hid, hstopped] at h
      cases h
    | false =>
      rw [hid, hstopped] at h
      cases h
      exact ⟨rfl, rfl⟩

/-- What no step changes: whose session it is, whether it is stopped, and that runs only end. -/
structure Keeps (s t : Session) : Prop where
  id : t.id = s.id
  stopped : t.stopped = s.stopped
  runs : t.runs ⊆ s.runs

theorem Advanced.keeps (h : Advanced s d workspace x t e sent) : Keeps s t := by
  -- the run that goes on is the one that held the state
  have same {r : Run} {stage stage' : Stage} (active : s.active = some (r, stage)) (state : State)
      (spent : List Nat) :
      Keeps s { s with state := state, spent := spent, active := some (r, stage') } :=
    ⟨rfl, rfl, by simp [Session.runs, active]⟩
  cases h with
  | @entered r free waits =>
    refine ⟨rfl, rfl, ?_⟩
    intro q hq
    rcases List.mem_append.mp hq with hq | hq
    · obtain rfl : q = r := by simpa using hq
      exact List.mem_append_right _ waits
    · exact List.mem_append_right _ (List.mem_filter.mp hq).1
  | walked active goes => exact same active _ _
  | answered active goes => exact same active _ _
  | gaveUp active cancelled => exact same active _ _
  | saved active appended => exact same active _ _
  | told active =>
    refine ⟨rfl, rfl, ?_⟩
    intro q hq
    exact List.mem_append_right _ hq

end Session

/-! ### Runs come to an end -/

/-- How many steps a run has left at most. -/
def Stage.left : Stage → Nat
  | .walking (.ready rest _) => 2 * rest.length + 3
  | .walking (.recalling _ rest _) => 2 * rest.length + 4
  | .walking (.ended _ _) => 2
  | .saved _ _ => 1

theorem Node.left_run (n : Node) (session fresh : String) (rest : List Node) (st : State) :
    (Stage.walking (n.run session fresh rest st).walk).left < 2 * (n :: rest).length + 3 := by
  have hready : ∀ st, (Stage.walking (.ready rest st)).left < 2 * (n :: rest).length + 3 := by
    intro st
    simp only [Stage.left, List.length_cons]
    omega
  cases n with
  | search limit =>
    simp only [Node.run]
    split
    · exact hready _
    · simp only [Stage.left, List.length_cons]
      omega
  | respond =>
    simp only [Node.run]
    split
    · simp only [Stage.left, List.length_cons]
      omega
    · exact hready _
  | fail cause =>
    simp only [Node.run, Stage.left, List.length_cons]
    omega
  | say message => exact hready _
  | cancel => exact hready _

theorem left_step (session fresh : String) (cancelled : Bool) (rest : List Node) (st : State) :
    (Stage.walking (Walk.step session fresh cancelled (.ready rest st)).walk).left <
      2 * rest.length + 3 := by
  cases rest with
  | nil =>
    simp only [Walk.step, Stage.left]
    omega
  | cons n rest =>
    simp only [Walk.step]
    split
    · simp only [Stage.left, List.length_cons]
      omega
    · exact Node.left_run n session fresh rest _

namespace Session

variable {s t : Session} {d e : Disk} {workspace : Path} {x : Step} {sent : List Sent}

/-- How many steps the runs of a session have left at most. -/
def left (s : Session) : Nat :=
  (s.active.map fun x => x.2.left).getD 0 + s.queue.length * (2 * s.nodes.length + 4)

/-- Every step brings the session's runs nearer to their end. -/
theorem Advanced.left_lt (h : Advanced s d workspace x t e sent) : t.left < s.left := by
  -- the runs that wait have as many steps left as before
  have goes {r : Run} {stage stage' : Stage} {state : State} {spent : List Nat}
      (active : s.active = some (r, stage)) (hlt : stage'.left < stage.left) :
      ({ s with state := state, spent := spent, active := some (r, stage') } : Session).left <
        s.left := by
    simp only [left, active, Option.map_some, Option.getD_some]
    omega
  cases h with
  | @entered r free waits =>
    have hfewer : (s.queue.filter (· ≠ r)).length + 1 ≤ s.queue.length := by
      have hlt : (s.queue.filter (· ≠ r)).length < s.queue.length :=
        List.length_filter_lt_length_iff_exists.mpr ⟨r, waits, by simp⟩
      exact hlt
    have hcost := Nat.mul_le_mul_right (2 * s.nodes.length + 4) hfewer
    rw [Nat.succ_mul] at hcost
    simp only [left, free, Option.map_none, Option.getD_none, Option.map_some, Option.getD_some]
    split
    · simp only [Stage.left]
      omega
    · simp only [Stage.left]
      omega
  | walked active moves =>
    refine goes active ?_
    subst moves
    exact left_step _ _ _ _ _
  | answered active moves =>
    refine goes active ?_
    subst moves
    simp only [Walk.answer, Stage.left]
    omega
  | gaveUp active cancelled =>
    refine goes active ?_
    simp only [Stage.left]
    omega
  | saved active appended =>
    refine goes active ?_
    simp only [Stage.left]
    omega
  | told active =>
    simp only [left, active, Option.map_some, Option.getD_some, Option.map_none, Option.getD_none,
      Stage.left]
    omega

/-- As long as a run is not over, some step can be taken. -/
theorem advances (d : Disk) (workspace : Path) (h : s.runs ≠ []) :
    ∃ x, (s.advance d workspace x).isSome = true := by
  cases hactive : s.active with
  | none =>
    cases hqueue : s.queue with
    | nil => simp [runs, hactive, hqueue] at h
    | cons r rest =>
      refine ⟨.enter r, ?_⟩
      simp [advance, enter, hactive, hqueue]
  | some x =>
    obtain ⟨r, stage⟩ := x
    match stage with
    | .walking (.ready rest st) => exact ⟨.walk "", by simp [advance, walk, hactive]⟩
    | .walking (.recalling id rest st) => exact ⟨.answer (.ok .null), by simp [advance, answer, hactive]⟩
    | .walking (.ended outcome st) => exact ⟨.save ⟨0, 0⟩, by simp [advance, save, hactive]⟩
    | .saved outcome index => exact ⟨.tell, by simp [advance, tell, hactive]⟩

end Session

end Fleet.Graph
