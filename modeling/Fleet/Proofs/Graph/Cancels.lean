import Fleet.Proofs.Graph.Steps
import Fleet.Proofs.Session.Cancels

/-!
Which runs of a session its cancels reach. A message takes its token when it is accepted and a cancel spends the
token that there is, so a run is cancelled just if a cancel was issued since its message was accepted. Whoever
delivers a message may be overtaken by a stop between the look at the session and the taking of the token.
-/

namespace Fleet.Graph

open Happening (Books Cancelled InScope Overtaken)

/-! ### What is watched -/

/-- Whether the run is going to end as cancelled. -/
def Stage.isCancelled : Stage → Bool
  | .walking (.ended .cancelled _) | .saved .cancelled _ => true
  | _ => false

/-- The nodes that are left. -/
def Stage.rest : Stage → List Node
  | .walking (.ready rest _) | .walking (.recalling _ rest _) => rest
  | _ => []

namespace Session

/-- A message is accepted by a session that was found running. -/
def enqueue (s : Session) (message : String) : Session :=
  { s with queue := s.queue ++ [⟨s.count, s.token, message⟩], count := s.count + 1 }

/-- The first half of a stop: no more messages are let in. -/
def halt (s : Session) : Session := { s with stopped := true }

/-- A run's number, and whether it is cancelled. -/
def standing (s : Session) (r : Run) : Nat × Bool := (r.id, s.isCancelled r)

/-- The run that takes a step. -/
def mover (s : Session) : Step → Option Run
  | .enter r => some r
  | _ => s.active.map Prod.fst

/-- What happens to a run in a step after which the session is `t`. A run takes a node if the count of nodes
goes on. -/
def happened (s t : Session) (sent : List Sent) : Step → List Happening
  | .enter r => [.entered r.id]
  | .walk _ =>
    match s.active, t.active with
    | some (r, .walking v), some (_, .walking w) =>
      if w.state.step = v.state.step then [] else [.worked r.id]
    | _, _ => []
  | .answer _ => (s.active.map fun x => .worked x.1.id).toList
  | .giveUp | .save _ => []
  | .tell => (s.active.map fun x => .ended x.1.id (sent.contains (.event (.done true)))).toList

end Session

/-- What comes to a session at any time. -/
inductive Incident where
  /-- A message comes, and the session is not stopped. -/
  | knock (text : String)
  /-- One of the messages that have come is accepted. -/
  | accept (place : Nat)
  | cancel
  | halt
  | step (x : Step)

/-- A session and its machine's disk, the messages that have come and are not accepted yet, and all that
happened to runs. -/
structure Vigil where
  session : Session
  disk : Disk
  door : List String := []
  log : List Happening := []

namespace Vigil

def take (workspace : Path) (v : Vigil) : Incident → Vigil
  | .knock text =>
    match v.session.accept text with
    | .ok _ => { v with door := v.door ++ [text] }
    | .error _ => v
  | .accept place =>
    match v.door[place]? with
    | some text => { v with
        session := v.session.enqueue text
        door := v.door.eraseIdx place
        log := v.log ++ [.accepted v.session.count] }
    | none => v
  | .cancel => { v with session := v.session.cancel, log := v.log ++ [.cancelled] }
  | .halt => { v with session := v.session.halt }
  | .step x =>
    match v.session.advance v.disk workspace x with
    | some (t, e, sent) =>
      { v with session := t, disk := e, log := v.log ++ v.session.happened t sent x }
    | none => v

def play (workspace : Path) (incidents : List Incident) (v : Vigil) : Vigil :=
  incidents.foldl (take workspace) v

end Vigil

variable {s t : Session} {d e : Disk} {workspace : Path} {x : Step} {sent : List Sent} {r : Run}
  {stage : Stage} {rest : List Node} {st : State} {log : List Happening}

namespace Session

/-- Looking at the session and accepting the message at once is the way of a single caller. -/
theorem accept_enqueues {message : String} (h : s.accept message = .ok t) : t = s.enqueue message :=
  (accept_ok h).2

theorem halt_cancel (s : Session) : s.halt.cancel = s.stop := rfl

end Session

/-! ### Nodes -/

/-- A stride that leaves the tokens alone, ends no run as cancelled and leaves no other nodes than before. -/
structure Stride.Onward (t : Stride) (rest : List Node) : Prop where
  cancels : t.cancels = false
  stage : (Stage.walking t.walk).isCancelled = false
  rest : (Stage.walking t.walk).rest ⊆ rest

theorem Node.run_onward (session fresh : String) (rest : List Node) (st : State) {n : Node}
    (hn : n ≠ .cancel) : (n.run session fresh rest st).Onward rest := by
  cases n with
  | search limit =>
    simp only [Node.run]
    split
    · exact ⟨rfl, rfl, List.Subset.refl _⟩
    · exact ⟨rfl, rfl, List.Subset.refl _⟩
  | respond =>
    simp only [Node.run]
    split
    · exact ⟨rfl, rfl, List.nil_subset _⟩
    · exact ⟨rfl, rfl, List.Subset.refl _⟩
  | fail cause => exact ⟨rfl, rfl, List.nil_subset _⟩
  | say message => exact ⟨rfl, rfl, List.Subset.refl _⟩
  | cancel => exact absurd rfl hn

/-- A run that is not cancelled goes on; one that is cancelled ends so. -/
theorem step_cases (session fresh : String) (cancelled : Bool) (hrest : .cancel ∉ rest) (st : State) :
    let t := Walk.step session fresh cancelled (.ready rest st)
    t.Onward rest ∨ cancelled = true ∧ t = { walk := .ended .cancelled st } := by
  cases rest with
  | nil => exact .inl ⟨rfl, rfl, List.Subset.refl _⟩
  | cons n rest =>
    cases cancelled with
    | true => exact .inr ⟨rfl, rfl⟩
    | false =>
      have honward := Node.run_onward session fresh rest { st with step := (st.step + 1) % bitBound 64 }
        (n := n) fun h => hrest (by simp [h])
      exact .inl { honward with rest := List.Subset.trans honward.rest (List.subset_cons_self _ _) }

/-- The end that is told of a run is that which it came to. -/
theorem contains_done (s : Session) (outcome : Outcome) (index : Option Nat) :
    ((index.map s.snapshot).toList ++ [Sent.event outcome.event]).contains (.event (.done true)) =
      (Stage.saved outcome index).isCancelled := by
  cases index <;> cases outcome <;> simp [Session.snapshot, Outcome.event, Stage.isCancelled]

/-! ### Tokens -/

/-- Where the run stands that holds the state. One that was overtaken by a cancel is about to end as cancelled,
and none is that is not cancelled. -/
structure Stance (log : List Happening) (s : Session) (r : Run) (stage : Stage) : Prop where
  rest : .cancel ∉ stage.rest
  cancelled : stage.isCancelled = true → s.isCancelled r = true
  overtaken : Overtaken log r.id → stage.isCancelled = true

/-- The tokens of the runs say which of them are cancelled. -/
structure Kept (v : Vigil) : Prop where
  books : Books v.log (v.session.queue.map v.session.standing)
    (v.session.active.map fun x => v.session.standing x.1) v.session.count
  tokens : ∀ r ∈ v.session.runs, r.token ≤ v.session.token
  spent : ∀ k, k ∈ v.session.spent ↔ k < v.session.token
  nodes : .cancel ∉ v.session.nodes
  stands : ∀ r stage, v.session.active = some (r, stage) → Stance v.log v.session r stage

namespace Kept

variable {v : Vigil}

theorem start (id : String) (nodes : List Node) (state : State) (disk : Disk) (hnodes : .cancel ∉ nodes) :
    Kept { session := { id, nodes, state }, disk } where
  books := .start
  tokens := by simp [Session.runs]
  spent := by simp
  nodes := hnodes
  stands := nofun

theorem isCancelled_iff (h : Kept v) : v.session.isCancelled r = true ↔ r.token < v.session.token := by
  rw [Session.isCancelled, List.contains_iff_mem, h.spent]

/-- A run is cancelled just if a cancel was issued since it was accepted. -/
theorem cancelled_iff (h : Kept v) (hr : r ∈ v.session.runs) :
    v.session.isCancelled r = true ↔ Cancelled v.log r.id := by
  rcases List.mem_append.mp hr with hr | hr
  · rw [Option.mem_toList] at hr
    obtain ⟨x, hx, rfl⟩ := Option.map_eq_some_iff.mp hr
    exact (h.books.active (v.session.standing x.1) (by simp [hx])).cancelled
  · exact (h.books.waiting _ (List.mem_map_of_mem hr)).cancelled

/-- What a run stands for does not change as long as no token is spent. -/
theorem stands_later (h : Kept v) {e : Happening} (hactive : v.session.active = some (r, stage)) :
    Overtaken (v.log ++ [e]) r.id ↔ Overtaken v.log r.id := by
  have hbooks := h.books
  rw [hactive] at hbooks
  exact hbooks.overtaken_later

theorem accept (h : Kept v) (text : String) (door : List String) :
    Kept { v with
      session := v.session.enqueue text, door := door, log := v.log ++ [.accepted v.session.count] } where
  books := by
    have hnew : v.session.isCancelled ⟨v.session.count, v.session.token, text⟩ = false := by
      rw [Bool.eq_false_iff, ne_eq, h.isCancelled_iff]
      exact Nat.lt_irrefl _
    have hbooks := h.books.accept
    rw [← hnew] at hbooks
    change Books _ ((v.session.queue ++ [Run.mk v.session.count v.session.token text]).map
      v.session.standing) _ _
    rw [List.map_append]
    exact hbooks
  tokens r hr := by
    have hcases : r ∈ v.session.runs ∨ r = ⟨v.session.count, v.session.token, text⟩ := by
      simpa [Session.runs, Session.enqueue, or_assoc] using hr
    rcases hcases with hr | rfl
    · exact h.tokens r hr
    · exact Nat.le_refl _
  spent := h.spent
  nodes := h.nodes
  stands r stage hactive := by
    have hstance := h.stands r stage hactive
    exact { hstance with overtaken := fun ho => hstance.overtaken ((h.stands_later hactive).mp ho) }

/-- A cancel reaches all runs that are not over. -/
theorem cancelled_cancel (h : Kept v) (hr : r ∈ v.session.runs) : v.session.cancel.isCancelled r = true := by
  rw [Session.isCancelled, List.contains_iff_mem]
  simp only [Session.cancel, List.mem_cons, h.spent]
  have := h.tokens r hr
  omega

theorem cancel (h : Kept v) :
    Kept { v with session := v.session.cancel, log := v.log ++ [.cancelled] } where
  books := by
    have hbooks := h.books.cancel
    rw [List.map_map, Option.map_map] at hbooks
    have hqueue : v.session.queue.map v.session.cancel.standing =
        v.session.queue.map ((fun x => (x.1, true)) ∘ v.session.standing) := by
      refine List.map_congr_left fun r hr => Prod.ext rfl ?_
      exact h.cancelled_cancel (List.mem_append_right _ hr)
    have hactive : v.session.active.map (fun x => v.session.cancel.standing x.1) =
        v.session.active.map ((fun x => (x.1, true)) ∘ fun x => v.session.standing x.1) := by
      refine Option.map_congr fun x hx => Prod.ext rfl ?_
      exact h.cancelled_cancel (List.mem_append_left _ (by simp [hx]))
    rw [← hqueue, ← hactive] at hbooks
    exact hbooks
  tokens r hr := Nat.le_succ_of_le (h.tokens r hr)
  spent k := by
    simp only [Session.cancel, List.mem_cons, h.spent]
    omega
  nodes := h.nodes
  stands r stage hactive := by
    have hstance := h.stands r stage hactive
    refine ⟨hstance.rest, fun _ => ?_, fun ho => hstance.overtaken ((h.stands_later hactive).mp ho)⟩
    exact h.cancelled_cancel (List.mem_append_left _ (by simp [show v.session.active = _ from hactive]))

/-- The run that holds the state comes to another stage, and no token is spent. -/
theorem goes (h : Kept v) (stage' : Stage) (state : State) (disk : Disk)
    (hactive : v.session.active = some (r, stage)) (hrest : stage'.rest ⊆ stage.rest)
    (hcancelled : stage'.isCancelled = true → v.session.isCancelled r = true)
    (hkept : stage.isCancelled = true → stage'.isCancelled = true) :
    Kept { v with session := { v.session with state := state, active := some (r, stage') }, disk := disk } where
  books := by
    have hbooks := h.books
    rw [hactive] at hbooks
    exact hbooks
  tokens q hq := h.tokens q (by simpa [Session.runs, hactive] using hq)
  spent := h.spent
  nodes := h.nodes
  stands q stage'' hq := by
    have hstance := h.stands r stage hactive
    cases hq
    exact ⟨fun hmem => hstance.rest (hrest hmem), hcancelled, fun ho => hkept (hstance.overtaken ho)⟩

/-- A run that is not about to end as cancelled works. -/
theorem works (h : Kept v) (hactive : v.session.active = some (r, stage))
    (hstage : stage.isCancelled = false) : Kept { v with log := v.log ++ [.worked r.id] } where
  books := by
    have hbooks := h.books
    rw [hactive] at hbooks
    have hfree : ¬ Overtaken v.log r.id := fun ho => by
      rw [(h.stands r stage hactive).overtaken ho] at hstage
      cases hstage
    have hworked := hbooks.work hfree
    change Books _ _ (v.session.active.map fun x => v.session.standing x.1) _
    rw [hactive]
    exact hworked
  tokens := h.tokens
  spent := h.spent
  nodes := h.nodes
  stands q stage' hq := by
    have hstance := h.stands q stage' hq
    exact { hstance with overtaken := fun ho => hstance.overtaken ((h.stands_later hq).mp ho) }

theorem enter (h : Kept v) (hfree : v.session.active = none) (hr : r ∈ v.session.queue) :
    Kept { v with
      session := { v.session with
        queue := v.session.queue.filter (· ≠ r)
        active := some (r, .walking (if v.session.isCancelled r then
          .ended .cancelled (v.session.state.push (.user r.message))
          else .ready v.session.nodes (v.session.state.push (.user r.message)))) }
      log := v.log ++ [.entered r.id] } where
  books := by
    have hbooks := h.books
    rw [hfree] at hbooks
    refine hbooks.enter (x := v.session.standing r) (List.mem_map_of_mem hr)
      ((List.filter_sublist).map _) ?_
    -- runs have numbers of their own, so no other run goes by this one's
    rw [List.map_map]
    intro hmem
    obtain ⟨q, hq, hid⟩ := List.mem_map.mp hmem
    obtain ⟨hq, hne⟩ := List.mem_filter.mp hq
    have hdistinct := hbooks.distinct
    rw [List.map_map] at hdistinct
    have heq : q = r := List.inj_on_of_nodup_map hdistinct hq hr hid
    simp [heq] at hne
  tokens q hq := by
    have hcases : q = r ∨ q ∈ v.session.queue := by
      rcases List.mem_append.mp hq with hq | hq
      · exact .inl (by simpa using hq)
      · exact .inr (List.mem_filter.mp hq).1
    rcases hcases with rfl | hq
    · exact h.tokens q (List.mem_append_right _ hr)
    · exact h.tokens q (List.mem_append_right _ hq)
  spent := h.spent
  nodes := h.nodes
  stands q stage hq := by
    have hbooks := h.books
    rw [hfree] at hbooks
    have hovertaken := hbooks.overtaken_of_enter (List.mem_map_of_mem hr : v.session.standing r ∈ _)
    cases hq
    cases hcancelled : v.session.isCancelled r with
    | true => exact ⟨List.not_mem_nil, fun _ => hcancelled, fun _ => rfl⟩
    | false =>
      refine ⟨h.nodes, nofun, fun ho => ?_⟩
      have hreached : v.session.isCancelled r = true := hovertaken.mp ho
      rw [hcancelled] at hreached
      cases hreached

theorem finish (h : Kept v) {outcome : Outcome} {index : Option Nat}
    (hactive : v.session.active = some (r, .saved outcome index)) :
    Kept { v with
      session := { v.session with active := none }
      log := v.log ++ [.ended r.id (Stage.saved outcome index).isCancelled] } where
  books := by
    have hstance := h.stands r _ hactive
    have hbooks := h.books
    rw [hactive] at hbooks
    refine hbooks.finish hstance.cancelled fun hc ho => ?_
    rw [hstance.overtaken ho] at hc
    cases hc
  tokens q hq := h.tokens q (List.mem_append_right _ (by simpa [Session.runs] using hq))
  spent := h.spent
  nodes := h.nodes
  stands := nofun

/-- A run goes on with a stride: it works if it takes a node, and ends as cancelled only if it is. -/
theorem follow (h : Kept v) {walk : Walk} {stride : Stride}
    (hactive : v.session.active = some (r, .walking walk)) (hwalk : (Stage.walking walk).isCancelled = false)
    (hstride : stride.Onward (Stage.walking walk).rest ∨
      v.session.isCancelled r = true ∧ stride = { walk := .ended .cancelled walk.state }) :
    Kept { v with session := (v.session.follow r stride).1 } := by
  have hcancels : stride.cancels = false := by
    rcases hstride with honward | ⟨-, rfl⟩
    · exact honward.cancels
    · rfl
  have hfollow : (v.session.follow r stride).1 =
      { v.session with active := some (r, .walking stride.walk) } := by
    simp [Session.follow, hcancels]
  rw [hfollow]
  refine h.goes (.walking stride.walk) v.session.state v.disk hactive ?_ (fun hend => ?_)
    fun hc => absurd (hwalk.symm.trans hc) nofun
  · rcases hstride with honward | ⟨-, rfl⟩
    · exact honward.rest
    · exact List.nil_subset _
  · rcases hstride with honward | ⟨hcancelled, -⟩
    · exact absurd (honward.stage.symm.trans hend) nofun
    · exact hcancelled

theorem walked (h : Kept v) {fresh : String} {stride : Stride}
    (hactive : v.session.active = some (r, .walking (.ready rest st)))
    (hstride : Walk.step v.session.id fresh (v.session.isCancelled r) (.ready rest st) = stride) :
    Kept { v with
      session := (v.session.follow r stride).1
      log := v.log ++ v.session.happened (v.session.follow r stride).1 stride.sent (.walk fresh) } := by
  have hcases : stride.Onward rest ∨
      v.session.isCancelled r = true ∧ stride = { walk := .ended .cancelled st } := by
    rw [← hstride]
    exact step_cases v.session.id fresh _ (h.stands r _ hactive).rest st
  have hfollow := h.follow hactive rfl hcases
  have hhappened : v.session.happened (v.session.follow r stride).1 stride.sent (.walk fresh) =
      if stride.walk.state.step = st.step then [] else [.worked r.id] := by
    rw [Session.happened, hactive]
    rfl
  rw [hhappened]
  rcases hcases with honward | ⟨-, rfl⟩
  · split
    · simpa using hfollow
    · exact hfollow.works (r := r) rfl honward.stage
  · simpa [Walk.state] using hfollow

theorem answered (h : Kept v) {outcome : Except Error Json} {id : String} {stride : Stride}
    (hactive : v.session.active = some (r, .walking (.recalling id rest st)))
    (hstride : Walk.answer outcome (.recalling id rest st) = stride) :
    Kept { v with
      session := (v.session.follow r stride).1
      log := v.log ++ v.session.happened (v.session.follow r stride).1 stride.sent (.answer outcome) } := by
  have honward : stride.Onward (Stage.walking (.recalling id rest st)).rest := by
    subst hstride
    exact ⟨rfl, rfl, List.Subset.refl _⟩
  have hfollow := h.follow hactive rfl (.inl honward)
  rw [Session.happened, hactive]
  exact hfollow.works (r := r) rfl honward.stage

/-- Whatever step is taken, what happens to runs is as the tokens say. -/
theorem step (h : Kept v) (hadvanced : Session.Advanced v.session v.disk workspace x t e sent) :
    Kept { v with session := t, disk := e, log := v.log ++ v.session.happened t sent x } := by
  cases hadvanced with
  | entered free waits => exact h.enter free waits
  | walked active goes => exact h.walked active goes
  | answered active goes => exact h.answered active goes
  | @gaveUp r id rest st active cancelled =>
    have hgoes := h.goes (.walking (.ready rest st)) v.session.state v.disk active
      (List.Subset.refl _) nofun nofun
    simpa [Session.happened] using hgoes
  | @saved now r outcome st c e active appended =>
    have hsame : (Stage.saved outcome (c.toOption.map Checkpoint.index)).isCancelled =
        (Stage.walking (.ended outcome st)).isCancelled := by
      cases outcome <;> rfl
    have hcancelled := (h.stands r _ active).cancelled
    rw [← hsame] at hcancelled
    have hgoes := h.goes (.saved outcome _) st e active (List.nil_subset _) hcancelled fun hc => hsame.trans hc
    simpa [Session.happened] using hgoes
  | @told r outcome index active =>
    have hfinish := h.finish active
    rw [← contains_done v.session] at hfinish
    simpa [Session.happened, active] using hfinish

theorem take (h : Kept v) (i : Incident) : Kept (v.take workspace i) := by
  cases i with
  | knock text =>
    unfold Vigil.take
    dsimp only
    split
    · exact { h with }
    · exact h
  | accept place =>
    unfold Vigil.take
    dsimp only
    split
    · exact h.accept _ _
    · exact h
  | cancel => exact h.cancel
  | halt => exact ⟨h.books, h.tokens, h.spent, h.nodes, fun r stage hactive =>
      let hstance := h.stands r stage hactive
      ⟨hstance.rest, hstance.cancelled, hstance.overtaken⟩⟩
  | step x =>
    unfold Vigil.take
    dsimp only
    split
    · rename_i hadvance
      exact h.step (Session.advanced hadvance)
    · exact h

theorem play (h : Kept v) (incidents : List Incident) : Kept (v.play workspace incidents) := by
  induction incidents generalizing v with
  | nil => exact h
  | cons i rest ih => exact ih (h.take i)

end Kept

/-! ### Runs that no cancel has reached -/

namespace Session

/-- A session in which nothing was ever cancelled. -/
def unspent (s : Session) : Session := { s with spent := [] }

theorem unspent_isCancelled (s : Session) (r : Run) : s.unspent.isCancelled r = false := rfl

/-- A run that is not cancelled takes the steps that it would take if nothing had ever been cancelled. -/
theorem advance_unspent (hrest : ∀ r stage, s.active = some (r, stage) → .cancel ∉ stage.rest)
    (hfree : ∀ r, s.mover x = some r → s.isCancelled r = false) :
    s.advance d workspace x = (s.unspent.advance d workspace x).map
      fun (t, e, sent) => ({ t with spent := s.spent }, e, sent) := by
  obtain ⟨id, nodes, state, stopped, token, spent, count, queue, active⟩ := s
  cases x with
  | enter r =>
    have hr := hfree r rfl
    simp only [advance, enter, hr, unspent_isCancelled]
    unfold unspent
    split
    · rfl
    · rfl
  | walk fresh =>
    rcases active with _ | ⟨r, (⟨rest, st⟩ | _ | _) | _⟩
    case walk.some.walking.ready =>
      have hr := hfree r rfl
      have hcancels : (Walk.step id fresh false (.ready rest st)).cancels = false := by
        obtain honward | ⟨hcancelled, -⟩ := step_cases id fresh false (hrest r _ rfl) st
        · exact honward.cancels
        · cases hcancelled
      simp only [advance, walk, hr, unspent_isCancelled]
      simp [unspent, follow, hcancels]
    all_goals rfl
  | answer outcome => rcases active with _ | ⟨r, (_ | ⟨call, rest, st⟩ | _) | _⟩ <;> rfl
  | giveUp =>
    rcases active with _ | ⟨r, (_ | ⟨call, rest, st⟩ | _) | _⟩
    case giveUp.some.walking.recalling =>
      have hr := hfree r rfl
      simp only [advance, giveUp, hr, unspent_isCancelled]
      rfl
    all_goals rfl
  | save now => rcases active with _ | ⟨r, (_ | _ | ⟨outcome, st⟩) | _⟩ <;> rfl
  | tell => rcases active with _ | ⟨r, (_ | _ | _) | ⟨outcome, index⟩⟩ <;> rfl

end Session

end Fleet.Graph
