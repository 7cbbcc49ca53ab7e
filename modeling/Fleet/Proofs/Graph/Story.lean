import Fleet.Proofs.Graph.Course
import Mathlib.Data.List.Nodup

/-!
State, checkpoints, reports and events tell one story. Every run that was accepted has one checkpoint
and then one last event, and the conversation is what the runs have added to it, in the order of their
checkpoints.
-/

namespace Fleet.Graph

open End (remembered)

variable {log log' : List Note} {spent spent' : Bool} {r : Run} {before : List ChatMessage}
  {walk : Walk} {rest : List Node} {st : State}

/-- Where a run stands that has the state, when `before` was said before it. -/
inductive Walks (log : List Note) (spent : Bool) (r : Run) (before : List ChatMessage) : Walk → Prop
  | fresh {st : State} (messages : st.messages = before ++ [.user r.message]) :
    Walks log spent r before (.ready standard st)
  | recalling {id : String} {st : State} (messages : st.messages = before ++ [.user r.message])
    (memory : st.memory = []) : Walks log spent r before (.recalling id [.respond] st)
  | recalled {st : State} {outcome : Except Error Json}
    (messages : st.messages = before ++ [.user r.message])
    (asked : Note.recalled r outcome ∈ log) (memory : st.memory = remembered outcome) :
    Walks log spent r before (.ready [.respond] st)
  | gaveUp {st : State} (messages : st.messages = before ++ [.user r.message])
    (cancelled : spent = true) : Walks log spent r before (.ready [.respond] st)
  | replied {st : State} {outcome : Except Error Json} (asked : Note.recalled r outcome ∈ log)
    (messages : st.messages =
      before ++ [.user r.message, .assistant (Node.replyText r.message (remembered outcome))]) :
    Walks log spent r before (.ready [] st)
  | completed {st : State} {outcome : Except Error Json} (asked : Note.recalled r outcome ∈ log)
    (messages : st.messages =
      before ++ [.user r.message, .assistant (Node.replyText r.message (remembered outcome))]) :
    Walks log spent r before (.ended .completed st)
  | cancelled {st : State} (messages : st.messages = before ++ [.user r.message])
    (cancelled : spent = true) : Walks log spent r before (.ended .cancelled st)

theorem Walks.mono (h : Walks log spent r before walk) (hlog : log ⊆ log')
    (hspent : spent = true → spent' = true) : Walks log' spent' r before walk := by
  cases h with
  | fresh messages => exact .fresh messages
  | recalling messages memory => exact .recalling messages memory
  | recalled messages asked memory => exact .recalled messages (hlog asked) memory
  | gaveUp messages cancelled => exact .gaveUp messages (hspent cancelled)
  | replied asked messages => exact .replied (hlog asked) messages
  | completed asked messages => exact .completed (hlog asked) messages
  | cancelled messages cancelled => exact .cancelled messages (hspent cancelled)

/-- What was pushed last is what the user said last. -/
theorem lastUserMessage_of_messages (messages : st.messages = before ++ [.user r.message]) :
    st.lastUserMessage = some r.message := by
  unfold State.lastUserMessage
  rw [messages, List.reverse_append]
  rfl

/-- A stride that does not end the run and leaves its token alone. -/
structure Stride.Quiet (t : Stride) : Prop where
  cancels : t.cancels = false
  sent : t.sent.any Sent.isTerminal = false

theorem run_search (id fresh : String) (rest : List Node) (limit : Nat) {text : String}
    (hlast : st.lastUserMessage = some text) :
    let t := Node.run id fresh rest st (.search limit)
    t.walk = .recalling fresh rest { st with memory := [] } ∧ t.Quiet := by
  have hcleared : ({ st with memory := [] } : State).lastUserMessage = some text := hlast
  simp only [Node.run, hcleared]
  exact ⟨trivial, rfl, rfl⟩

theorem run_respond (id fresh : String) (rest : List Node) {text : String}
    (hlast : st.lastUserMessage = some text) :
    let t := Node.run id fresh rest st .respond
    t.walk = .ready rest (st.push (.assistant (Node.replyText text st.memory))) ∧ t.Quiet := by
  simp only [Node.run, hlast]
  exact ⟨rfl, rfl, rfl⟩

theorem step_node (id fresh : String) (n : Node) (rest : List Node) (st : State) :
    Walk.step id fresh false (.ready (n :: rest) st) =
      n.run id fresh rest { st with step := (st.step + 1) % bitBound 64 } := by
  simp only [Walk.step]
  rfl

theorem Walks.step {id fresh : String} (h : Walks log spent r before (.ready rest st)) :
    let t := Walk.step id fresh spent (.ready rest st)
    Walks log spent r before t.walk ∧ t.Quiet := by
  cases h with
  | fresh messages =>
    cases spent with
    | true => exact ⟨.cancelled messages rfl, rfl, rfl⟩
    | false =>
      have hlast : ({ st with step := (st.step + 1) % bitBound 64 } : State).lastUserMessage =
          some r.message := lastUserMessage_of_messages messages
      obtain ⟨hwalk, hquiet⟩ := run_search id fresh [.respond] 3 hlast
      rw [standard, step_node]
      refine ⟨?_, hquiet⟩
      rw [hwalk]
      exact .recalling messages rfl
  | recalled messages asked memory =>
    cases spent with
    | true => exact ⟨.cancelled messages rfl, rfl, rfl⟩
    | false =>
      have hlast : ({ st with step := (st.step + 1) % bitBound 64 } : State).lastUserMessage =
          some r.message := lastUserMessage_of_messages messages
      obtain ⟨hwalk, hquiet⟩ := run_respond id fresh [] hlast
      rw [step_node]
      refine ⟨?_, hquiet⟩
      rw [hwalk]
      refine .replied asked ?_
      unfold State.push
      dsimp only
      rw [messages, memory, List.append_assoc]
      rfl
  | gaveUp messages cancelled =>
    subst cancelled
    exact ⟨.cancelled messages rfl, rfl, rfl⟩
  | replied asked messages => exact ⟨.completed asked messages, rfl, rfl⟩

theorem Walks.answer {id : String} {outcome : Except Error Json}
    (h : Walks log spent r before (.recalling id rest st)) :
    let t := Walk.answer outcome (.recalling id rest st)
    Walks (log ++ [.recalled r outcome, .told r t.sent]) spent r before t.walk ∧ t.Quiet := by
  cases h with
  | recalling messages memory =>
    cases outcome with
    | ok v =>
      refine ⟨.recalled messages (List.mem_append_right _ List.mem_cons_self) rfl, rfl, rfl⟩
    | error cause =>
      refine ⟨.recalled messages (List.mem_append_right _ List.mem_cons_self) memory, rfl, rfl⟩

/-! ### The account of all runs -/

/-- The runs that have no checkpoint yet. -/
def Session.pending (s : Session) : List Run :=
  (match s.active with
    | some (r, .walking _) => [r]
    | _ => []) ++ s.queue

/-- How far the last run has come, and what is noted of those before it. -/
inductive Stands (spoken : List ChatMessage) (ends : List End) (w : Course) : Prop
  | idle (active : w.session.active = none) (closed : w.log.filter Note.closes = ends.flatMap End.notes)
  | walking {r : Run} {walk : Walk} (active : w.session.active = some (r, .walking walk))
    (walks : Walks w.log (w.session.isCancelled r) r spoken walk)
    (closed : w.log.filter Note.closes = ends.flatMap End.notes)
  | saved {earlier : List End} {e : End} {outcome : Outcome} (last : ends = earlier ++ [e])
    (active : w.session.active = some (e.run, .saved outcome (some e.checkpoint.index)))
    (event : outcome.event = e.event) (state : w.session.state = e.checkpoint.state)
    (session : w.session.id = e.checkpoint.sessionId)
    (closed : w.log.filter Note.closes =
      earlier.flatMap End.notes ++ [.wrote e.run (.ok e.checkpoint)])

/-- The account of a session that started from a state, on a disk where `first` was the largest number. -/
structure Account (id : String) (workspace : Path) (start : State) (first : Nat) (ends : List End)
    (w : Course) : Prop where
  session : w.session.id = id
  nodes : w.session.nodes = standard
  known : ∀ r ∈ accepted w.log, r.id < w.session.count
  distinct : ((accepted w.log).map Run.id).Nodup
  runs : (ends.map End.run ++ w.session.pending).Perm (accepted w.log)
  right : ∀ e ∈ ends, e.Right w
  indices : ∀ k e, ends[k]? = some e → first + k + 1 < bitBound 64 →
    e.checkpoint.index = first + k + 1
  newest : first + ends.length < bitBound 64 →
    Checkpoint.newest w.disk (sessionRoot workspace id) = first + ends.length
  states : ∀ k e, ends[k]? = some e →
    e.checkpoint.state.messages = start.messages ++ (ends.take (k + 1)).flatMap End.messages
  state : w.session.state.messages = start.messages ++ ends.flatMap End.messages
  stands : Stands (start.messages ++ ends.flatMap End.messages) ends w

variable {id : String} {workspace : Path} {start : State} {first : Nat} {ends : List End}
  {w : Course} {t : Session} {d e : Disk} {sent : List Sent} {notes : List Note}
  {spoken : List ChatMessage}

theorem accepted_append (log notes : List Note) :
    accepted (log ++ notes) = accepted log ++ accepted notes :=
  List.filterMap_append

theorem accepted_of_nobody (nobody : accepted notes = []) :
    accepted (log ++ notes) = accepted log := by
  rw [accepted_append, nobody, List.append_nil]

theorem account_start (id : String) (workspace : Path) (start : State) (d : Disk) :
    Account id workspace start (Checkpoint.newest d (sessionRoot workspace id)) []
      { session := { id := id, state := start }, disk := d } := by
  refine ⟨rfl, rfl, ?_, List.nodup_nil, .nil, ?_, ?_, ?_, ?_, ?_, .idle rfl rfl⟩
  · intro r hr
    cases hr
  · intro e he
    cases he
  · intro k e he
    cases he
  · exact fun _ => (Nat.add_zero _).symm
  · intro k e he
    cases he
  · exact (List.append_nil _).symm

theorem Session.isCancelled_mono (h : w.session.spent ⊆ t.spent)
    (cancelled : w.session.isCancelled r = true) : t.isCancelled r = true :=
  List.contains_iff_mem.mpr (h (List.contains_iff_mem.mp cancelled))

theorem End.Right.mono {e : End} {w' : Course} (h : e.Right w) (hlog : w.log ⊆ w'.log)
    (hspent : w.session.spent ⊆ w'.session.spent) : e.Right w' := by
  cases h with
  | completed outcome status event recalled reply =>
    exact .completed outcome status event (hlog recalled) reply
  | cancelled status event reply spent =>
    exact .cancelled status event reply (Session.isCancelled_mono hspent spent)

/-- What is noted while no checkpoint is written leaves the account of the runs before as it is. -/
theorem Account.onward (h : Account id workspace start first ends w)
    (session : t.id = w.session.id) (nodes : t.nodes = w.session.nodes)
    (state : t.state = w.session.state) (spent : w.session.spent ⊆ t.spent)
    (known : ∀ r ∈ accepted (w.log ++ notes), r.id < t.count)
    (distinct : ((accepted (w.log ++ notes)).map Run.id).Nodup)
    (runs : (ends.map End.run ++ t.pending).Perm (accepted (w.log ++ notes)))
    (stands : Stands (start.messages ++ ends.flatMap End.messages) ends
      ⟨t, w.disk, w.log ++ notes⟩) :
    Account id workspace start first ends ⟨t, w.disk, w.log ++ notes⟩ where
  session := session.trans h.session
  nodes := nodes.trans h.nodes
  known := known
  distinct := distinct
  runs := runs
  right x hx := (h.right x hx).mono (List.subset_append_left _ _) spent
  indices := h.indices
  newest := h.newest
  states := h.states
  state := state ▸ h.state
  stands := stands

/-- Where a session stands does not depend on who waits and on what is noted beside. -/
theorem Stands.carry (h : Stands spoken ends w) (active : t.active = w.session.active)
    (state : t.state = w.session.state) (session : t.id = w.session.id)
    (spent : w.session.spent ⊆ t.spent) (hnotes : notes.filter Note.closes = []) :
    Stands spoken ends ⟨t, w.disk, w.log ++ notes⟩ := by
  have hclosed : (w.log ++ notes).filter Note.closes = w.log.filter Note.closes := by
    rw [List.filter_append, hnotes, List.append_nil]
  cases h with
  | idle free closed => exact .idle (active.trans free) (hclosed.trans closed)
  | @walking r walk holds walks closed =>
    refine .walking (active.trans holds) ?_ (hclosed.trans closed)
    exact walks.mono (List.subset_append_left _ _) (Session.isCancelled_mono spent)
  | saved last holds event written whose closed =>
    exact .saved last (active.trans holds) event (state.trans written) (session.trans whose)
      (hclosed.trans closed)

theorem Account.message {text : String} (h : Account id workspace start first ends w)
    (haccept : w.session.accept text = .ok t) :
    Account id workspace start first ends ⟨t, w.disk,
      w.log ++ [.accepted ⟨w.session.count, w.session.token, text⟩]⟩ := by
  obtain ⟨-, rfl⟩ := Session.accept_ok haccept
  have haccepted : accepted (w.log ++ [.accepted ⟨w.session.count, w.session.token, text⟩]) =
      accepted w.log ++ [⟨w.session.count, w.session.token, text⟩] := accepted_append _ _
  refine h.onward rfl rfl rfl (List.Subset.refl _) ?_ ?_ ?_ ?_
  · rw [haccepted]
    intro r hr
    rcases List.mem_append.mp hr with hr | hr
    · exact Nat.lt_succ_of_lt (h.known r hr)
    · rw [List.mem_singleton.mp hr]
      exact Nat.lt_succ_self _
  · rw [haccepted, List.map_append]
    refine List.nodup_append.mpr ⟨h.distinct, List.nodup_singleton _, ?_⟩
    intro i hi j hj heq
    obtain ⟨r, hr, rfl⟩ := List.mem_map.mp hi
    have hlt := h.known r hr
    rw [heq, List.mem_singleton.mp hj] at hlt
    exact Nat.lt_irrefl _ hlt
  · have hpending : (ends.map End.run ++ w.session.pending) ++
        [⟨w.session.count, w.session.token, text⟩] = ends.map End.run ++
        ({ w.session with
          queue := w.session.queue ++ [⟨w.session.count, w.session.token, text⟩]
          count := w.session.count + 1 } : Session).pending := by
      unfold Session.pending
      simp only [List.append_assoc]
    rw [haccepted, ← hpending]
    exact h.runs.append_right _
  · exact h.stands.carry rfl rfl rfl (List.Subset.refl _) rfl

/-- While no message is accepted, the runs before and those that are left are the same. -/
theorem Account.aside (h : Account id workspace start first ends w) (session : t.id = w.session.id)
    (nodes : t.nodes = w.session.nodes) (state : t.state = w.session.state)
    (spent : w.session.spent ⊆ t.spent) (count : t.count = w.session.count)
    (pending : t.pending.Perm w.session.pending) (nobody : accepted notes = [])
    (stands : Stands (start.messages ++ ends.flatMap End.messages) ends
      ⟨t, w.disk, w.log ++ notes⟩) :
    Account id workspace start first ends ⟨t, w.disk, w.log ++ notes⟩ := by
  have haccepted : accepted (w.log ++ notes) = accepted w.log := accepted_of_nobody nobody
  refine h.onward session nodes state spent ?_ ?_ ?_ stands
  · rw [haccepted, count]
    exact h.known
  · rw [haccepted]
    exact h.distinct
  · rw [haccepted]
    exact (pending.append_left _).trans h.runs

theorem pending_of_free (free : t.active = none) : t.pending = t.queue := by
  unfold Session.pending
  rw [free]
  rfl

theorem pending_of_walking (active : t.active = some (r, .walking walk)) :
    t.pending = r :: t.queue := by
  unfold Session.pending
  rw [active]
  rfl

theorem pending_of_saved {outcome : Outcome} {index : Option Nat}
    (active : t.active = some (r, .saved outcome index)) : t.pending = t.queue := by
  unfold Session.pending
  rw [active]
  rfl

/-- A cancel changes which tokens are spent. -/
theorem Account.spend (h : Account id workspace start first ends w) (token : Nat) (spent : List Nat)
    (stopped : Bool) (hspent : w.session.spent ⊆ spent) :
    Account id workspace start first ends
      { w with session := { w.session with token := token, spent := spent, stopped := stopped } } := by
  have hquiet : Account id workspace start first ends
      ⟨{ w.session with token := token, spent := spent, stopped := stopped }, w.disk, w.log ++ []⟩ :=
    h.aside rfl rfl rfl hspent rfl (List.Perm.refl _) rfl (h.stands.carry rfl rfl rfl hspent rfl)
  rw [List.append_nil] at hquiet
  exact hquiet

/-- The run that holds the state goes on and does not end. -/
theorem Account.goes (h : Account id workspace start first ends w) (session : t.id = w.session.id)
    (nodes : t.nodes = w.session.nodes) (state : t.state = w.session.state)
    (spent : w.session.spent ⊆ t.spent) (count : t.count = w.session.count)
    (pending : t.pending.Perm w.session.pending) (active : t.active = some (r, .walking walk))
    (closed : w.log.filter Note.closes = ends.flatMap End.notes)
    (quiet : notes.filter Note.closes = []) (nobody : accepted notes = [])
    (walks : Walks (w.log ++ notes) (t.isCancelled r) r
      (start.messages ++ ends.flatMap End.messages) walk) :
    Account id workspace start first ends ⟨t, w.disk, w.log ++ notes⟩ := by
  refine h.aside session nodes state spent count pending nobody (.walking active walks ?_)
  rw [List.filter_append, quiet, List.append_nil]
  exact closed

/-- A run that holds the state and has not ended. -/
theorem Account.walks (h : Account id workspace start first ends w)
    (active : w.session.active = some (r, .walking walk)) :
    Walks w.log (w.session.isCancelled r) r (start.messages ++ ends.flatMap End.messages) walk ∧
      w.log.filter Note.closes = ends.flatMap End.notes := by
  cases h.stands with
  | idle free closed => cases free.symm.trans active
  | walking holds walks closed =>
    cases holds.symm.trans active
    exact ⟨walks, closed⟩
  | saved last holds event written whose closed => cases holds.symm.trans active

/-- While nobody has the state, all ends are told. -/
theorem Account.closed (h : Account id workspace start first ends w)
    (free : w.session.active = none) : w.log.filter Note.closes = ends.flatMap End.notes := by
  cases h.stands with
  | idle free closed => exact closed
  | walking holds walks closed => exact closed
  | saved last holds event written whose closed => cases holds.symm.trans free

theorem Account.entered (h : Account id workspace start first ends w)
    (free : w.session.active = none) (waits : r ∈ w.session.queue) :
    Account id workspace start first ends ⟨{ w.session with
      queue := w.session.queue.filter (· ≠ r)
      active := some (r, .walking (if w.session.isCancelled r then
        .ended .cancelled (w.session.state.push (.user r.message))
        else .ready w.session.nodes (w.session.state.push (.user r.message)))) },
      w.disk, w.log ++ []⟩ := by
  have hpending : w.session.pending = w.session.queue := pending_of_free free
  have hnodup : w.session.queue.Nodup := by
    have hruns := h.runs.nodup_iff.mpr h.distinct.of_map
    rw [hpending] at hruns
    exact (List.nodup_append.mp hruns).2.1
  have hmessages : (w.session.state.push (.user r.message)).messages =
      start.messages ++ ends.flatMap End.messages ++ [.user r.message] := by
    rw [← h.state]
    rfl
  refine h.goes rfl rfl rfl (List.Subset.refl _) rfl ?_ rfl (h.closed free) rfl rfl ?_
  · have hrest : w.session.queue.filter (· ≠ r) = w.session.queue.erase r := by
      rw [hnodup.erase_eq_filter]
      exact List.filter_congr fun q _ => by simp [bne, beq_eq_decide]
    rw [hpending, pending_of_walking rfl]
    exact hrest ▸ (List.perm_cons_erase waits).symm
  · split
    · rename_i hcancelled
      exact .cancelled hmessages hcancelled
    · rw [h.nodes]
      exact .fresh hmessages

theorem Account.strode {stride : Stride} {notes : List Note}
    (h : Account id workspace start first ends w)
    (active : w.session.active = some (r, .walking walk)) (quiet : stride.cancels = false)
    (unclosed : notes.filter Note.closes = []) (nobody : accepted notes = [])
    (walks : Walks (w.log ++ notes) (w.session.isCancelled r) r
      (start.messages ++ ends.flatMap End.messages) stride.walk) :
    Account id workspace start first ends ⟨(w.session.follow r stride).1, w.disk, w.log ++ notes⟩ := by
  have hfollow : (w.session.follow r stride).1 =
      { w.session with active := some (r, .walking stride.walk) } := by
    unfold Session.follow
    rw [quiet]
    rfl
  rw [hfollow]
  refine h.goes rfl rfl rfl (List.Subset.refl _) rfl ?_ rfl (h.walks active).2 unclosed nobody walks
  rw [pending_of_walking active, pending_of_walking rfl]

/-- What a run is told that goes on. -/
theorem Stride.Quiet.unclosed {stride : Stride} (h : stride.Quiet) (r : Run) :
    [Note.told r stride.sent].filter Note.closes = [] :=
  List.filter_cons_of_neg (by simp [Note.closes, h.sent])

theorem Account.gaveUp {call : String} (h : Account id workspace start first ends w)
    (active : w.session.active = some (r, .walking (.recalling call rest st)))
    (cancelled : w.session.isCancelled r = true) :
    Account id workspace start first ends
      ⟨{ w.session with active := some (r, .walking (.ready rest st)) }, w.disk, w.log ++ []⟩ := by
  obtain ⟨hwalks, hclosed⟩ := h.walks active
  refine h.goes rfl rfl rfl (List.Subset.refl _) rfl ?_ rfl hclosed rfl rfl ?_
  · rw [pending_of_walking active, pending_of_walking rfl]
  · cases hwalks with
    | recalling messages memory => exact .gaveUp messages cancelled

/-- A run that is over was completed or cancelled. -/
theorem Walks.ended {outcome : Outcome} {c : Checkpoint}
    (h : Walks w.log (w.session.isCancelled r) r before (.ended outcome st))
    (status : c.status = outcome.status) :
    ∃ reply, (End.mk r c outcome.event reply).Right w ∧
      st.messages = before ++ (End.mk r c outcome.event reply).messages := by
  cases h with
  | completed asked messages => exact ⟨some _, .completed _ status rfl asked rfl, messages⟩
  | cancelled messages cancelled => exact ⟨none, .cancelled status rfl rfl cancelled, messages⟩

/-- An end in the account is an earlier one or the last. -/
theorem getElem?_concat_eq_some {k : Nat} {x y : End} (h : (ends ++ [x])[k]? = some y) :
    (k < ends.length ∧ ends[k]? = some y) ∨ (k = ends.length ∧ y = x) := by
  rcases Nat.lt_trichotomy k ends.length with hlt | rfl | hgt
  · rw [List.getElem?_append_left hlt] at h
    exact .inl ⟨hlt, h⟩
  · rw [List.getElem?_concat_length] at h
    exact .inr ⟨rfl, (Option.some.inj h).symm⟩
  · rw [List.getElem?_eq_none (by rw [List.length_append, List.length_singleton]; omega)] at h
    cases h

/-- A checkpoint that was written closes the account of its run but for telling it. -/
theorem Account.saved {outcome : Outcome} {now : Instant} {c : Checkpoint}
    (h : Account id workspace start first ends w)
    (active : w.session.active = some (r, .walking (.ended outcome st)))
    (appended : Checkpoint.append w.disk (sessionRoot workspace w.session.id) w.session.id
      outcome.status st outcome.failure now = (.ok c, e)) :
    ∃ ends', Account id workspace start first ends'
      ⟨{ w.session with state := st, active := some (r, .saved outcome (some c.index)) }, e,
        w.log ++ [.wrote r (.ok c)]⟩ := by
  obtain ⟨hwalks, hclosed⟩ := h.walks active
  obtain ⟨hc, hnewest⟩ := Checkpoint.append_ok appended
  rw [h.session] at hc hnewest
  have hstate : c.state = st := by rw [hc]
  obtain ⟨reply, hright, hmessages⟩ := hwalks.ended (show c.status = outcome.status by rw [hc])
  generalize hlast : End.mk r c outcome.event reply = last at hright hmessages
  have hcheckpoint : last.checkpoint = c := by rw [← hlast]
  have haccepted : accepted (w.log ++ [.wrote r (.ok c)]) = accepted w.log :=
    accepted_of_nobody rfl
  have hholds : some (r, Stage.saved outcome (some c.index)) =
      some (last.run, .saved outcome (some last.checkpoint.index)) := by rw [← hlast]
  have hspoken : st.messages = start.messages ++ (ends ++ [last]).flatMap End.messages := by
    rw [hmessages, List.flatMap_append, List.flatMap_singleton, List.append_assoc]
  refine ⟨ends ++ [last], h.session, h.nodes, ?_, ?_, ?_, ?_, ?_, ?_, ?_, hspoken, ?_⟩
  · rw [haccepted]
    exact h.known
  · rw [haccepted]
    exact h.distinct
  · have hruns := h.runs
    rw [pending_of_walking active] at hruns
    rw [haccepted, List.map_append, List.append_assoc, ← hlast]
    exact hruns
  · intro x hx
    rcases List.mem_append.mp hx with hx | hx
    · exact (h.right x hx).mono (List.subset_append_left _ _) (List.Subset.refl _)
    · rw [List.mem_singleton.mp hx]
      exact hright.mono (List.subset_append_left _ _) (List.Subset.refl _)
  · intro k x hx hlt
    rcases getElem?_concat_eq_some hx with ⟨_, hx⟩ | ⟨rfl, rfl⟩
    · exact h.indices k x hx hlt
    · have hbefore := h.newest (by omega)
      rw [hcheckpoint, hc]
      dsimp only
      rw [hbefore, Nat.mod_eq_of_lt hlt]
  · intro hlt
    rw [List.length_append, List.length_singleton] at hlt ⊢
    have hbefore := h.newest (by omega)
    rw [hnewest (by omega), hbefore, Nat.add_assoc]
  · intro k x hx
    rcases getElem?_concat_eq_some hx with ⟨hk, hx⟩ | ⟨rfl, rfl⟩
    · rw [List.take_append_of_le_length hk]
      exact h.states k x hx
    · rw [hcheckpoint, hstate, List.take_of_length_le (by rw [List.length_append]; rfl)]
      exact hspoken
  · refine .saved rfl hholds ?_ ?_ ?_ ?_
    · rw [← hlast]
    · rw [hcheckpoint, hstate]
    · rw [hcheckpoint, hc]
      exact h.session
    · rw [List.filter_append, hclosed, ← hlast]
      rfl

/-- The end of the last run is told after its checkpoint. -/
theorem Account.told {outcome : Outcome} {index : Option Nat}
    (h : Account id workspace start first ends w)
    (active : w.session.active = some (r, .saved outcome index)) :
    Account id workspace start first ends ⟨{ w.session with active := none }, w.disk,
      w.log ++ [.told r ((index.map w.session.snapshot).toList ++ [.event outcome.event])]⟩ := by
  cases h.stands with
  | idle free closed => cases free.symm.trans active
  | walking holds walks closed => cases holds.symm.trans active
  | @saved earlier last _ hends holds event state session closed =>
    cases holds.symm.trans active
    have hsnapshot : w.session.snapshot last.checkpoint.index = last.snapshot := by
      unfold Session.snapshot End.snapshot
      rw [state, session]
    have hterminal : last.event.isTerminal = true := by
      cases h.right last (hends ▸ List.mem_append_right _ List.mem_cons_self) with
      | completed outcome status event recalled reply => rw [event]; rfl
      | cancelled status event reply spent => rw [event]; rfl
    have hsent : ((some last.checkpoint.index).map w.session.snapshot).toList ++
        [.event outcome.event] = [last.snapshot, .event last.event] := by
      rw [event, ← hsnapshot]
      rfl
    rw [hsent]
    refine h.aside rfl rfl rfl (List.Subset.refl _) rfl ?_ rfl (.idle rfl ?_)
    · rw [pending_of_free rfl, pending_of_saved holds]
    · rw [List.filter_append, closed, hends, List.flatMap_append, List.flatMap_singleton,
        List.append_assoc]
      congr 1
      simp [Note.closes, Sent.isTerminal, hterminal, End.notes]

theorem Account.advanced {x : Step} (h : Account id workspace start first ends w)
    (hadvanced : Session.Advanced w.session w.disk workspace x t e sent)
    (written : Course.Written (w.log ++ w.session.notes w.disk workspace sent x)) :
    ∃ ends', Account id workspace start first ends'
      ⟨t, e, w.log ++ w.session.notes w.disk workspace sent x⟩ := by
  cases hadvanced with
  | entered free waits => exact ⟨ends, h.entered free waits⟩
  | walked active goes =>
    subst goes
    obtain ⟨hwalks, hquiet⟩ := (h.walks active).1.step
    refine ⟨ends, ?_⟩
    simp only [Session.notes, active]
    exact h.strode active hquiet.cancels (hquiet.unclosed _) rfl
      (hwalks.mono (List.subset_append_left _ _) fun hspent => hspent)
  | @answered _ r _ _ _ _ active goes =>
    subst goes
    obtain ⟨hwalks, hquiet⟩ := (h.walks active).1.answer
    refine ⟨ends, ?_⟩
    simp only [Session.notes, active]
    exact h.strode active hquiet.cancels (hquiet.unclosed r) rfl hwalks
  | gaveUp active cancelled => exact ⟨ends, h.gaveUp active cancelled⟩
  | @saved _ r _ _ c _ active appended =>
    simp only [Session.notes, active, appended] at written ⊢
    cases c with
    | ok c => exact h.saved active appended
    | error cause =>
      cases written (.wrote r (.error cause)) (List.mem_append_right _ List.mem_cons_self)
  | told active =>
    refine ⟨ends, ?_⟩
    simp only [Session.notes, active]
    exact h.told active

/-! ### Runs of a session -/

open Course (Written take play)

theorem log_prefix_take (w : Course) (turn : Turn) : w.log <+: (take workspace w turn).log := by
  cases turn with
  | message text =>
    simp only [take]
    split
    · exact List.prefix_append _ _
    · exact List.prefix_refl _
  | cancel => exact List.prefix_refl _
  | stop => exact List.prefix_refl _
  | step x =>
    simp only [take]
    split
    · exact List.prefix_append _ _
    · exact List.prefix_refl _

theorem log_prefix_play (turns : List Turn) (w : Course) : w.log <+: (play workspace turns w).log := by
  induction turns generalizing w with
  | nil => exact List.prefix_refl _
  | cons turn turns ih => exact (log_prefix_take w turn).trans (ih _)

theorem Account.take (h : Account id workspace start first ends w) (turn : Turn)
    (written : Written (take workspace w turn).log) :
    ∃ ends', Account id workspace start first ends' (take workspace w turn) := by
  cases turn with
  | message text =>
    refine ⟨ends, ?_⟩
    simp only [Course.take]
    split
    · rename_i t haccept
      exact h.message haccept
    · exact h
  | cancel => exact ⟨ends, h.spend _ _ _ (List.subset_cons_self _ _)⟩
  | stop => exact ⟨ends, h.spend _ _ _ (List.subset_cons_self _ _)⟩
  | step x =>
    simp only [Course.take] at written ⊢
    split at written
    · rename_i t e sent hadvance
      exact h.advanced (Session.advanced hadvance) written
    · exact ⟨ends, h⟩

theorem Account.play (h : Account id workspace start first ends w) (turns : List Turn)
    (written : Written (play workspace turns w).log) :
    ∃ ends', Account id workspace start first ends' (play workspace turns w) := by
  induction turns generalizing w ends with
  | nil => exact ⟨ends, h⟩
  | cons turn turns ih =>
    have hfirst : Written (Course.take workspace w turn).log := fun x hx =>
      written x ((log_prefix_play turns _).subset hx)
    obtain ⟨ends', h'⟩ := h.take turn hfirst
    exact ih h' written

theorem Account.story (h : Account id workspace start first ends w)
    (rest : w.session.runs = []) : Story workspace start first ends w := by
  obtain ⟨hactive, hqueue⟩ := List.append_eq_nil_iff.mp rest
  have hfree : w.session.active = none := by
    cases hholds : w.session.active with
    | none => rfl
    | some x =>
      rw [hholds] at hactive
      cases hactive
  have hpending : w.session.pending = [] := (pending_of_free hfree).trans hqueue
  have hruns := h.runs
  rw [hpending, List.append_nil] at hruns
  exact ⟨h.distinct.of_map, hruns, h.closed hfree, h.right, h.indices,
    h.session.symm ▸ h.newest, h.states, h.state⟩

end Fleet.Graph
