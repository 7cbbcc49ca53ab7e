import Fleet.Proofs.Machine.Calls
import Fleet.Proofs.Tables

/-!
What a client queues for the control plane. Its table of pending calls is the index of those that wait, and
what an act queues is no request but that of a call that waits; calls are named only on a new connection.
-/

namespace Fleet

namespace Frame

/-- Whether a frame names a call or makes it. -/
def Mentions (id : String) : Frame → Prop
  | .request call => call.id = id
  | .resume ids => id ∈ ids
  | _ => False

/-- The ids that a frame names, if that is what it is for. -/
def resumed? : Frame → Option (List String)
  | .resume ids => some ids
  | _ => none

end Frame

namespace Machine

namespace Outgoing

variable {o : Outgoing} {x : Except Error Json}

/-- The id of a call that waits. -/
def awaited? (o : Outgoing) : Option String :=
  match o.outcome? with
  | none => some o.call.id
  | some _ => none

theorem awaited?_eq_some {id : String} : o.awaited? = some id ↔ o.outcome? = none ∧ o.call.id = id := by
  unfold awaited?
  split <;> simp_all

theorem awaited?_of_ended (h : o.outcome? ≠ none) : o.awaited? = none := by
  unfold awaited?
  split
  · contradiction
  · rfl

@[simp] theorem finish_call : (o.finish x).call = o.call := by
  unfold finish
  split <;> rfl

theorem outcome?_finish : (o.finish x).outcome? ≠ none := by
  cases hs : o.state with
  | waiting => simp [finish, outcome?, hs]
  | ended y => simp [finish, outcome?, hs]

end Outgoing

namespace Client

/-- A frame that a client may queue on a connection that has been there: no call is named, and a request is
that of a call that waits. -/
def MayQueue (c : Client) : Frame → Prop
  | .request call => ∃ o ∈ c.outgoing, o.outcome? = none ∧ o.call = call
  | .resume _ => False
  | _ => True

/-- The pending calls are those that wait, no id is given twice, and frames are taken only on a connection
that has been welcomed. -/
structure Orderly (c : Client) : Prop where
  pending : c.pending = index Outgoing.awaited? c.outgoing
  ids : (c.outgoing.map fun o => o.call.id).Nodup
  live : c.connected = true → ∃ since period beat, c.stage = .live since period beat

/-- No call is made, and those that have ended stay as they are. -/
structure Lasts (c d : Client) : Prop where
  calls : d.outgoing.map Outgoing.call = c.outgoing.map Outgoing.call
  ended : ∀ (n : Nat) o, c.outgoing[n]? = some o → o.outcome? ≠ none → d.outgoing[n]? = some o

/-- Frames are queued behind those that are. -/
structure Queues (fs : List Frame) (c d : Client) : Prop where
  queue : d.queue = c.queue ++ fs
  connected : d.connected = c.connected
  lasts : c.Lasts d
  sends : ∀ f ∈ fs, c.MayQueue f
  orderly : d.Orderly

/-- Frames are taken off the queue or lost, and nothing happens to the calls. -/
structure Cuts (c d : Client) : Prop where
  queue : d.queue <:+ c.queue
  connected : d.connected = true → c.connected = true
  outgoing : d.outgoing = c.outgoing
  orderly : d.Orderly

/-- What an act does that makes no call and is no welcome. -/
structure Moves (fs : List Frame) (c d : Client) : Prop where
  added : d.queue.drop c.queue.length = fs
  connected : d.connected = true → c.connected = true
  lasts : c.Lasts d
  sends : ∀ f ∈ fs, c.MayQueue f
  orderly : d.Orderly

variable {c d e : Client} {f : Frame} {fs gs : List Frame} {n : Nat} {o : Outgoing} {id : String}

theorem awaited?_id (o : Outgoing) (id : String) (h : o.awaited? = some id) : id = o.call.id :=
  (Outgoing.awaited?_eq_some.mp h).2.symm

namespace Orderly

theorem mem_pending (ho : c.Orderly) : (id, n) ∈ c.pending ↔
    ∃ o, c.outgoing[n]? = some o ∧ o.outcome? = none ∧ o.call.id = id := by
  simp only [ho.pending, mem_index, Outgoing.awaited?_eq_some]

theorem lookup_pending (ho : c.Orderly) : c.pending.lookup id = some n ↔
    ∃ o, c.outgoing[n]? = some o ∧ o.outcome? = none ∧ o.call.id = id := by
  rw [← ho.mem_pending]
  apply lookup_eq_some_iff_mem
  rw [ho.pending]
  exact nodup_index awaited?_id ho.ids

/-- The id says which call it is. -/
theorem same (ho : c.Orderly) {p q : Outgoing} (hp : p ∈ c.outgoing) (hq : q ∈ c.outgoing)
    (h : p.call.id = q.call.id) : p = q :=
  List.inj_on_of_nodup_map ho.ids hp hq h

/-- Where neither calls nor what is pending change. -/
theorem of_same (ho : c.Orderly) (outgoing : d.outgoing = c.outgoing) (pending : d.pending = c.pending)
    (live : d.connected = true → ∃ since period beat, d.stage = .live since period beat) : d.Orderly :=
  ⟨by rw [pending, outgoing]; exact ho.pending, by rw [outgoing]; exact ho.ids, live⟩

end Orderly

theorem Lasts.refl (c : Client) : c.Lasts c := ⟨rfl, fun _ _ h _ => h⟩

theorem Lasts.of_eq (h : d.outgoing = c.outgoing) : c.Lasts d :=
  ⟨by rw [h], fun _ _ ho _ => by rw [h]; exact ho⟩

theorem Lasts.trans (h : c.Lasts d) (h' : d.Lasts e) : c.Lasts e :=
  ⟨h'.calls.trans h.calls, fun n o ho hx => h'.ended n o (h.ended n o ho hx) hx⟩

/-- A call that waits waited before. -/
theorem Lasts.waited (h : c.Lasts d) (hm : o ∈ d.outgoing) (hw : o.outcome? = none) :
    ∃ p ∈ c.outgoing, p.outcome? = none ∧ p.call = o.call := by
  obtain ⟨n, hn⟩ := List.getElem?_of_mem hm
  have hcall : (c.outgoing.map Outgoing.call)[n]? = some o.call := by
    rw [← h.calls, List.getElem?_map, hn, Option.map_some]
  rw [List.getElem?_map] at hcall
  obtain ⟨p, hp, hpc⟩ := Option.map_eq_some_iff.mp hcall
  refine ⟨p, List.mem_of_getElem? hp, ?_, hpc⟩
  by_contra hx
  obtain rfl := Option.some.inj ((h.ended n p hp hx).symm.trans hn)
  exact hx hw

theorem Lasts.mayQueue (h : c.Lasts d) (hf : d.MayQueue f) : c.MayQueue f := by
  cases f with
  | request call =>
    obtain ⟨o, hm, hw, rfl⟩ := hf
    exact h.waited hm hw
  | resume ids => exact hf
  | _ => trivial

theorem Queues.refl (ho : c.Orderly) : Queues [] c c :=
  ⟨(List.append_nil _).symm, rfl, .refl c, fun _ hf => (List.not_mem_nil hf).elim, ho⟩

theorem Queues.trans (h : Queues fs c d) (h' : Queues gs d e) : Queues (fs ++ gs) c e := by
  refine ⟨by rw [h'.queue, h.queue, List.append_assoc], h'.connected.trans h.connected,
    h.lasts.trans h'.lasts, fun f hf => ?_, h'.orderly⟩
  rcases List.mem_append.mp hf with hf | hf
  · exact h.sends f hf
  · exact h.lasts.mayQueue (h'.sends f hf)

/-- A change of what has no part in calls and frames. -/
theorem Queues.of_same (ho : c.Orderly) (queue : d.queue = c.queue) (connected : d.connected = c.connected)
    (outgoing : d.outgoing = c.outgoing) (pending : d.pending = c.pending)
    (live : d.connected = true → ∃ since period beat, d.stage = .live since period beat) : Queues [] c d :=
  ⟨by rw [queue, List.append_nil], connected, .of_eq outgoing, fun _ hf => (List.not_mem_nil hf).elim,
    ho.of_same outgoing pending live⟩

theorem Queues.moves (h : Queues fs c d) : Moves fs c d :=
  ⟨by rw [h.queue, List.drop_left], fun hd => h.connected.symm.trans hd, h.lasts, h.sends, h.orderly⟩

theorem Cuts.moves (h : c.Cuts d) : Moves [] c d :=
  ⟨List.drop_eq_nil_of_le h.queue.length_le, h.connected, .of_eq h.outgoing,
    fun _ hf => (List.not_mem_nil hf).elim, h.orderly⟩

/-! ### Calls end -/

theorem trySend_eq (c : Client) (f : Frame) :
    (c.send f).getD c = { c with queue := c.queue ++ if c.connected then [f] else [] } := by
  unfold send
  split <;> simp

theorem queues_trySend (ho : c.Orderly) (hf : c.MayQueue f) :
    Queues (if c.connected then [f] else []) c ((c.send f).getD c) := by
  rw [trySend_eq]
  refine ⟨rfl, rfl, .of_eq rfl, fun g hg => ?_, ho.of_same rfl rfl ho.live⟩
  split at hg
  · rw [List.mem_singleton.mp hg]
    exact hf
  · exact (List.not_mem_nil hg).elim

/-- A call that waits gets its outcome and is forgotten. -/
theorem queues_finish (ho : c.Orderly) (hn : c.outgoing[n]? = some o) (hw : o.outcome? = none)
    (x : Outgoing → Except Error Json) : Queues [] c { c.forget o.call.id with
      outgoing := c.outgoing.modify n fun o => o.finish (x o) } := by
  have hsame : (c.outgoing.modify n fun o => o.finish (x o)).map Outgoing.call =
      c.outgoing.map Outgoing.call := map_modify_of_eq (fun _ => Outgoing.finish_call) _ _
  refine ⟨(List.append_nil _).symm, rfl, ⟨hsame, fun m p hp hx => ?_⟩,
    fun _ hf => (List.not_mem_nil hf).elim, ⟨?_, ?_, ho.live⟩⟩
  · by_cases hm : n = m
    · subst hm
      obtain rfl := Option.some.inj (hp.symm.trans hn)
      contradiction
    · exact (List.getElem?_modify_ne _ _ hm).trans hp
  · change (c.pending.filter fun p => p.1 ≠ o.call.id) = index _ _
    rw [index_modify_none fun p _ => Outgoing.awaited?_of_ended Outgoing.outcome?_finish, ho.pending,
      filter_index awaited?_id ho.ids hn (Outgoing.awaited?_eq_some.mpr ⟨hw, rfl⟩)]
  · have hids := congrArg (List.map Call.id) hsame
    simp only [List.map_map] at hids
    exact hids ▸ ho.ids

theorem queues_complete (ho : c.Orderly) (r : Reply) : Queues [] c (c.complete r) := by
  unfold complete
  split
  · exact .refl ho
  · rename_i n hn
    obtain ⟨o, hn, hw, hid⟩ := ho.lookup_pending.mp hn
    exact hid ▸ queues_finish ho hn hw fun _ => r.outcome

theorem queues_expire (ho : c.Orderly) (n : Nat) : Queues [] c (c.expire n) := by
  unfold expire
  split
  · exact .refl ho
  · rename_i o hn
    split
    · rename_i hp
      obtain ⟨p, hpn, hw, _⟩ := ho.lookup_pending.mp hp
      obtain rfl := Option.some.inj (hpn.symm.trans hn)
      exact queues_finish ho hn hw _
    · exact .refl ho

/-- A call that is made waits. -/
theorem orderly_enter (ho : c.Orderly) {call : Call} (hid : call.id ∉ c.outgoing.map fun o => o.call.id)
    (now : Nat) : (c.enter call now).Orderly := by
  refine ⟨?_, ?_, ho.live⟩
  · change _ = index _ (c.outgoing ++ [_])
    rw [index_concat, enter, ho.pending]
    rfl
  · simp only [enter, List.map_append, List.map_cons, List.map_nil]
    exact List.concat_eq_append ▸ ho.ids.concat hid

/-! ### What was lost is sent again -/

theorem waiting?_eq_some (ho : c.Orderly) {call : Call} : c.waiting? id = some call ↔
    ∃ o ∈ c.outgoing, o.outcome? = none ∧ o.call.id = id ∧ o.call = call := by
  unfold waiting?
  rw [Option.bind_eq_some_iff]
  constructor
  · rintro ⟨n, hn, hc⟩
    obtain ⟨o, hn, hw, hid⟩ := ho.lookup_pending.mp hn
    rw [hn, Option.map_some, Option.some.injEq] at hc
    exact ⟨o, List.mem_of_getElem? hn, hw, hid, hc⟩
  · rintro ⟨o, hm, hw, hid, hc⟩
    obtain ⟨n, hn⟩ := List.getElem?_of_mem hm
    exact ⟨n, ho.lookup_pending.mpr ⟨o, hn, hw, hid⟩, by rw [hn, Option.map_some, hc]⟩

/-- The frame of a call that waits goes out again as it was. -/
theorem resend_of_waiting (ho : c.Orderly) (hm : o ∈ c.outgoing) (hw : o.outcome? = none) :
    c.resend o.call.id = (c.send (.request o.call)).getD c := by
  have hwaits := (waiting?_eq_some ho).mpr ⟨o, hm, hw, rfl, rfl⟩
  simp only [resend, hwaits]

theorem resend_of_ended (ho : c.Orderly)
    (h : ∀ o ∈ c.outgoing, o.call.id = id → o.outcome? ≠ none) : c.resend id = c := by
  unfold resend
  split
  · rename_i call hc
    obtain ⟨o, hm, hw, hid, _⟩ := (waiting?_eq_some ho).mp hc
    exact absurd hw (h o hm hid)
  · rfl

/-- A call that is said to be lost is sent again while it waits, and otherwise nothing happens. -/
theorem reconcile_of_lost (ho : c.Orderly) {r : Resumed} (hr : r.status = .lost) :
    (∀ o ∈ c.outgoing, o.outcome? = none → o.call.id = r.requestId → c.reconcile r =
      { c with queue := c.queue ++ if c.connected then [.request o.call] else [] }) ∧
    ((∀ o ∈ c.outgoing, o.call.id = r.requestId → o.outcome? ≠ none) → c.reconcile r = c) := by
  have hresend : c.reconcile r = c.resend r.requestId := by simp only [reconcile, hr]
  rw [hresend]
  refine ⟨fun o hm hw hid => ?_, resend_of_ended ho⟩
  rw [← hid, resend_of_waiting ho hm hw, trySend_eq]

theorem queues_resend (ho : c.Orderly) (id : String) : ∃ fs, Queues fs c (c.resend id) := by
  cases h : c.waiting? id with
  | none => exact ⟨[], by simp only [resend, h]; exact .refl ho⟩
  | some call =>
    obtain ⟨o, hm, hw, _, rfl⟩ := (waiting?_eq_some ho).mp h
    exact ⟨_, by simp only [resend, h]; exact queues_trySend ho ⟨o, hm, hw, rfl⟩⟩

theorem queues_reconcile (ho : c.Orderly) (r : Resumed) : ∃ fs, Queues fs c (c.reconcile r) := by
  unfold reconcile
  split
  · exact ⟨[], queues_complete ho _⟩
  · exact queues_resend ho r.requestId

theorem queues_reconciles (ho : c.Orderly) (rs : List Resumed) :
    ∃ fs, Queues fs c (rs.foldl reconcile c) := by
  induction rs generalizing c with
  | nil => exact ⟨[], .refl ho⟩
  | cons r rest ih =>
    obtain ⟨fs, h⟩ := queues_reconcile ho r
    obtain ⟨gs, h'⟩ := ih h.orderly
    exact ⟨fs ++ gs, h.trans h'⟩

theorem queues_handle (ho : c.Orderly) (f : Frame) : ∃ fs, Queues fs c (c.handle f) := by
  cases f with
  | response r => exact ⟨[], queues_complete ho r⟩
  | resumeResponse results => exact queues_reconciles ho results
  | request call => exact ⟨[], .of_same ho rfl rfl rfl rfl ho.live⟩
  | _ => exact ⟨[], .refl ho⟩

/-! ### Attempts -/

theorem cuts_finish (ho : c.Orderly) (since now : Nat) (ending : AttemptEnd) :
    c.Cuts (c.finish since now ending) := by
  unfold finish
  dsimp only
  split <;> exact ⟨List.nil_suffix, fun h => (Bool.false_ne_true h).elim, rfl,
    ho.of_same rfl rfl fun h => (Bool.false_ne_true h).elim⟩

theorem cuts_leave (ho : c.Orderly) (since : Nat) (ending : AttemptEnd) :
    c.Cuts (c.leave since ending) :=
  ⟨List.suffix_rfl, fun h => (Bool.false_ne_true h).elim, rfl,
    ho.of_same rfl rfl fun h => (Bool.false_ne_true h).elim⟩

/-- What a client queues first on a new connection. -/
theorem queue_announce (c : Client) : c.announce.queue = c.queue ++
    if c.connected = true ∧ c.pending ≠ [] then [.resume (c.pending.map Prod.fst)] else [] := by
  unfold announce send
  cases c.connected <;> cases c.pending <;> simp

theorem announce_same (c : Client) : c.announce.outgoing = c.outgoing ∧ c.announce.pending = c.pending ∧
    c.announce.connected = c.connected ∧ c.announce.stage = c.stage := by
  unfold announce send
  split
  · exact ⟨rfl, rfl, rfl, rfl⟩
  · split <;> exact ⟨rfl, rfl, rfl, rfl⟩

theorem orderly_announce (ho : c.Orderly) : c.announce.Orderly := by
  obtain ⟨outgoing, pending, connected, stage⟩ := c.announce_same
  refine ho.of_same outgoing pending fun h => ?_
  rw [stage]
  exact ho.live (connected ▸ h)

theorem queues_hear (ho : c.Orderly) (text : String) : ∃ fs, Queues fs c (c.hear text) := by
  unfold hear
  split
  · exact queues_handle ho _
  · exact ⟨[], .refl ho⟩

/-- What the client has been welcomed with and has not taken in: when the attempt began, the welcome, and
what arrived after it. -/
def welcomed? (c : Client) : Option (Nat × Welcome × List Arrival) :=
  match c.stage, c.inbox with
  | .greeting since _, .text t :: rest =>
    match Frame.parse t with
    | .ok (.init w) => some (since, w, rest)
    | _ => none
  | _, _ => none

theorem connected_of_welcomed (ho : c.Orderly) {since : Nat} {w : Welcome} {rest : List Arrival}
    (h : c.welcomed? = some (since, w, rest)) : c.connected = false := by
  refine Bool.eq_false_iff.mpr fun hc => ?_
  obtain ⟨_, _, _, hl⟩ := ho.live hc
  simp [welcomed?, hl] at h

theorem next_of_welcomed {since : Nat} {w : Welcome} {rest : List Arrival}
    (h : c.welcomed? = some (since, w, rest)) (now : Nat) (wall : Int) :
    c.next now wall = some ({ c with inbox := rest }.welcome since now w) := by
  unfold welcomed? at h
  split at h
  · rename_i since' deadline t rest' hs hi
    split at h
    · rename_i w' hp
      cases h
      simp only [next, hs, hi, expect, hp]
    · cases h
  · cases h

/-- What a client hears of its calls it takes one by one. -/
theorem next_of_resumed {since period beat : Nat} {t : String} {rest : List Arrival}
    {results : List Resumed} (hs : c.stage = .live since period beat) (hstop : c.stopping = false)
    (hi : c.inbox = .text t :: rest) (hp : Frame.parse t = .ok (.resumeResponse results)) (now : Nat)
    (wall : Int) : c.next now wall = some (results.foldl reconcile { c with inbox := rest }) := by
  simp only [next, hs, hstop, Bool.false_eq_true, if_false, hi, hear, hp, handle]

theorem moves_expect (ho : c.Orderly) {since now : Nat} {t : String}
    (h : ∀ w, Frame.parse t ≠ .ok (.init w)) : Moves [] c (c.expect since now t) := by
  unfold expect
  split
  · exact (cuts_finish ho _ _ _).moves
  · rename_i w hp
    exact absurd hp (h w)
  · exact (cuts_finish ho _ _ _).moves
  · exact (Queues.refl ho).moves

/-- What has no part in calls and frames changes before the client moves. -/
theorem Moves.of_inbox {rest : List Arrival} (h : Moves fs { c with inbox := rest } d) : Moves fs c d :=
  ⟨h.added, h.connected, ⟨h.lasts.calls, h.lasts.ended⟩, fun f hf => by cases f <;> exact h.sends _ hf,
    h.orderly⟩

/-- Without a welcome a client that moves on names no call. -/
theorem moves_next (ho : c.Orderly) (hw : c.welcomed? = none) {now : Nat} {wall : Int}
    (h : c.next now wall = some d) : ∃ fs, Moves fs c d := by
  have hinbox (rest : List Arrival) : ({ c with inbox := rest } : Client).Orderly :=
    ho.of_same rfl rfl ho.live
  unfold next at h
  split at h
  · cases h
  · cases h
  · rename_i since deadline hs
    split at h
    · rename_i t rest hi
      cases h
      refine ⟨[], (moves_expect (hinbox rest) fun w hp => ?_).of_inbox⟩
      simp [welcomed?, hs, hi, hp] at hw
    · cases h
      exact ⟨[], (Queues.refl (hinbox _)).moves.of_inbox⟩
    · cases h
      exact ⟨[], (cuts_finish ho _ _ _).moves⟩
    · cases h
      exact ⟨[], (cuts_finish ho _ _ _).moves⟩
    · split at h
      · cases h
        exact ⟨[], (cuts_finish ho _ _ _).moves⟩
      · cases h
  · rename_i since period beat hs
    split at h
    · cases h
      exact ⟨[], (cuts_leave ho _ _).moves⟩
    · split at h
      · rename_i t rest hi
        cases h
        obtain ⟨fs, hfs⟩ := queues_hear (hinbox rest) t
        exact ⟨fs, hfs.moves.of_inbox⟩
      · cases h
        exact ⟨[], (Queues.refl (hinbox _)).moves.of_inbox⟩
      · cases h
        exact ⟨[], (cuts_leave ho _ _).moves⟩
      · cases h
        exact ⟨[], (cuts_leave ho _ _).moves⟩
      · split at h
        · cases h
          have hbeat : Queues [] c { c with stage := .live since period (now + period) } :=
            .of_same ho rfl rfl rfl rfl fun _ => ⟨_, _, _, rfl⟩
          exact ⟨_, (hbeat.trans (queues_trySend hbeat.orderly (f := .heartbeat (some wall)) trivial)).moves⟩
        · cases h
  · split at h
    · cases h
      exact ⟨[], (cuts_finish ho _ _ _).moves⟩
    · cases h
  · rename_i resumeAt hs
    -- nothing is sent between two connections
    have hoff (stage : Stage) : Moves [] c { c with stage := stage } := by
      refine Queues.moves (.of_same ho rfl rfl rfl rfl fun hc => ?_)
      obtain ⟨_, _, _, hl⟩ := ho.live hc
      rw [hs] at hl
      cases hl
    split at h
    · cases h
      exact ⟨[], hoff _⟩
    · split at h
      · cases h
        exact ⟨[], hoff _⟩
      · cases h

theorem moves_dialed (ho : c.Orderly) (now : Nat) (reached : Except String Unit) :
    Moves [] c (c.dialed now reached) := by
  unfold dialed
  split
  · exact (cuts_finish ho _ _ _).moves
  · rename_i since hs
    refine Queues.moves (.of_same ho rfl rfl rfl rfl fun hc => ?_)
    obtain ⟨_, _, _, hl⟩ := ho.live hc
    rw [hs] at hl
    cases hl
  · exact (Queues.refl ho).moves

theorem moves_write (ho : c.Orderly) : Moves [] c (c.write.getD c) := by
  unfold write
  split
  · exact (Queues.refl ho).moves
  · rename_i f rest hq
    refine Cuts.moves ⟨?_, id, rfl, ho.of_same rfl rfl ho.live⟩
    rw [hq]
    exact List.suffix_cons f rest

theorem queues_sendNow (ho : c.Orderly) (hf : c.MayQueue f) :
    ∃ fs, Queues fs c ((c.sendNow f).toOption.getD c) := by
  have h := queues_trySend ho hf
  unfold sendNow
  cases hs : c.send f with
  | none => exact ⟨[], .refl ho⟩
  | some d => exact ⟨_, by rw [hs] at h; exact h⟩

/-- Whatever a client does beside making calls and taking in a welcome. -/
theorem moves_take (ho : c.Orderly) {a : Act} (call : ∀ call now, a ≠ .request call now)
    (welcome : ∀ now wall, a = .next now wall → c.welcomed? = none) : ∃ fs, Moves fs c (c.take a) := by
  cases a with
  | request call now => exact absurd rfl (call _ _)
  | expire n => exact ⟨[], (queues_expire ho n).moves⟩
  | report method payload =>
    obtain ⟨fs, h⟩ := queues_sendNow ho (f := .fireAndForget method payload) trivial
    exact ⟨fs, h.moves⟩
  | tell session e =>
    obtain ⟨fs, h⟩ := queues_sendNow ho (f := .sessionEvent session e.streamName e.toJson) trivial
    exact ⟨fs, h.moves⟩
  | answer id outcome =>
    have hserving : Queues [] c { c with serving := c.serving.filter fun s => s.id ≠ id } :=
      .of_same ho rfl rfl rfl rfl ho.live
    exact ⟨_, (hserving.trans (queues_trySend hserving.orderly
      (f := .response (.ofOutcome id outcome)) trivial)).moves⟩
  | dialed now reached => exact ⟨[], moves_dialed ho now reached⟩
  | next now wall =>
    change ∃ fs, Moves fs c ((c.next now wall).getD c)
    cases h : c.next now wall with
    | none => exact ⟨[], (Queues.refl ho).moves⟩
    | some d => exact moves_next ho (welcome _ _ rfl) h
  | write => exact ⟨[], moves_write ho⟩
  | lose =>
    exact ⟨[], Cuts.moves ⟨List.nil_suffix, fun h => (Bool.false_ne_true h).elim, rfl,
      ho.of_same rfl rfl fun h => (Bool.false_ne_true h).elim⟩⟩
  | stop => exact ⟨[], Queues.moves (.of_same ho rfl rfl rfl rfl ho.live)⟩

end Client

end Machine

end Fleet
