import Fleet.Proofs.Control.Lines

/-!
The calls that wait for machines. A connection's list of pending calls is the index of those that wait on
it, whatever order calls, responses, timeouts and ends of connections come in.
-/

namespace Fleet.Control

namespace Inquiry

variable {q : Inquiry} {k : Nat} {x y : Except Error Json}

theorem finish_of_waiting (h : q.isWaiting = true) : q.finish x = { q with state := .ended x } := by
  cases hs : q.state <;> simp_all [isWaiting, finish]

theorem finish_of_not_waiting (h : q.isWaiting = false) : q.finish x = q := by
  cases hs : q.state <;> simp_all [isWaiting, finish]

@[simp] theorem isWaiting_finish : (q.finish x).isWaiting = false := by
  cases h : q.isWaiting with
  | true => rw [finish_of_waiting h]; rfl
  | false => rw [finish_of_not_waiting h, h]

/-- Only the first outcome counts. -/
@[simp] theorem finish_finish : (q.finish x).finish y = q.finish x :=
  finish_of_not_waiting isWaiting_finish

@[simp] theorem finish_connection : (q.finish x).connection = q.connection := by
  unfold finish
  split <;> rfl

@[simp] theorem finish_request : (q.finish x).request = q.request := by
  unfold finish
  split <;> rfl

/-- Ends the call, if there is something to end it with. -/
def after (q : Inquiry) : Option (Except Error Json) → Inquiry
  | some x => q.finish x
  | none => q

theorem after_finish {o : Option (Except Error Json)} : (q.finish x).after o = q.finish x := by
  cases o with
  | none => rfl
  | some y => exact finish_finish

/-- What is left of a call whose connection may have ended. -/
def breakOff (k : Nat) (q : Inquiry) : Inquiry :=
  if q.connection = k then q.finish (.error q.abandoned) else q

theorem breakOff_eq (q : Inquiry) : q.breakOff k =
    q.after (if q.connection = k then some (.error q.abandoned) else none) := by
  unfold breakOff
  split <;> rfl

@[simp] theorem breakOff_connection : (q.breakOff k).connection = q.connection := by
  unfold breakOff
  split
  · exact finish_connection
  · rfl

@[simp] theorem breakOff_request : (q.breakOff k).request = q.request := by
  unfold breakOff
  split
  · exact finish_request
  · rfl

/-- The id of a call that waits on a connection. -/
def awaitedOn (k : Nat) (q : Inquiry) : Option String :=
  if q.isWaiting = true ∧ q.connection = k then some q.request.id else none

theorem awaitedOn_eq_some {id : String} :
    q.awaitedOn k = some id ↔ q.isWaiting = true ∧ q.connection = k ∧ q.request.id = id := by
  unfold awaitedOn
  split
  · rename_i h
    simp [h.1, h.2]
  · rename_i h
    simp only [reduceCtorEq, false_iff]
    exact fun hq => h ⟨hq.1, hq.2.1⟩

theorem awaitedOn_of_not_waiting (h : q.isWaiting = false) : q.awaitedOn k = none := by
  simp [awaitedOn, h]

end Inquiry

namespace Connections

/-- One thing that is done with connections. -/
inductive Operation where
  | connect (id user org : String)
  /-- The writer of a connection goes. -/
  | hangUp (k : Nat)
  /-- The writer takes the oldest frame. -/
  | write (k : Nat)
  /-- A frame that is no call is queued. -/
  | send (k : Nat) (f : Frame)
  | call (k : Nat) (request : Call) (timeoutMs now : Nat)
  | callUser (user : String) (request : Call) (timeoutMs now : Nat)
  | respond (k : Nat) (r : Reply)
  /-- The time of a call is up. -/
  | expire (n : Nat)
  /-- A connection gives up its calls. -/
  | failPending (k : Nat)
  | close (k : Nat)
  | register (k : Nat)
  | unregister (user id : String)
  deriving Repr

/-- The id that an operation gives to a call. -/
def Operation.callId? : Operation → Option String
  | .call _ request _ _ | .callUser _ request _ _ => some request.id
  | _ => none

/-- The id that an operation gives to a connection. -/
def Operation.lineId? : Operation → Option String
  | .connect id _ _ => some id
  | _ => none

/-- What cannot be done changes nothing. -/
def take (s : Connections) : Operation → Connections
  | .connect id user org => s.connect id user org
  | .hangUp k => s.change k Connection.hangUp
  | .write k => s.change k fun c => { c with outbox := c.outbox.drop 1 }
  | .send k f => (s.send k f).toOption.getD s
  | .call k request timeoutMs now => (s.call k request timeoutMs now).toOption.getD s
  | .callUser user request timeoutMs now => (s.callUser user request timeoutMs now).toOption.getD s
  | .respond k r => (s.resolve k r).2
  | .expire n => s.expire n
  | .failPending k => (s.failPending k).2
  | .close k => s.close k
  | .register k => s.register k
  | .unregister user id => (s.unregister user id).2

def play (ops : List Operation) (s : Connections) : Connections := ops.foldl take s

/-- The connection that is replaced when another one is registered. -/
def replaced? (s : Connections) (k : Nat) : Option Nat :=
  s.opened[k]?.bind fun c => s.current.lookup c.userId

/-- What an operation ends a call with, while the call waits: a response that bears its id on its
connection, its time, or the end of its connection. -/
def endedBy (s : Connections) (n : Nat) (q : Inquiry) : Operation → Option (Except Error Json)
  | .respond k r => if k = q.connection ∧ r.id = q.request.id then some r.outcome else none
  | .expire m => if m = n then some (.error q.late) else none
  | .failPending k => if k = q.connection then some (.error q.abandoned) else none
  | .register k => if s.replaced? k = some q.connection then some (.error q.abandoned) else none
  | _ => none

/-- What the first operation of a run to end a call ends it with. -/
def firstEnd (n : Nat) (q : Inquiry) : List Operation → Connections → Option (Except Error Json)
  | [], _ => none
  | op :: rest, s => (s.endedBy n q op).or (firstEnd n q rest (s.take op))

/-- The calls that wait on a connection, by the ids of their requests. -/
def awaited (s : Connections) (k : Nat) : List (String × Nat) :=
  index (Inquiry.awaitedOn k) s.inquiries

/-- Each connection's pending calls are those that wait on it, and no id is given twice. -/
structure Tallied (s : Connections) : Prop where
  pending : ∀ (k : Nat) c, s.opened[k]? = some c → c.pending = s.awaited k
  calls : (s.inquiries.map fun q => q.request.id).Nodup
  lines : (s.opened.map Connection.id).Nodup
  known : ∀ k ∈ s.inquiries.map Inquiry.connection, k < s.opened.length
  current : ∀ u k, s.current.lookup u = some k → (s.opened.map Connection.userId)[k]? = some u

variable {s t : Connections} {c : Connection} {k j n : Nat} {q : Inquiry} {id user : String}

theorem mem_awaited : (id, n) ∈ s.awaited k ↔
    ∃ q, s.inquiries[n]? = some q ∧ q.isWaiting = true ∧ q.connection = k ∧ q.request.id = id := by
  simp only [awaited, mem_index, Inquiry.awaitedOn_eq_some]

theorem awaitedOn_id (q : Inquiry) (id : String) (h : q.awaitedOn k = some id) : id = q.request.id :=
  (Inquiry.awaitedOn_eq_some.mp h).2.2.symm

theorem map_opened_change {β : Type} {g : Connection → β} {f : Connection → Connection}
    (h : ∀ c, g (f c) = g c) (s : Connections) (k : Nat) :
    (s.change k f).opened.map g = s.opened.map g := map_modify_of_eq h s.opened k

theorem opened_change {f : Connection → Connection} : (s.change k f).opened[j]? = some c ↔
    ∃ d, s.opened[j]? = some d ∧ (if k = j then f d else d) = c := by
  simp [Connections.change, List.getElem?_modify, Option.map_eq_some_iff, apply_ite]

/-- The connections once a call has been made. -/
def enter (s : Connections) (k : Nat) (request : Call) (timeoutMs now : Nat) : Connections :=
  { s.change k fun c => { c with
      outbox := c.outbox ++ [.request request]
      pending := c.pending ++ [(request.id, s.inquiries.length)] } with
    inquiries := s.inquiries ++ [{ connection := k, request, timeoutMs, deadline := now + timeoutMs }] }

/-- A call is made where there is a writer. -/
theorem call_of_writable {request : Call} {timeoutMs now : Nat} (hc : s.opened[k]? = some c)
    (hw : c.writable = true) :
    s.call k request timeoutMs now = .ok (s.enter k request timeoutMs now) := by
  simp only [call, send_of_writable hc hw, Except.map, enter, change, List.modify_modify_eq]
  congr 2
  exact modify_congr hc rfl

theorem send_eq {f : Frame} (h : s.send k f = .ok t) :
    t = s.change k fun c => { c with outbox := c.outbox ++ [f] } := by
  obtain ⟨c, hc, _, rfl⟩ := send_ok h
  simp only [change, Connections.mk.injEq, and_true]
  exact modify_congr hc rfl

theorem call_ok {request : Call} {timeoutMs now : Nat} (h : s.call k request timeoutMs now = .ok t) :
    t = s.enter k request timeoutMs now ∧ ∃ c, s.opened[k]? = some c := by
  cases hsend : s.send k (.request request) with
  | error e => simp [call, hsend, Except.map] at h
  | ok u =>
    obtain ⟨c, hc, hw, _⟩ := send_ok hsend
    rw [call_of_writable hc hw, Except.ok.injEq] at h
    exact ⟨h.symm, c, hc⟩

/-- Where there is no writer a call ends at once. -/
theorem call_of_not_writable {request : Call} {timeoutMs now : Nat} (hc : s.opened[k]? = some c)
    (hw : c.writable = false) : s.call k request timeoutMs now = .error c.closed := by
  simp [call, send, hc, Connection.push, hw, Except.map]

/-- The connections once one of them has become its user's current one. -/
def appoint (s : Connections) (k : Nat) (c : Connection) : Connections :=
  { s with current := (c.userId, k) :: s.current.filter fun u => u.1 ≠ c.userId }

theorem register_of_none (hc : s.opened[k]? = none) : s.register k = s := by
  simp only [register, hc]

theorem register_of_first (hc : s.opened[k]? = some c) (hl : s.current.lookup c.userId = none) :
    s.register k = s.appoint k c := by
  simp only [register, hc, hl, appoint]

theorem register_of_current (hc : s.opened[k]? = some c) (hl : s.current.lookup c.userId = some j) :
    s.register k = ((s.appoint k c).failPending j).2.close j := by
  simp only [register, hc, hl, appoint]

theorem replaced?_eq_some : s.replaced? k = some j ↔
    ∃ c, s.opened[k]? = some c ∧ s.current.lookup c.userId = some j := Option.bind_eq_some_iff

namespace Tallied

/-- What is pending under an id is the call that waits with it. -/
theorem lookup_pending (ht : s.Tallied) (hc : s.opened[k]? = some c) :
    c.pending.lookup id = some n ↔
      ∃ q, s.inquiries[n]? = some q ∧ q.isWaiting = true ∧ q.connection = k ∧ q.request.id = id := by
  have hn : (c.pending.map Prod.fst).Nodup := by
    rw [ht.pending k c hc]
    exact nodup_index awaitedOn_id ht.calls
  rw [lookup_eq_some_iff_mem hn, ht.pending k c hc, mem_awaited]

theorem opened_of_known (ht : s.Tallied) (hq : s.inquiries[n]? = some q) :
    ∃ c, s.opened[q.connection]? = some c := by
  have hlt := ht.known _ (List.mem_map.mpr ⟨q, List.mem_of_getElem? hq, rfl⟩)
  exact ⟨_, List.getElem?_eq_getElem hlt⟩

/-! ### What operations leave of it -/

/-- Connections change in what is pending, calls in what has become of them. -/
theorem of_maps (ht : s.Tallied) (pending : ∀ (k : Nat) c, t.opened[k]? = some c → c.pending = t.awaited k)
    (lines : t.opened.map Connection.id = s.opened.map Connection.id)
    (users : t.opened.map Connection.userId = s.opened.map Connection.userId)
    (calls : t.inquiries.map (fun q => q.request.id) = s.inquiries.map fun q => q.request.id)
    (connections : t.inquiries.map Inquiry.connection = s.inquiries.map Inquiry.connection)
    (current : ∀ u k, t.current.lookup u = some k → s.current.lookup u = some k) : t.Tallied := by
  refine ⟨pending, calls ▸ ht.calls, lines ▸ ht.lines, ?_, fun u k h => ?_⟩
  · have hlength : t.opened.length = s.opened.length := by
      simpa using congrArg List.length lines
    rw [connections, hlength]
    exact ht.known
  · rw [users]
    exact ht.current u k (current u k h)

/-- A change of one connection that leaves its calls alone. -/
theorem change (ht : s.Tallied) (k : Nat) {f : Connection → Connection}
    (hf : ∀ c, (f c).id = c.id ∧ (f c).userId = c.userId ∧ (f c).pending = c.pending) :
    (s.change k f).Tallied := by
  refine ht.of_maps (fun j c hc => ?_) (map_opened_change (fun c => (hf c).1) s k)
    (map_opened_change (fun c => (hf c).2.1) s k) rfl rfl fun _ _ => id
  obtain ⟨d, hd, rfl⟩ := opened_change.mp hc
  rw [apply_ite Connection.pending, (hf d).2.2, ite_self]
  exact ht.pending j d hd

/-- A call that waits gets its outcome and is forgotten. -/
theorem finish (ht : s.Tallied) (hq : s.inquiries[n]? = some q) (hw : q.isWaiting = true)
    (x : Inquiry → Except Error Json) :
    Tallied { s.change q.connection (Connection.forget q.request.id) with
      inquiries := s.inquiries.modify n fun q => q.finish (x q) } := by
  have hfinished (j : Nat) (q : Inquiry) : (q.finish (x q)).awaitedOn j = none :=
    Inquiry.awaitedOn_of_not_waiting Inquiry.isWaiting_finish
  let f := Connection.forget q.request.id
  refine ht.of_maps (fun j c hc => ?_) (map_opened_change (f := f) (fun _ => rfl) s q.connection)
    (map_opened_change (f := f) (fun _ => rfl) s q.connection)
    (map_modify_of_eq (fun q => by rw [Inquiry.finish_request]) _ _)
    (map_modify_of_eq (fun _ => Inquiry.finish_connection) _ _) fun _ _ => id
  obtain ⟨d, hd, rfl⟩ := opened_change.mp hc
  split
  · rename_i hj
    subst hj
    have hname : q.awaitedOn q.connection = some q.request.id := by simp [Inquiry.awaitedOn, hw]
    change (d.pending.filter fun p => p.1 ≠ q.request.id) = index _ _
    rw [index_modify_none fun q _ => hfinished _ q, ht.pending _ d hd, awaited,
      filter_index awaitedOn_id ht.calls hq hname]
  · rename_i hj
    refine (ht.pending j d hd).trans (index_modify_same fun r hr => ?_).symm
    obtain rfl := Option.some.inj (hr.symm.trans hq)
    rw [hfinished, Inquiry.awaitedOn, if_neg fun h => hj h.2]

theorem connect (ht : s.Tallied) (hid : id ∉ s.opened.map Connection.id) (user org : String) :
    (s.connect id user org).Tallied := by
  have hlast (k : Nat) (hk : k < s.opened.length) :
      (s.connect id user org).opened[k]? = s.opened[k]? := List.getElem?_append_left hk
  refine ⟨fun k c hc => ?_, ht.calls, ?_, fun k hk => ?_, fun u k h => ?_⟩
  · rcases Nat.lt_or_ge k s.opened.length with hk | hk
    · exact ht.pending k c (hlast k hk ▸ hc)
    · -- nothing waits on a connection that has just opened
      have hnone : (s.connect id user org).awaited k = [] := by
        refine index_of_none fun q hq => if_neg fun h => ?_
        have := ht.known _ (List.mem_map.mpr ⟨q, hq, h.2⟩)
        omega
      rw [hnone]
      have hmem : c ∈ [({ id := id, userId := user, orgId := org } : Connection)] := by
        rw [Connections.connect, List.getElem?_append_right hk] at hc
        exact List.mem_of_getElem? hc
      rw [List.mem_singleton.mp hmem]
  · simp only [Connections.connect, List.map_append, List.map_cons, List.map_nil]
    exact List.concat_eq_append ▸ ht.lines.concat hid
  · have := ht.known k hk
    simp only [Connections.connect, List.length_append]
    omega
  · have huser := ht.current u k h
    rw [Connections.connect, List.map_append, List.getElem?_append_left]
    · exact huser
    · exact (List.getElem?_eq_some_iff.mp huser).1

/-- A call that is made waits. -/
theorem enter (ht : s.Tallied) (hc : s.opened[k]? = some c) {request : Call} {timeoutMs now : Nat}
    (hid : request.id ∉ s.inquiries.map fun q => q.request.id) :
    (s.enter k request timeoutMs now).Tallied := by
  have hlt := (List.getElem?_eq_some_iff.mp hc).1
  let f (c : Connection) : Connection := { c with
    outbox := c.outbox ++ [.request request]
    pending := c.pending ++ [(request.id, s.inquiries.length)] }
  have hlines := map_opened_change (f := f) (g := Connection.id) (fun _ => rfl) s k
  have husers := map_opened_change (f := f) (g := Connection.userId) (fun _ => rfl) s k
  refine ⟨fun j d hd => ?_, ?_, ?_, ?_, ?_⟩
  · obtain ⟨d, there, rfl⟩ := opened_change.mp hd
    change _ = index _ (s.inquiries ++ [_])
    rw [index_concat]
    split
    · rename_i hj
      subst hj
      rw [ht.pending k d there]
      simp [Inquiry.awaitedOn, Inquiry.isWaiting, awaited]
    · rename_i hj
      rw [ht.pending j d there]
      simp [Inquiry.awaitedOn, hj, awaited]
  · simp only [Connections.enter, List.map_append, List.map_cons, List.map_nil]
    exact List.concat_eq_append ▸ ht.calls.concat hid
  · exact hlines.symm ▸ ht.lines
  · intro j hj
    have hlength : (s.enter k request timeoutMs now).opened.length = s.opened.length :=
      List.length_modify ..
    rw [hlength]
    rcases List.mem_append.mp (List.map_append ▸ hj) with hj | hj
    · exact ht.known j hj
    · rw [List.mem_singleton.mp hj]
      exact hlt
  · exact husers.symm ▸ ht.current

end Tallied

/-- Giving up some calls ends those of them that wait. -/
theorem getElem?_giveUp (ps : List (String × Nat)) (qs : List Inquiry) (i : Nat) :
    (ps.foldl (fun qs p => qs.modify p.2 fun q => q.finish (.error q.abandoned)) qs)[i]? =
      qs[i]?.map fun q => if i ∈ ps.map Prod.snd then q.finish (.error q.abandoned) else q := by
  induction ps generalizing qs with
  | nil => simp
  | cons p rest ih =>
    rw [List.foldl_cons, ih, List.getElem?_modify, Option.map_eq_map, Option.map_map]
    congr 1
    funext q
    by_cases hi : p.2 = i
    · subst hi
      simp [Inquiry.abandoned]
    · have hrest : i ∈ (p :: rest).map Prod.snd ↔ i ∈ rest.map Prod.snd := by
        rw [List.map_cons, List.mem_cons, or_iff_right fun h => hi h.symm]
      simp only [Function.comp_apply, if_neg hi, hrest]

namespace Tallied

theorem failPending_eq (ht : s.Tallied) (hc : s.opened[k]? = some c) :
    (s.failPending k).2 = { s.change k fun c => { c with pending := [] } with
      inquiries := s.inquiries.map (Inquiry.breakOff k) } := by
  simp only [Connections.failPending, hc]
  congr 1
  apply List.ext_getElem?
  intro i
  rw [getElem?_giveUp, List.getElem?_map]
  cases hq : s.inquiries[i]? with
  | none => rfl
  | some q =>
    -- those on the list are those that wait on the connection
    have hmem : i ∈ c.pending.map Prod.snd ↔ q.isWaiting = true ∧ q.connection = k := by
      rw [ht.pending k c hc, List.mem_map]
      constructor
      · rintro ⟨⟨id, _⟩, hp, rfl⟩
        obtain ⟨r, hr, hw, hk, _⟩ := mem_awaited.mp hp
        obtain rfl := Option.some.inj (hr.symm.trans hq)
        exact ⟨hw, hk⟩
      · exact fun h => ⟨(q.request.id, i), mem_awaited.mpr ⟨q, hq, h.1, h.2, rfl⟩, rfl⟩
    simp only [Option.map_some, hmem, Inquiry.breakOff]
    by_cases hk : q.connection = k
    · cases hw : q.isWaiting with
      | true => simp [hk]
      | false => simp [hk, Inquiry.finish_of_not_waiting hw]
    · simp [hk]

theorem failPending (ht : s.Tallied) (k : Nat) : (s.failPending k).2.Tallied := by
  cases hc : s.opened[k]? with
  | none =>
    simp only [Connections.failPending, hc]
    exact ht
  | some c =>
    rw [ht.failPending_eq hc]
    let f (c : Connection) : Connection := { c with pending := [] }
    refine ht.of_maps (fun j d hd => ?_) (map_opened_change (f := f) (fun _ => rfl) s k)
      (map_opened_change (f := f) (fun _ => rfl) s k) ?_ ?_ fun _ _ => id
    · obtain ⟨d, there, rfl⟩ := opened_change.mp hd
      change _ = index _ (s.inquiries.map _)
      rw [index_map]
      split
      · rename_i hj
        subst hj
        refine (index_of_none fun q _ => ?_).symm
        by_cases hk : q.connection = k
        · simp [Inquiry.awaitedOn, Inquiry.breakOff, hk]
        · simp [Inquiry.awaitedOn, hk]
      · rename_i hj
        refine (ht.pending j d there).trans (index_congr fun q _ => ?_)
        by_cases hk : q.connection = k
        · simp [Inquiry.awaitedOn, hk, hj]
        · simp [Inquiry.breakOff, hk]
    · simp [Function.comp_def]
    · simp [Function.comp_def]

/-- A response that finds a call under its id ends it. -/
theorem resolve_eq (ht : s.Tallied) {r : Reply} (hc : s.opened[k]? = some c)
    (hp : c.pending.lookup r.id = some n) : ∃ q, s.inquiries[n]? = some q ∧ q.isWaiting = true ∧
      q.connection = k ∧ q.request.id = r.id ∧
      (s.resolve k r).2 = { s.change q.connection (Connection.forget q.request.id) with
        inquiries := s.inquiries.modify n fun q => q.finish r.outcome } := by
  obtain ⟨q, hq, hw, hk, hid⟩ := (ht.lookup_pending hc).mp hp
  refine ⟨q, hq, hw, hk, hid, ?_⟩
  rw [hk, hid]
  simp only [Connections.resolve, hc, Option.bind_some, hp]

/-- A connection becomes its user's current one. -/
theorem appoint (ht : s.Tallied) (hc : s.opened[k]? = some c) : (s.appoint k c).Tallied := by
  refine ⟨ht.pending, ht.calls, ht.lines, ht.known, fun u j h => ?_⟩
  rw [Connections.appoint, List.lookup_cons] at h
  split at h
  · rename_i hu
    cases h
    rw [eq_of_beq hu]
    change (s.opened.map Connection.userId)[k]? = _
    rw [List.getElem?_map, hc, Option.map_some]
  · rw [lookup_filter_ne] at h
    split at h
    · cases h
    · exact ht.current u j h

theorem register (ht : s.Tallied) (k : Nat) : (s.register k).Tallied := by
  cases hc : s.opened[k]? with
  | none => rw [register_of_none hc]; exact ht
  | some c =>
    cases hl : s.current.lookup c.userId with
    | none => rw [register_of_first hc hl]; exact ht.appoint hc
    | some j =>
      rw [register_of_current hc hl]
      exact ((ht.appoint hc).failPending j).change j fun _ => ⟨rfl, rfl, rfl⟩

theorem unregister (ht : s.Tallied) (user id : String) : (s.unregister user id).2.Tallied := by
  unfold Connections.unregister
  split
  · refine ⟨ht.pending, ht.calls, ht.lines, ht.known, fun u j h => ?_⟩
    rw [lookup_filter_ne] at h
    split at h
    · cases h
    · exact ht.current u j h
  · exact ht

/-- Whatever is done, ids of calls and connections being new. -/
theorem take (ht : s.Tallied) (op : Operation)
    (call : ∀ id, op.callId? = some id → id ∉ s.inquiries.map fun q => q.request.id)
    (line : ∀ id, op.lineId? = some id → id ∉ s.opened.map Connection.id) : (s.take op).Tallied := by
  have hcall (k : Nat) (request : Call) (timeoutMs now : Nat)
      (hid : request.id ∉ s.inquiries.map fun q => q.request.id) :
      ((s.call k request timeoutMs now).toOption.getD s).Tallied := by
    cases h : s.call k request timeoutMs now with
    | error e => exact ht
    | ok t =>
      obtain ⟨rfl, c, hc⟩ := call_ok h
      exact ht.enter hc hid
  cases op with
  | connect id user org => exact ht.connect (line id rfl) user org
  | hangUp k => exact ht.change k fun _ => ⟨rfl, rfl, rfl⟩
  | write k => exact ht.change k fun _ => ⟨rfl, rfl, rfl⟩
  | send k f =>
    change ((s.send k f).toOption.getD s).Tallied
    cases h : s.send k f with
    | error e => exact ht
    | ok t =>
      rw [send_eq h]
      exact ht.change k fun _ => ⟨rfl, rfl, rfl⟩
  | call k request timeoutMs now => exact hcall k request timeoutMs now (call _ rfl)
  | callUser user request timeoutMs now =>
    change ((s.callUser user request timeoutMs now).toOption.getD s).Tallied
    unfold Connections.callUser
    split
    · exact ht
    · exact hcall _ request timeoutMs now (call _ rfl)
  | respond k r =>
    change (s.resolve k r).2.Tallied
    cases hp : s.opened[k]?.bind fun c => c.pending.lookup r.id with
    | none =>
      simp only [resolve, hp]
      exact ht
    | some n =>
      obtain ⟨c, hc, hp⟩ := Option.bind_eq_some_iff.mp hp
      obtain ⟨q, hq, hw, _, _, he⟩ := ht.resolve_eq hc hp
      rw [he]
      exact ht.finish hq hw _
  | expire n =>
    change (s.expire n).Tallied
    unfold Connections.expire
    split
    · exact ht
    · rename_i q hq
      split
      · exact ht.finish hq ‹_› _
      · exact ht
  | failPending k => exact ht.failPending k
  | close k => exact ht.change k fun _ => ⟨rfl, rfl, rfl⟩
  | register k => exact ht.register k
  | unregister user id => exact ht.unregister user id

end Tallied

end Connections

end Fleet.Control
