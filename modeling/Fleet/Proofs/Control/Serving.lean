import Fleet.Proofs.Control.Answers
import Fleet.Proofs.Control.Greeting

/-!
What a live machine is told for what it says. Of the frames queued on its connection the responses and
the answers to resumptions are those that its requests and resumptions are owed, one for one and in
their order, whatever the router answers and whatever else goes on.
-/

namespace Fleet.Control

open Connections (Gains Silent)

variable {h g : Hub} {s s' : Socket} {m : Moment} {j k : Nat} {c d : Connection} {user : String}
  {outcome : Except Fault Json}

/-! ### How connections change -/

/-- A connection that changes: once asked to close it stays so, and until then it keeps its writer. -/
structure Connection.Onward (c d : Connection) : Prop where
  closing : c.closing = true → d.closing = true
  writable : d.closing = false → d.writable = c.writable

namespace Connections

/-- A connection that was not asked to close has its writer. -/
def Manned (s : Connections) : Prop := ∀ c ∈ s.opened, c.closing = false → c.writable = true

def closing (s : Connections) (j : Nat) : Bool := (s.opened[j]?.map Connection.closing).getD false

/-- Connections stay and go on, and those that open have a writer. -/
structure Onward (s t : Connections) : Prop where
  kept : ∀ (j : Nat) c, s.opened[j]? = some c → ∃ d, t.opened[j]? = some d ∧ c.Onward d
  fresh : ∀ (j : Nat) d, t.opened[j]? = some d → s.opened[j]? = none → d.closing = false → d.writable = true

variable {s t u : Connections}

theorem closing_eq (hc : s.opened[j]? = some c) : s.closing j = c.closing := by simp [closing, hc]

namespace Onward

theorem of_eq (h : t.opened = s.opened) : Onward s t := by
  refine ⟨fun j c hc => ⟨c, h ▸ hc, id, fun _ => rfl⟩, fun j d hd hn => ?_⟩
  rw [h, hn] at hd
  cases hd

theorem refl (s : Connections) : Onward s s := .of_eq rfl

theorem trans (h : Onward s t) (h' : Onward t u) : Onward s u := by
  refine ⟨fun j c hc => ?_, fun j e he hn hopen => ?_⟩
  · obtain ⟨d, hd, hcd⟩ := h.kept j c hc
    obtain ⟨e, he, hde⟩ := h'.kept j d hd
    refine ⟨e, he, fun hc => hde.closing (hcd.closing hc), fun hopen => ?_⟩
    rw [hde.writable hopen]
    refine hcd.writable (Bool.eq_false_iff.mpr fun hclosing => ?_)
    rw [hde.closing hclosing] at hopen
    cases hopen
  · cases hd : t.opened[j]? with
    | none => exact h'.fresh j e he hd hopen
    | some d =>
      obtain ⟨e', he', hde⟩ := h'.kept j d hd
      obtain rfl := Option.some.inj (he.symm.trans he')
      rw [hde.writable hopen]
      refine h.fresh j d hd hn (Bool.eq_false_iff.mpr fun hclosing => ?_)
      rw [hde.closing hclosing] at hopen
      cases hopen

theorem of_modify {f : Connection → Connection} (ht : t.opened = s.opened.modify k f)
    (hf : ∀ c, s.opened[k]? = some c → c.Onward (f c)) : Onward s t := by
  refine ⟨fun j c hc => ?_, fun j d hd hn => ?_⟩
  · by_cases hk : k = j
    · subst hk
      exact ⟨f c, by simp [ht, hc], hf c hc⟩
    · exact ⟨c, by simp [ht, hc, hk], id, fun _ => rfl⟩
  · rw [ht, List.getElem?_modify, hn] at hd
    cases hd

/-- A change that neither reopens or closes a connection nor takes its writer away. -/
theorem of_same {f : Connection → Connection} (ht : t.opened = s.opened.modify k f)
    (hf : ∀ c, (f c).closing = c.closing ∧ (f c).writable = c.writable) : Onward s t :=
  of_modify ht fun c _ => ⟨(hf c).1.trans, fun _ => (hf c).2⟩

theorem manned (h : Onward s t) (hs : s.Manned) : t.Manned := by
  intro d hd hopen
  obtain ⟨j, hj⟩ := List.getElem?_of_mem hd
  cases hc : s.opened[j]? with
  | none => exact h.fresh j d hj hc hopen
  | some c =>
    obtain ⟨d', hd', hcd⟩ := h.kept j c hc
    obtain rfl := Option.some.inj (hj.symm.trans hd')
    rw [hcd.writable hopen]
    refine hs c (List.mem_of_getElem? hc) (Bool.eq_false_iff.mpr fun hclosing => ?_)
    rw [hcd.closing hclosing] at hopen
    cases hopen

/-- A connection that was asked to close stays so. -/
theorem latch (h : Onward s t) (hj : s.closing j = true) : t.closing j = true := by
  cases hc : s.opened[j]? with
  | none => simp [closing, hc] at hj
  | some c =>
    obtain ⟨d, hd, hcd⟩ := h.kept j c hc
    rw [closing_eq hd]
    exact hcd.closing ((closing_eq hc).symm.trans hj)

end Onward

theorem onward_send {f : Frame} (h : s.send k f = .ok t) : Onward s t := by
  obtain ⟨c, hc, _, rfl⟩ := send_ok h
  refine .of_modify rfl fun d hd => ?_
  obtain rfl := Option.some.inj (hc.symm.trans hd)
  exact ⟨id, fun _ => rfl⟩

theorem onward_callUser {request : Call} {timeoutMs now : Nat}
    (h : s.callUser user request timeoutMs now = .ok t) : Onward s t := by
  unfold callUser at h
  split at h
  · cases h
  · rename_i i _
    unfold call at h
    cases hsend : s.send i (.request request) with
    | error e => simp [hsend, Except.map] at h
    | ok r =>
      simp only [hsend, Except.map] at h
      cases h
      exact (onward_send hsend).trans (.of_same rfl fun _ => ⟨rfl, rfl⟩)

theorem onward_connect (s : Connections) (id user org : String) : Onward s (s.connect id user org) := by
  refine ⟨fun j c hc => ⟨c, ?_, fun h => h, fun _ => rfl⟩, fun j d hd hn _ => ?_⟩
  · exact (List.getElem?_append_left (List.getElem?_eq_some_iff.mp hc).1).trans hc
  · unfold connect at hd
    rw [List.getElem?_append_right (List.getElem?_eq_none_iff.mp hn)] at hd
    rw [List.mem_singleton.mp (List.mem_of_getElem? hd)]

theorem onward_resolve (s : Connections) (k : Nat) (r : Reply) : Onward s (s.resolve k r).2 := by
  unfold resolve
  split
  · exact .refl s
  · exact .of_same rfl fun _ => ⟨rfl, rfl⟩

theorem onward_failPending (s : Connections) (k : Nat) : Onward s (s.failPending k).2 := by
  unfold failPending
  split
  · exact .refl s
  · exact .of_same rfl fun _ => ⟨rfl, rfl⟩

theorem onward_close (s : Connections) (k : Nat) : Onward s (s.close k) :=
  .of_modify rfl fun _ _ => ⟨fun _ => rfl, nofun⟩

theorem onward_register (s : Connections) (k : Nat) : Onward s (s.register k) := by
  unfold register
  split
  · exact .refl s
  · rename_i c _
    have ht : Onward s { s with current := (c.userId, k) :: s.current.filter fun u => u.1 ≠ c.userId } := .of_eq rfl
    dsimp only
    split
    · exact ht
    · exact (ht.trans (onward_failPending _ _)).trans (onward_close _ _)

theorem onward_unregister (s : Connections) (user id : String) : Onward s (s.unregister user id).2 := by
  unfold unregister
  split <;> exact .of_eq rfl

theorem onward_expire (s : Connections) (n : Nat) : Onward s (s.expire n) := by
  unfold expire
  split
  · exact .refl s
  · split
    · exact .of_same rfl fun _ => ⟨rfl, rfl⟩
    · exact .refl s

end Connections

namespace Hub

theorem Happens.onward (hp : h.Happens g) : h.connections.Onward g.connections := by
  cases hp with
  | call request made => exact Connections.onward_callUser made
  | expire q => exact Connections.onward_expire _ q
  | _ => exact .of_eq rfl

theorem Besides.onward (hg : h.Besides g) : h.connections.Onward g.connections := by
  induction hg with
  | refl => exact .refl _
  | tail _ hp ih => exact ih.trans hp.onward

end Hub

/-! ### What is kept -/

/-- What was just recorded is found: it is the newest entry, and there is room for one. -/
theorem Resume.find?_record (r : Resume) (now : Nat) (user : String) (call : Call)
    (outcome : Except Fault Json) :
    (r.record now user call outcome).find? user call.id = some ⟨user, call, now, outcome⟩ := by
  let others := (r.prune now).entries.filter fun k => !k.isFor user call.id
  have hroom : 1 ≤ (r.prune now).room := Nat.le_max_left _ _
  have hkept : (r.record now user call outcome).entries =
      others.drop (others.length + 1 - (r.prune now).room) ++ [⟨user, call, now, outcome⟩] := by
    simp only [record]
    rw [List.length_append, List.length_singleton, List.drop_append_of_le_length]
    change others.length + 1 - _ ≤ others.length
    omega
  have hothers : (others.drop (others.length + 1 - (r.prune now).room)).find?
      (Kept.isFor user call.id) = none := by
    rw [List.find?_eq_none]
    intro e he
    simpa using (List.mem_filter.mp (List.mem_of_mem_drop he)).2
  rw [find?, hkept, List.find?_append, hothers]
  simp [Kept.isFor]

theorem Resume.resolve_ids (r : Resume) (now : Nat) (user : String) (ids : List String) :
    (r.resolve now user ids).1.map Resumed.requestId = ids := by
  unfold resolve
  dsimp only
  rw [List.map_map]
  refine (List.map_congr_left fun id _ => ?_).trans (List.map_id ids)
  dsimp only [Function.comp]
  split
  · rename_i e he
    have hfor := List.find?_some he
    simp only [Kept.isFor, Bool.and_eq_true, beq_iff_eq] at hfor
    rw [e.resumed_requestId, hfor.2]
    rfl
  · rfl

/-! ### What is owed and what is told -/

/-- What a machine is due: a response, or what became of the calls that it names. -/
inductive Due where
  | reply (r : Reply)
  | recall (ids : List String)
  deriving DecidableEq

/-- What a frame says of a machine's own calls. -/
def told? : Frame → Option Due
  | .response r => some (.reply r)
  | .resumeResponse results => some (.recall (results.map Resumed.requestId))
  | _ => none

/-- A text that a live socket takes up. -/
structure Heard where
  connection : Nat
  user : String
  clock : Nat
  frame : Except Error Frame
  /-- What the router answers, if it is a request. -/
  outcome : Except Fault Json

namespace Heard

def due? (x : Heard) : Option Due :=
  match x.frame with
  | .ok (.request call) => some (.reply (.ofOutcome call.id x.outcome))
  | .ok (.resume ids) => some (.recall ids)
  | _ => none

/-- Whether it is malformed or a frame that no machine sends. -/
def isIdle (x : Heard) : Bool :=
  match x.frame with
  | .error _ | .ok (.auth _) | .ok (.init _) | .ok (.resumeResponse _) | .ok (.error _) => true
  | _ => false

end Heard

namespace Socket

/-- What a frame of a live machine does when the router gives this outcome for a request. -/
def handleWith (outcome : Except Fault Json) (m : Moment) (j : Nat) (user : String) (h : Hub) :
    Frame → Hub
  | .request call =>
    push { h with resume := h.resume.record m.clock user call outcome } j
      (.response (.ofOutcome call.id outcome))
  | f => handle m j user h f

/-- The router's outcome for a frame. -/
def routed (h : Hub) (user : String) : Except Error Frame → Except Fault Json
  | .ok (.request call) => h.router.answer h.reports user call.method call.params
  | _ => .ok .null

theorem handle_eq (m : Moment) (j : Nat) (user : String) (h : Hub) (f : Frame) :
    handle m j user h f = handleWith (routed h user (.ok f)) m j user h f := by
  cases f <;> rfl

/-- The text that a live socket takes up next: its connection, the user and what it is. -/
def hears? (s : Socket) (h : Hub) : Option (Nat × String × Except Error Frame) :=
  match s.stage, s.inbox with
  | .live j _, .text t :: _ =>
    h.connections.opened[j]?.bind fun c =>
      if c.closing then none else some (j, c.userId, Frame.parse t)
  | _, _ => none

/-- Takes up a text when the router gives this outcome for a request. -/
def hearWith (outcome : Except Fault Json) (s : Socket) (m : Moment) (j deadline : Nat)
    (user text : String) (h : Hub) : Socket × Hub :=
  match Frame.parse text with
  | .error _ => (s, h)
  | .ok f =>
    let deadline := match f with
      | .heartbeat _ => m.clock + h.settings.ws.heartbeatTimeout
      | _ => deadline
    ({ s with stage := .live j deadline }, handleWith outcome m j user h f)

theorem hear_eq (s : Socket) (m : Moment) (j deadline : Nat) (user text : String) (h : Hub) :
    s.hear m j deadline user text h =
      hearWith (routed h user (Frame.parse text)) s m j deadline user text h := by
  unfold hear hearWith
  cases Frame.parse text with
  | error e => rfl
  | ok f => exact congrArg (Prod.mk _) (handle_eq m j user h f)

/-- The move of a live socket that takes up a text, when the router gives this outcome for a request. -/
def serve (s : Socket) (m : Moment) (outcome : Except Fault Json) (h : Hub) :
    Option (Socket × Hub) :=
  match s.stage, s.inbox with
  | .live j deadline, .text t :: rest =>
    h.connections.opened[j]?.bind fun c =>
      if c.closing then none
      else some (hearWith outcome { s with inbox := rest } m j deadline c.userId t h)
  | _, _ => none

/-- A live socket before it takes up a text. -/
structure Hears (s : Socket) (h : Hub) (j deadline : Nat) (c : Connection) (t : String)
    (rest : List Arrival) : Prop where
  stage : s.stage = .live j deadline
  inbox : s.inbox = .text t :: rest
  found : h.connections.opened[j]? = some c
  opened : c.closing = false

theorem hears_of {frame : Except Error Frame} (hx : s.hears? h = some (j, user, frame)) :
    ∃ deadline c t rest, s.Hears h j deadline c t rest ∧ user = c.userId ∧ frame = Frame.parse t := by
  unfold hears? at hx
  split at hx
  · rename_i i deadline t rest hstage hinbox
    obtain ⟨c, hc, hx⟩ := Option.bind_eq_some_iff.mp hx
    split at hx
    · cases hx
    · rename_i hopen
      cases hx
      exact ⟨deadline, c, t, rest, ⟨hstage, hinbox, hc, by simpa using hopen⟩, rfl, rfl⟩
  · cases hx

namespace Hears

variable {deadline : Nat} {t : String} {rest : List Arrival}

theorem hears? (hs : s.Hears h j deadline c t rest) :
    s.hears? h = some (j, c.userId, Frame.parse t) := by
  unfold Socket.hears?
  simp [hs.stage, hs.inbox, hs.found, hs.opened]

theorem serve_eq (hs : s.Hears h j deadline c t rest) (m : Moment) (outcome : Except Fault Json) :
    s.serve m outcome h =
      some (hearWith outcome { s with inbox := rest } m j deadline c.userId t h) := by
  simp only [serve, hs.stage, hs.inbox, hs.found, Option.bind_some, hs.opened, Bool.false_eq_true,
    ↓reduceIte]

/-- A socket that hears a text serves it with the router's own outcome. -/
theorem next_eq (hs : s.Hears h j deadline c t rest) (m : Moment) :
    s.next m h = s.serve m (routed h c.userId (Frame.parse t)) h := by
  rw [hs.serve_eq, ← hear_eq]
  simp only [next, attend, hs.stage, hs.inbox, hs.found, Option.bind_some, hs.opened,
    Bool.false_eq_true, ↓reduceIte]

end Hears

/-- A live socket that takes up no text leaves the connections, or leaves. -/
theorem next_deaf {deadline deadline' : Nat} (hs : s.stage = .live j deadline)
    (hs' : s'.stage = .live j deadline') (hn : s.next m h = some (s', g)) (deaf : s.hears? h = none) :
    g = h := by
  unfold next at hn
  simp only [hs] at hn
  obtain ⟨c, hc, hn⟩ := Option.bind_eq_some_iff.mp hn
  have leaves {x : Socket} {ending : Ending} (hx : x.leave j c ending h = (s', g)) : g = h := by
    cases hx
    cases hs'
  unfold attend at hn
  split at hn
  · exact leaves (Option.some.inj hn)
  · rename_i hopen
    cases hi : s.inbox with
    | nil =>
      simp only [hi] at hn
      split at hn
      · exact leaves (Option.some.inj hn)
      · cases hn
    | cons a rest =>
      cases a with
      | text t =>
        have := Hears.hears? ⟨hs, hi, hc, by simpa using hopen⟩
        rw [deaf] at this
        cases this
      | other =>
        simp only [hi] at hn
        cases hn
        rfl
      | close => simp only [hi] at hn; exact leaves (Option.some.inj hn)
      | lost => simp only [hi] at hn; exact leaves (Option.some.inj hn)

theorem handleWith_same (outcome : Except Fault Json) (m : Moment) (j : Nat) (user : String) (h : Hub)
    (f : Frame) :
    (handleWith outcome m j user h f).given = h.given ∧
    (handleWith outcome m j user h f).connections.current = h.connections.current ∧
    Gains (some j) [] h.connections (handleWith outcome m j user h f).connections := by
  cases f with
  | request call => exact push_same { h with resume := _ } j _
  | _ => exact handle_same m j user h _

/-- A frame that is pushed on a connection with a writer is queued. -/
theorem push_queued (hc : h.connections.opened[j]? = some c) (hw : c.writable = true) (f : Frame) :
    (push h j f).connections.queued j = h.connections.queued j ++ [f] ∧
      (push h j f).resume = h.resume := by
  unfold push
  rw [Connections.send_of_writable hc hw]
  exact ⟨by simp [Connections.queued, Connections.change, hc], rfl⟩

/-- Frames that neither ask nor resume queue nothing. -/
theorem handle_queued (m : Moment) (j : Nat) (user : String) (h : Hub) (f : Frame)
    (hf : ∀ call, f ≠ .request call) (hf' : ∀ ids, f ≠ .resume ids) :
    (handle m j user h f).connections.queued j = h.connections.queued j := by
  cases f with
  | request call => exact absurd rfl (hf call)
  | resume ids => exact absurd rfl (hf' ids)
  | response reply =>
    obtain ⟨added, hq, hadded⟩ := ((Connections.silent_resolve h.connections j reply).gains none).queued j
    change (h.connections.resolve j reply).2.queued j = _
    rw [hq, hadded nofun]
    simp [requestsOn, callsOn]
  | fireAndForget method payload =>
    simp only [handle]
    split <;> rfl
  | sessionEvent session event data =>
    simp only [handle]
    split <;> rfl
  | _ => rfl

theorem push_onward (h : Hub) (j : Nat) (f : Frame) : h.connections.Onward (push h j f).connections := by
  unfold push
  split
  · exact Connections.onward_send ‹_›
  · exact .refl _

theorem handleWith_onward (outcome : Except Fault Json) (m : Moment) (j : Nat) (user : String) (h : Hub)
    (f : Frame) : h.connections.Onward (handleWith outcome m j user h f).connections := by
  cases f with
  | request call =>
    let kept : Hub := { h with resume := h.resume.record m.clock user call outcome }
    exact push_onward kept j _
  | resume ids =>
    let kept : Hub := { h with resume := (h.resume.resolve m.clock user ids).2 }
    exact push_onward kept j _
  | response reply => exact Connections.onward_resolve _ j reply
  | fireAndForget method payload =>
    simp only [handleWith, handle]
    split <;> exact .refl _
  | sessionEvent session event data =>
    simp only [handleWith, handle]
    split <;> exact .refl _
  | _ => exact .refl _

end Socket

/-! ### One text -/

/-- What is done for a text. The outcome of a request is kept by the time that its response is queued;
what a machine does not send, or what is not a frame at all, does nothing. -/
structure Heard.Served (x : Heard) (h g : Hub) : Prop where
  user : ∃ c, h.connections.opened[x.connection]? = some c ∧ c.userId = x.user
  request : ∀ call, x.frame = .ok (.request call) →
    (h.resume.record x.clock x.user call x.outcome).find? x.user call.id =
      some ⟨x.user, call, x.clock, x.outcome⟩ ∧
    g = Socket.push { h with resume := h.resume.record x.clock x.user call x.outcome } x.connection
      (.response (.ofOutcome call.id x.outcome)) ∧
    g.connections.queued x.connection =
      h.connections.queued x.connection ++ [.response (.ofOutcome call.id x.outcome)]
  resume : ∀ ids, x.frame = .ok (.resume ids) → ∃ results, results.map Resumed.requestId = ids ∧
    g.connections.queued x.connection = h.connections.queued x.connection ++ [.resumeResponse results]
  rest : x.due? = none → g.connections.queued x.connection = h.connections.queued x.connection
  idle : x.isIdle = true → g = h

/-- What is queued for a text is told for what is due. -/
theorem Heard.Served.told {x : Heard} (hs : x.Served h g) :
    (g.connections.queued x.connection).filterMap told? =
      (h.connections.queued x.connection).filterMap told? ++ x.due?.toList := by
  cases hd : x.due? with
  | none => rw [hs.rest hd, Option.toList_none, List.append_nil]
  | some d =>
    unfold due? at hd
    split at hd
    · rename_i call hf
      cases hd
      rw [(hs.request call hf).2.2, List.filterMap_append]
      rfl
    · rename_i ids hf
      cases hd
      obtain ⟨results, hids, hq⟩ := hs.resume ids hf
      rw [hq, List.filterMap_append, ← hids]
      rfl
    · cases hd

namespace Socket

theorem handleWith_served (hc : h.connections.opened[j]? = some c) (hw : c.writable = true) (f : Frame) :
    (⟨j, c.userId, m.clock, .ok f, outcome⟩ : Heard).Served h (handleWith outcome m j c.userId h f) := by
  refine ⟨⟨c, hc, rfl⟩, fun call hf => ?_, fun ids hf => ?_, fun hd => ?_, fun hi => ?_⟩
  · cases hf
    let kept : Hub := { h with resume := h.resume.record m.clock c.userId call outcome }
    exact ⟨Resume.find?_record .., rfl, (push_queued (h := kept) hc hw _).1⟩
  · cases hf
    let kept : Hub := { h with resume := (h.resume.resolve m.clock c.userId ids).2 }
    exact ⟨_, Resume.resolve_ids .., (push_queued (h := kept) hc hw _).1⟩
  · cases f with
    | request call => cases hd
    | resume ids => cases hd
    | _ => exact handle_queued m j c.userId h _ nofun nofun
  · cases f with
    | auth _ | init _ | resumeResponse _ | error _ => rfl
    | _ => cases hi

variable {deadline : Nat} {t : String} {rest : List Arrival}

/-- A live socket with a writer serves the texts that it takes up. -/
theorem Hears.served (hs : s.Hears h j deadline c t rest) (hm : h.connections.Manned) (m : Moment)
    (outcome : Except Fault Json) :
    (⟨j, c.userId, m.clock, Frame.parse t, outcome⟩ : Heard).Served h
      (hearWith outcome { s with inbox := rest } m j deadline c.userId t h).2 := by
  have hw := hm c (List.mem_of_getElem? hs.found) hs.opened
  unfold hearWith
  split
  · rename_i e he
    rw [he]
    exact ⟨⟨c, hs.found, rfl⟩, nofun, nofun, fun _ => rfl, fun _ => rfl⟩
  · rename_i f hf
    rw [hf]
    exact handleWith_served hs.found hw f

/-- A text that does nothing is only taken out of the inbox. -/
theorem Hears.idle (hs : s.Hears h j deadline c t rest)
    (hi : (⟨j, c.userId, m.clock, Frame.parse t, outcome⟩ : Heard).isIdle = true) :
    hearWith outcome { s with inbox := rest } m j deadline c.userId t h =
      ({ s with inbox := s.inbox.tail }, h) := by
  rw [hs.inbox, List.tail_cons]
  unfold hearWith
  split
  · rfl
  · rename_i f hf
    rw [hf] at hi
    have hstage : ({ s with stage := .live j deadline, inbox := rest } : Socket) =
        { s with inbox := rest } := by rw [← hs.stage]
    cases f with
    | auth _ | init _ | resumeResponse _ | error _ => exact congrArg (·, h) hstage
    | _ => cases hi

theorem Hears.stays (hs : s.Hears h j deadline c t rest) (m : Moment) (outcome : Except Fault Json) :
    ∃ d, (hearWith outcome { s with inbox := rest } m j deadline c.userId t h).1.stage = .live j d ∧
      (hearWith outcome { s with inbox := rest } m j deadline c.userId t h).1.written = s.written := by
  unfold hearWith
  split
  · exact ⟨deadline, hs.stage, rfl⟩
  · exact ⟨_, rfl, rfl⟩

theorem Hears.went (hs : s.Hears h j deadline c t rest) (m : Moment) (outcome : Except Fault Json) :
    s.Went h (hearWith outcome { s with inbox := rest } m j deadline c.userId t h).1
      (hearWith outcome { s with inbox := rest } m j deadline c.userId t h).2 := by
  unfold hearWith
  split
  · exact .lived hs.stage hs.stage rfl rfl (.refl _ _)
  · rename_i f _
    obtain ⟨_, hcurrent, hgains⟩ := handleWith_same outcome m j c.userId h f
    exact .lived hs.stage rfl rfl hcurrent hgains

theorem hearWith_inbox (outcome : Except Fault Json) (s : Socket) (m : Moment) (j deadline : Nat)
    (user text : String) (h : Hub) : (hearWith outcome s m j deadline user text h).1.inbox = s.inbox := by
  unfold hearWith
  split <;> rfl

theorem hearWith_onward (outcome : Except Fault Json) (s : Socket) (m : Moment) (j deadline : Nat)
    (user text : String) (h : Hub) :
    h.connections.Onward (hearWith outcome s m j deadline user text h).2.connections := by
  unfold hearWith
  split
  · exact .refl _
  · exact handleWith_onward ..

/-- A socket that takes up no text is not served one. -/
theorem serve_deaf (deaf : s.hears? h = none) : s.serve m outcome h = none := by
  unfold serve
  unfold hears? at deaf
  split at deaf
  · simp only [Option.bind_eq_none_iff] at deaf ⊢
    intro c hc
    have := deaf c hc
    split at this
    · rw [if_pos ‹_›]
    · cases this
  · rfl

theorem write_onward (hw : s.write h = some (s', g)) : h.connections.Onward g.connections := by
  unfold write at hw
  split at hw
  · cases hw
  · obtain ⟨j, _, hw⟩ := Option.bind_eq_some_iff.mp hw
    obtain ⟨c, hc, hw⟩ := Option.bind_eq_some_iff.mp hw
    split at hw
    · cases hw
      exact .of_same rfl fun _ => ⟨rfl, rfl⟩
    · split at hw
      · rename_i hclosing
        cases hw
        refine .of_modify rfl fun d hd => ⟨id, fun hopen => ?_⟩
        obtain rfl := Option.some.inj (hc.symm.trans hd)
        rw [show c.hangUp.closing = c.closing from rfl, hclosing] at hopen
        cases hopen
      · cases hw

end Socket
end Fleet.Control
