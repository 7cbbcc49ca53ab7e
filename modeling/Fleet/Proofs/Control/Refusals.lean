import Fleet.Http.Service
import Fleet.Proofs.Control.Browsing
import Fleet.Proofs.Http.Paths

/-!
Messages that are refused before anything is sent to a machine. Such a request leaves the connections, the routes
and the relay as they were: its feed is registered before anything is looked at, and taken back when it is refused.
Where the header or the session's name is the reason, the rows are as they were too.
-/

namespace Fleet

/-! ### Registrations -/

namespace Feed.Relay

variable {r r' : Relay} {c : Connection} {id session : String} {m : List (String × List String)}

/-- Who goes again after coming leaves the ids as they were. -/
theorem detach_attach (filled : Filled m) (new : id ∉ idsIn m session) :
    detach session id (attach session id m) = m := by
  induction m with
  | nil => simp [attach, detach]
  | cons q rest ih =>
    obtain ⟨name, ids⟩ := q
    have hrest : Filled rest := fun q hq => filled q (List.mem_cons_of_mem _ hq)
    rw [idsIn_cons] at new
    by_cases hname : name = session
    · subst hname
      rw [if_pos rfl] at new
      have hids : (ids ++ [id]).filter (· ≠ id) = ids := by
        have hold : ids.filter (· ≠ id) = ids :=
          List.filter_eq_self.mpr fun x hx => by simpa using fun hsame : x = id => new (hsame ▸ hx)
        rw [List.filter_append, hold]
        simp
      have hne : ids.isEmpty = false := List.isEmpty_eq_false_iff.mpr (filled (name, ids) List.mem_cons_self)
      have hnew : ids.contains id = false := by simpa using new
      simp only [attach, hnew, detach, if_true, Bool.false_eq_true, if_false, hids, hne]
    · rw [if_neg (Ne.symm hname)] at new
      rw [attach, if_neg hname, detach, if_neg hname, ih hrest new]

theorem remove_of_new (new : ∀ d ∈ r.connections, d.id ≠ id) : r.remove id = r := by
  have hnone : r.find? id = none := List.find?_eq_none.mpr fun d hd => by simp [new d hd]
  rw [remove, hnone]

/-- A registration that is taken back leaves the relay as it was. -/
theorem Kept.remove_register (h : r.Kept) (new : ∀ d ∈ r.connections, d.id ≠ c.id) :
    (r.register c).remove c.id = r := by
  have hfind : Relay.find? ⟨r.connections ++ [c], attach c.session c.id r.sessions⟩ c.id = some c := by
    have hnone : r.connections.find? (fun d => d.id == c.id) = none :=
      List.find?_eq_none.mpr fun d hd => by simp [new d hd]
    simp [find?, hnone]
  have hids : c.id ∉ idsIn r.sessions c.session := fun hmem => by
    obtain ⟨d, hd, hid, -⟩ := (h.sound.mem_ids c.session c.id).mp hmem
    exact new d hd hid
  have hconnections : (r.connections ++ [c]).filter (fun d => d.id != c.id) = r.connections := by
    rw [List.filter_append, List.filter_eq_self.mpr fun d hd => by simp [new d hd]]
    simp
  rw [Relay.register, remove_of_new new, remove, hfind]
  dsimp only
  rw [hconnections, detach_attach h.filled hids]

/-- Some connections have gone. -/
def Shrinks (r r' : Relay) : Prop := ∃ ids, r' = r.removeAll ids

theorem Shrinks.refl (r : Relay) : r.Shrinks r := ⟨[], rfl⟩

theorem Shrinks.remove (h : r.Shrinks r') (id : String) : r.Shrinks (r'.remove id) := by
  obtain ⟨ids, rfl⟩ := h
  exact ⟨ids ++ [id], by rw [removeAll, removeAll, List.foldl_append]; rfl⟩

theorem Shrinks.kept (h : r.Shrinks r') (hr : r.Kept) : r'.Kept := by
  obtain ⟨ids, rfl⟩ := h
  exact hr.removeAll ids

theorem Shrinks.subset (h : r.Shrinks r') : r'.connections ⊆ r.connections := by
  obtain ⟨ids, rfl⟩ := h
  exact removeAll_subset r ids

end Feed.Relay

namespace Control

open Hub
open Feed (Relay)

namespace Hub

variable {h : Hub}

theorem relay_aired (h : Hub) (a : Airing) : h.relay.Shrinks (h.aired a).relay := by
  cases a with
  | silence => exact .refl _
  | notice session n => exact Relay.offer_relay _ _ _
  | close session => exact ⟨_, Relay.closeSession_relay sinks h.relay session h.feeds⟩

end Hub

namespace Plane

variable {p q : Plane} {t : Turn} {x : Step} {steps : List Step}

theorem relay_settle (v : Visit) {h : Hub} {r : Relay} (hr : r.Shrinks h.relay) : r.Shrinks (settle v h).relay := by
  unfold settle
  split
  · exact hr.remove _
  · exact hr

/-- What a turn does to the relay: connections go, and perhaps the feed of a new visit comes before. -/
theorem Turned.relay (ht : Turned p t q) : p.hub.relay.Shrinks q.hub.relay ∨
    ∃ session, (p.hub.relay.register ⟨feedId t, session, feedId t⟩).Shrinks q.hub.relay := by
  have haired := relay_aired p.hub (p.airing t)
  have hair {g h : Hub} (air : g.air = h.air) : g.relay = h.relay := congrArg Prod.fst air
  cases ht with
  | still air visits => exact .inl (hair air ▸ haired)
  | errand n v stage g there present next air hub visits =>
    exact .inl (hub ▸ relay_settle _ (hair air ▸ haired))
  | read n v id c x rest there feed listens found queue silent hub visits =>
    left
    rw [hub]
    split
    · exact (Relay.Shrinks.refl _).remove id
    · exact .refl _
  | finished n v id there feed listens closed silent hub visits =>
    exact .inl (hub ▸ (Relay.Shrinks.refl _).remove id)
  | left n v g there silent air hub visits =>
    left
    have hsame : p.hub.relay.Shrinks g.relay := hair air ▸ .refl _
    rw [hub]
    cases v.feed with
    | none => exact hsame
    | some id => exact hsame.remove id
  | came v g act blank visits hub feed =>
    rw [hub]
    rcases feed with ⟨_, _, air⟩ | ⟨_, _, air⟩
    · exact .inl (relay_settle v (hair air ▸ haired))
    · have hcame : (p.hub.relay.register ⟨feedId t, v.errand.sessionId, feedId t⟩).Shrinks g.relay := by
        rw [hair air]
        exact .refl _
      exact .inr ⟨_, relay_settle v hcame⟩

theorem relay_step (p : Plane) (x : Step) : p.hub.relay.Shrinks (p.step x).hub.relay ∨
    ∃ id session, x.id? = some id ∧ (p.hub.relay.register ⟨id, session, id⟩).Shrinks (p.step x).hub.relay := by
  cases x with
  | turn t =>
    rcases (turned_take p t).relay with hless | ⟨session, hmore⟩
    · exact .inl hless
    · exact .inr ⟨feedId t, session, rfl, hmore⟩
  | forward session n => exact .inl (relay_aired p.hub (.notice session n))
  | close session => exact .inl (relay_aired p.hub (.close session))
  | register id session => exact .inr ⟨id, session, rfl, .refl _⟩

/-- The relay is in order, and its connections were registered in one of these steps. -/
structure Listed (ids : List String) (p : Plane) : Prop where
  kept : p.hub.relay.Kept
  known : ∀ c ∈ p.hub.relay.connections, c.id ∈ ids

theorem Listed.step {ids : List String} (h : Listed ids p) (x : Step) :
    Listed (ids ++ x.id?.toList) (p.step x) := by
  rcases relay_step p x with hless | ⟨id, session, hid, hmore⟩
  · exact ⟨hless.kept h.kept, fun c hc => List.mem_append_left _ (h.known c (hless.subset hc))⟩
  · refine ⟨hmore.kept (h.kept.register _), fun c hc => ?_⟩
    rcases Relay.mem_register (hmore.subset hc) with rfl | ⟨hold, -⟩
    · exact List.mem_append_right _ (by simp [hid])
    · exact List.mem_append_left _ (h.known c hold)

theorem Listed.walk {ids : List String} (h : Listed ids p) (steps : List Step) :
    Listed (ids ++ steps.filterMap Step.id?) (walk steps p) := by
  induction steps generalizing p ids with
  | nil => rwa [List.filterMap_nil, List.append_nil]
  | cons x rest ih =>
    have hnext := ih (h.step x)
    rw [List.append_assoc] at hnext
    cases hx : x.id? with
    | none => rwa [hx, Option.toList_none, List.nil_append, ← List.filterMap_cons_none hx] at hnext
    | some id => rwa [hx, Option.toList_some, List.singleton_append, ← List.filterMap_cons_some hx] at hnext

theorem listed_start (settings : Settings.ControlPlane) (policy : Vm.Policy) (store : Vm.Store)
    (secrets : List (String × String)) (router : Router) :
    Listed [] (start settings policy store secrets router) :=
  ⟨⟨.empty, nofun⟩, nofun⟩

end Plane

end Control

/-! ### Requests -/

namespace Http

open Control (Errand Hub Moment Plane Visit)
open Control.Plane (Listed)

/-- Serves a request that nothing else comes between: where it has no answer at once, its visit goes on as soon as it
has the lock of the user's rows. -/
def post (p : Plane) (m later : Moment) (r : Request) : Option Response × Plane :=
  match serve p m r with
  | (some a, q) => (some a, q)
  | (none, q) =>
    let n := p.visits.length
    let q := (q.move later (.errand n)).getD q
    (q.visits[n]?.bind visitResponse?, q)

/-- Why a message is refused before anything is sent for it. -/
inductive Reason where
  | nobody
  | badSession
  | notReady
  | disconnected
  | otherOwner
  deriving DecidableEq, Repr

/-- Whether the reason is found before the user's rows are looked at. -/
def Reason.early : Reason → Bool
  | .nobody | .badSession => true
  | _ => false

/-- The request is a message, which this errand is for. -/
structure Asks (r : Request) (e : Errand) (org : String) (request : ChatRequest) : Prop where
  errand : decide? r = .ok (.chat e)
  message : e.ask = .message org request

/-- There is this reason to refuse a message, at the time at which the user's rows are looked at. -/
inductive Refused (p : Plane) (later : Moment) (r : Request) : Reason → Prop
  | nobody {part : String} (post : r.method = "POST") (path : Endpoint.ofPath? r.path = some (.messages part))
    (header : said? r "x-user-id" = none) : Refused p later r .nobody
  | badSession {e : Errand} {org : String} {request : ChatRequest} (asks : Asks r e org request)
    (invalid : isSessionId e.sessionId = false) : Refused p later r .badSession
  | notReady {e : Errand} {org : String} {request : ChatRequest} {cause : Error} (asks : Asks r e org request)
    (unready : (p.hub.perform (p.hub.policy.ensure later.vm e.userId org
      (p.hub.connections.isConnected e.userId))).1.bind Vm.Outcome.result = .error cause) :
    Refused p later r .notReady
  | disconnected {e : Errand} {org : String} {request : ChatRequest} (asks : Asks r e org request)
    (absent : p.hub.connections.connectionId? e.userId = none) : Refused p later r .disconnected
  | otherOwner {e : Errand} {org : String} {request : ChatRequest} {route : Control.Route}
    (asks : Asks r e org request) (found : p.hub.route? e.sessionId = some route)
    (other : route.userId ≠ e.userId) : Refused p later r .otherOwner

/-- A message for the errand cannot be dispatched: its user has no connection, or the session has another user. -/
def Stranded (h : Hub) (e : Errand) : Prop :=
  h.connections.connectionId? e.userId = none ∨ ∃ route, h.route? e.sessionId = some route ∧ route.userId ≠ e.userId

/-- The look at the user's rows finds a reason to refuse a message. -/
def Late (p : Plane) (later : Moment) (e : Errand) (org : String) : Prop :=
  (∃ cause, (p.hub.perform (p.hub.policy.ensure later.vm e.userId org
    (p.hub.connections.isConnected e.userId))).1.bind Vm.Outcome.result = .error cause) ∨ Stranded p.hub e

variable {p q : Plane} {m later : Moment} {r : Request} {e : Errand} {org : String} {request : ChatRequest}
  {machines : Vm.World} {cause : Error}

theorem status_ofError (e : Error) : 400 ≤ (Response.ofError e).status := by
  have hstatus : (Response.ofError e).status = e.httpStatus := by
    unfold Response.ofError
    dsimp only
    split <;> rfl
  rw [hstatus]
  cases e <;> simp [Error.httpStatus]

/-- A message without a user is refused as a request. -/
theorem action_nobody {part : String} (header : said? r "x-user-id" = none) :
    ∃ a, action r (.messages part) = .error a ∧ 400 ≤ a.status := by
  have hidentity : identity r = .error (.ofError (.auth "missing x-user-id header")) := by
    rw [identity, header]
  cases hsession : sessionOf part with
  | error a =>
    refine ⟨a, by simp only [action, hsession]; rfl, ?_⟩
    unfold sessionOf at hsession
    split at hsession
    · cases hsession
    · cases hsession
      exact Nat.le_refl 400
  | ok session =>
    cases hrequest : chatRequest r with
    | error a =>
      refine ⟨a, by simp only [action, hsession, hrequest]; rfl, ?_⟩
      unfold chatRequest at hrequest
      split at hrequest
      · cases hrequest
        exact (by decide : 400 ≤ 415)
      split at hrequest
      · cases hrequest
        exact (by decide : 400 ≤ 413)
      split at hrequest
      · cases hrequest
      · split at hrequest
        · cases hrequest
          exact Nat.le_refl 400
        · cases hrequest
          exact (by decide : 400 ≤ 422)
    | ok request =>
      exact ⟨_, by simp only [action, hsession, hrequest, hidentity]; rfl, status_ofError _⟩

/-! ### Refusals -/

/-- A message that waits for the user's rows: its feed is registered. -/
def entered (p : Plane) (id : String) (e : Errand) : Plane :=
  { p with
    hub := p.hub.listen id e.sessionId
    visits := p.visits ++
      [{ errand := e, feed := some id, stage := .ensuring (p.hub.connections.isConnected e.userId) }] }

/-- A refused message has left: its feed was registered and taken back, and the user's rows may have changed. -/
def left (p : Plane) (id : String) (machines : Vm.World) (e : Errand) (cause : Error) : Plane :=
  { p with
    hub := Hub.unlisten { p.hub.listen id e.sessionId with machines := machines } id
    visits := p.visits ++ [{ errand := e, feed := some id, stage := .ended (.error cause) }] }

theorem visits_left (p : Plane) (id : String) (machines : Vm.World) (e : Errand) (cause : Error) :
    (left p id machines e cause).visits[p.visits.length]? =
      some { errand := e, feed := some id, stage := .ended (.error cause) } := List.getElem?_concat_length

theorem Asks.serve (asks : Asks r e org request) : serve p m r = (none, p.visit m e) := by
  rw [Http.serve, asks.errand]

theorem Asks.refusal (asks : Asks r e org request) (cause : Error) :
    chatOutcome e.ask (.error cause) = .ofError cause := by
  rw [asks.message]
  rfl

/-- A message for a session without a proper name ends as it begins. -/
theorem Asks.post_badSession (asks : Asks r e org request) (invalid : isSessionId e.sessionId = false) :
    ∃ cause, post p m later r = (some (.ofError cause), left p ("sse-" ++ m.fresh) p.hub.machines e cause) := by
  obtain ⟨cause, hcheck⟩ : ∃ cause, checkSessionId e.sessionId = .error cause := by
    rw [checkSessionId, invalid]
    exact ⟨_, rfl⟩
  have hvisit : p.visit m e = left p ("sse-" ++ m.fresh) p.hub.machines e cause := by
    simp only [Plane.visit, asks.message, Errand.begin, hcheck]
    rfl
  refine ⟨cause, ?_⟩
  simp only [post, asks.serve, hvisit, Plane.move, Plane.moveErrand, visits_left, Option.bind_some, Errand.next,
    Option.map_none, ite_self, Option.getD_none]
  rw [visitResponse?, ← asks.refusal]
  rfl

/-- A message whose errand ends as soon as the user's rows have been looked at. -/
theorem Asks.post_ended (asks : Asks r e org request) (valid : isSessionId e.sessionId = true)
    (ends : e.next later (p.hub.listen ("sse-" ++ m.fresh) e.sessionId)
        (.ensuring (p.hub.connections.isConnected e.userId)) =
      some (.ended (.error cause), { p.hub.listen ("sse-" ++ m.fresh) e.sessionId with machines := machines })) :
    post p m later r = (some (.ofError cause), left p ("sse-" ++ m.fresh) machines e cause) := by
  have hcheck : checkSessionId e.sessionId = .ok () := by rw [checkSessionId, if_pos valid]
  have hvisit : p.visit m e = entered p ("sse-" ++ m.fresh) e := by
    simp only [Plane.visit, asks.message, Errand.begin, hcheck]
    rfl
  have hmove : (entered p ("sse-" ++ m.fresh) e).move later (.errand p.visits.length) =
      some (left p ("sse-" ++ m.fresh) machines e cause) := by
    simp only [entered, Plane.move, Plane.moveErrand, List.getElem?_concat_length, Option.bind_some, if_true]
    rw [ends]
    simp [Plane.setVisit, Plane.settle, left]
  simp only [post, asks.serve, hvisit, hmove, Option.getD_some, visits_left]
  rw [← asks.refusal]
  rfl

/-- Without a connection of the user's, or with another user's route, a message is not dispatched. -/
theorem Stranded.dispatch {h : Hub} (stranded : Stranded h e) :
    ∃ cause, e.dispatch later request h = (.ended (.error cause), h) := by
  unfold Errand.dispatch
  cases hconnection : h.connections.connectionId? e.userId with
  | none => exact ⟨_, rfl⟩
  | some connection =>
    rw [Stranded, hconnection] at stranded
    obtain ⟨route, hroute, hother⟩ := stranded.resolve_left nofun
    simp only [hroute, if_pos hother]
    exact ⟨_, rfl⟩

/-- A message for a session with a proper name that is refused ends with the look at the user's rows. -/
theorem Asks.post_late (asks : Asks r e org request) (valid : isSessionId e.sessionId = true)
    (late : Late p later e org) :
    ∃ cause machines, post p m later r = (some (.ofError cause), left p ("sse-" ++ m.fresh) machines e cause) := by
  let connected := p.hub.connections.isConnected e.userId
  let work := p.hub.policy.ensure later.vm e.userId org connected
  let machines := (p.hub.perform work).2.machines
  let listening := p.hub.listen ("sse-" ++ m.fresh) e.sessionId
  have hperform : listening.perform work = ((p.hub.perform work).1, { listening with machines := machines }) := rfl
  obtain ⟨cause, hends⟩ : ∃ cause, e.next later listening (.ensuring connected) =
      some (.ended (.error cause), { listening with machines := machines }) := by
    simp only [Errand.next, asks.message]
    rw [show listening.policy.ensure later.vm e.userId org connected = work from rfl, hperform]
    dsimp only
    cases hresult : (p.hub.perform work).1.bind Vm.Outcome.result with
    | error cause => exact ⟨cause, rfl⟩
    | ok row =>
      have hready : ¬ ∃ cause, (p.hub.perform work).1.bind Vm.Outcome.result = .error cause := by
        rintro ⟨cause, hcause⟩
        cases hresult.symm.trans hcause
      have hstranded : Stranded { listening with machines := machines } e := late.resolve_left hready
      have hdispatch : ∃ cause, e.dispatch later request { listening with machines := machines } =
          (.ended (.error cause), { listening with machines := machines }) := hstranded.dispatch
      exact hdispatch.imp fun cause h => congrArg some h
  exact ⟨cause, machines, asks.post_ended valid hends⟩

/-- The sockets, the connections, the routes and the relay are as they were: nothing is on its way to a machine, and
nobody is routed or registered who was not. -/
structure Untouched (p q : Plane) : Prop where
  sockets : q.sockets = p.sockets
  connections : q.hub.connections = p.hub.connections
  routes : q.hub.routes = p.hub.routes
  relay : q.hub.relay = p.hub.relay

theorem untouched_left {ids : List String} {id : String} (h : Listed ids p) (new : id ∉ ids) (machines : Vm.World)
    (e : Errand) (cause : Error) : Untouched p (left p id machines e cause) := by
  refine ⟨rfl, rfl, rfl, h.kept.remove_register fun d hd hid => ?_⟩
  have hsame : d.id = id := hid
  exact new (hsame ▸ h.known d hd)

/-- Wherever a control plane has got to: a message that nothing else comes between, and that is refused because it
names no user, because the session's name is not accepted, because the user's machine is not ready or not connected
or because the session is routed to another user, is answered as a failure. Nothing is queued for any machine, no
route has changed, and the relay has the registrations that it had. Where the user or the session's name is the
reason, no row has changed and nothing was launched. -/
theorem refused_message_leaves_no_trace (settings : Settings.ControlPlane) (policy : Vm.Policy) (store : Vm.Store)
    (secrets : List (String × String)) (router : Control.Router) (steps : List Control.Plane.Step)
    (m later : Moment) (new : "sse-" ++ m.fresh ∉ steps.filterMap Control.Plane.Step.id?) (r : Request)
    (reason : Reason)
    (refused : Refused (Plane.walk steps (Plane.start settings policy store secrets router)) later r reason) :
    let p := Plane.walk steps (Plane.start settings policy store secrets router)
    let served := post p m later r
    (∃ a, served.1 = some a ∧ 400 ≤ a.status) ∧ Untouched p served.2 ∧
      (reason.early = true → served.2.hub.machines = p.hub.machines) := by
  intro p served
  have hlisted : Listed (steps.filterMap Control.Plane.Step.id?) p :=
    (Control.Plane.listed_start settings policy store secrets router).walk steps
  have hleft {cause : Error} {machines : Vm.World} {e : Errand}
      (h : served = (some (.ofError cause), left p ("sse-" ++ m.fresh) machines e cause)) :
      (∃ a, served.1 = some a ∧ 400 ≤ a.status) ∧ Untouched p served.2 ∧ served.2.hub.machines = machines := by
    rw [h]
    exact ⟨⟨_, rfl, status_ofError cause⟩, untouched_left hlisted new machines e cause, rfl⟩
  have hearly {e : Errand} {org : String} {request : ChatRequest} (asks : Asks r e org request)
      (invalid : isSessionId e.sessionId = false) := hleft (asks.post_badSession invalid).choose_spec
  have hlate {e : Errand} {org : String} {request : ChatRequest} (asks : Asks r e org request)
      (late : Late p later e org) : (∃ a, served.1 = some a ∧ 400 ≤ a.status) ∧ Untouched p served.2 := by
    cases hvalid : isSessionId e.sessionId with
    | false => exact ⟨(hearly asks hvalid).1, (hearly asks hvalid).2.1⟩
    | true =>
      obtain ⟨cause, machines, h⟩ := asks.post_late hvalid late
      exact ⟨(hleft h).1, (hleft h).2.1⟩
  cases refused with
  | nobody method path header =>
    obtain ⟨a, haction, hstatus⟩ := action_nobody header
    have hserved : served = (some a, p) := by
      have hdecide : decide? r = .error a := by
        simp only [decide?, method, path]
        rw [if_neg (by decide), ← haction]
        rfl
      simp only [served, post, serve, hdecide]
    rw [hserved]
    exact ⟨⟨a, rfl, hstatus⟩, ⟨rfl, rfl, rfl, rfl⟩, fun _ => rfl⟩
  | badSession asks invalid =>
    obtain ⟨hanswer, huntouched, hmachines⟩ := hearly asks invalid
    exact ⟨hanswer, huntouched, fun _ => hmachines⟩
  | notReady asks unready =>
    obtain ⟨hanswer, huntouched⟩ := hlate asks (.inl ⟨_, unready⟩)
    exact ⟨hanswer, huntouched, nofun⟩
  | disconnected asks absent =>
    obtain ⟨hanswer, huntouched⟩ := hlate asks (.inr (.inl absent))
    exact ⟨hanswer, huntouched, nofun⟩
  | otherOwner asks found other =>
    obtain ⟨hanswer, huntouched⟩ := hlate asks (.inr (.inr ⟨_, found, other⟩))
    exact ⟨hanswer, huntouched, nofun⟩

/-- Bob's message for a session that alice has. -/
def bobs : Request where
  method := "POST"
  target := messagesPath "s"
  headers := [("x-user-id", Text.encode "bob"), ("content-type", Text.encode "application/json")]
  body := Text.encode "\x7b\"message\":\"hi\"\x7d"

def bobsMoment : Moment := ⟨⟨⟨0, 0⟩, 0, "row-bobs", "ticket-bobs", .ok ()⟩, 0, "bobs"⟩

/-- Alice listens to her session, and bob's message for it leaves no trace. Nor does it where nobody is told to have
sent it, and then the rows are as they were too. -/
theorem message_for_a_session_of_alice_is_refused :
    let p := Plane.walk Plane.listening Plane.opening
    let served := post p bobsMoment bobsMoment bobs
    let nobodys := post p bobsMoment bobsMoment { bobs with headers := [] }
    ((∃ a, served.1 = some a ∧ 400 ≤ a.status) ∧ Untouched p served.2) ∧
      Untouched p nobodys.2 ∧ nobodys.2.hub.machines = p.hub.machines := by
  intro p served nobodys
  have hpath : Endpoint.ofPath? bobs.path = some (.messages "s") := by
    rw [show bobs.path = messagesPath "s" by decide +kernel]
    exact ofPath?_messagesPath (by decide)
  have hnew : "sse-" ++ bobsMoment.fresh ∉ Plane.listening.filterMap Plane.Step.id? := by decide +kernel
  have hsession : sessionOf "s" = .ok "s" := by decide +kernel
  have hrequest : chatRequest bobs = .ok { message := "hi" } := by decide +kernel
  have hidentity : identity bobs = .ok ⟨"bob", ""⟩ := by decide +kernel
  have hasks : Asks bobs ⟨"bob", "s", .message "" { message := "hi" }⟩ "" { message := "hi" } := by
    refine ⟨?_, rfl⟩
    have hallows : (Endpoint.messages "s").allows bobs.method = true := by decide
    simp only [decide?, hpath, hallows, action, hsession, hrequest, hidentity]
    rfl
  have hroute : (p.hub.route? "s").map Control.Route.userId = some "alice" := by decide +kernel
  obtain ⟨route, found, howner⟩ := Option.map_eq_some_iff.mp hroute
  have hother : route.userId ≠ "bob" := by
    rw [howner]
    decide
  have hserved := refused_message_leaves_no_trace {} ⟨{}, ⟨"secret", 600⟩⟩ { keeping := .arrival } [] {}
    Plane.listening bobsMoment bobsMoment hnew bobs .otherOwner (.otherOwner hasks found hother)
  have hnobodys := refused_message_leaves_no_trace {} ⟨{}, ⟨"secret", 600⟩⟩ { keeping := .arrival } [] {}
    Plane.listening bobsMoment bobsMoment hnew { bobs with headers := [] } .nobody (.nobody rfl hpath rfl)
  exact ⟨⟨hserved.1, hserved.2.1⟩, hnobodys.2.1, hnobodys.2.2 rfl⟩

end Http

end Fleet
