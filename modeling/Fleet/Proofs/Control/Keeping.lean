import Fleet.Proofs.Control.Browsing
import Fleet.Proofs.Control.Ownership

/-!
A session that one user asks for and does not stop. It stays that user's as long as a browser listens to
it, and its feeds are sent what the user's machine emits for it while it is the user's.
-/

namespace Fleet.Control

open Hub
open Feed (Notice)

/-! ### What requests do to routes -/

/-- A session that a browser listens to is not forgotten. -/
theorem Hub.route?_pruneRoutes_of_has {h : Hub} {s : String} (listened : h.relay.has s = true)
    (user connection : String) : (h.pruneRoutes user connection).route? s = h.route? s := by
  change (h.routes.filter _).find? _ = h.routes.find? _
  rw [List.find?_filter]
  congr 1
  funext r
  by_cases hr : r.sessionId = s
  · simp [hr, listened]
  · simp [hr]

namespace Errand

variable {e : Errand} {m : Moment} {h h' g : Hub} {stage stage' : Stage} {rs : List Route}

/-- What a request does to the routes in one move. -/
inductive Reroutes (e : Errand) (h : Hub) : List Route → Prop
  | same : e.Reroutes h h.routes
  | pruned (connection : String) : e.Reroutes h (h.pruneRoutes e.userId connection).routes
  | set (r : Route) (session : r.sessionId = e.sessionId) (user : r.userId = e.userId) :
      e.Reroutes h (h.setRoute r).routes
  | dropped (stop : e.isStop = true) : e.Reroutes h (h.dropRoute e.sessionId).routes

theorem Reroutes.of_eq (hr : e.Reroutes g rs) (routes : g.routes = h.routes) (relay : g.relay = h.relay) :
    e.Reroutes h rs := by
  cases hr with
  | same => exact routes ▸ .same
  | pruned connection =>
    have he : (g.pruneRoutes e.userId connection).routes = (h.pruneRoutes e.userId connection).routes := by
      simp only [pruneRoutes, routes, relay]
    exact he ▸ .pruned connection
  | set r session user =>
    have he : (g.setRoute r).routes = (h.setRoute r).routes := by simp only [setRoute, dropRoute, routes]
    exact he ▸ .set r session user
  | dropped stop =>
    have he : (g.dropRoute e.sessionId).routes = (h.dropRoute e.sessionId).routes := by
      simp only [dropRoute, routes]
    exact he ▸ .dropped stop

theorem reroutes_call (e : Errand) (m : Moment) (method : String) (params : Json)
    (waiting : Nat → Stage) (h : Hub) : e.Reroutes h (e.call m method params waiting h).2.routes := by
  rcases e.routes_call m method params waiting h with hr | ⟨hs, hr⟩ <;> rw [hr]
  · exact .same
  · exact .dropped (by simp [isStop, hs])

theorem reroutes_dispatch {org : String} {request : ChatRequest} (ha : e.ask = .message org request)
    (m : Moment) (c : ChatRequest) (h : Hub) : e.Reroutes h (e.dispatch m c h).2.routes := by
  have start (connection : String) : e.Reroutes h (e.startSession m c connection h).2.routes := by
    rw [startSession, routes_call_message ha]
    exact .pruned connection
  unfold dispatch
  split
  · exact .same
  · split
    · exact start _
    · split
      · exact .same
      · split
        · exact start _
        · exact e.reroutes_call _ _ _ _ _

theorem reroutes_begin (e : Errand) (m : Moment) (h : Hub) :
    (e.begin m h).2.routes = h.routes ∨
      e.isStop = true ∧ (e.begin m h).2.routes = (h.dropRoute e.sessionId).routes := by
  have refer (method : String) : (e.refer m method h).2.routes = h.routes ∨
      e.isStop = true ∧ (e.refer m method h).2.routes = (h.dropRoute e.sessionId).routes := by
    unfold Errand.refer
    split
    · rcases e.routes_call m method (SessionRef.toJson ⟨e.sessionId⟩) .calling h with hr | ⟨hs, hr⟩
      · exact .inl hr
      · exact .inr ⟨by simp [isStop, hs], hr⟩
    · exact .inl rfl
  unfold begin
  split
  · split <;> exact .inl rfl
  · exact refer _
  · exact refer _

theorem reroutes_next (hn : e.next m h stage = some (stage', h')) : e.Reroutes h h'.routes := by
  have of_some {x : Stage × Hub} (hx : some x = some (stage', h')) (hr : e.Reroutes h x.2.routes) :
      e.Reroutes h h'.routes := by
    rw [Option.some.inj hx] at hr
    exact hr
  cases stage with
  | ensuring connected =>
    cases ha : e.ask with
    | message org request =>
      simp only [next, ha] at hn
      split at hn
      · exact of_some hn .same
      · exact of_some hn ((reroutes_dispatch ha m request _).of_eq rfl rfl)
    | _ => simp [next, ha] at hn
  | starting q connection =>
    unfold next at hn
    dsimp only at hn
    split at hn
    · exact of_some hn .same
    · rename_i org request a ha ho
      refine of_some hn ?_
      rw [deliver, routes_call_message ha]
      exact .set _ rfl rfl
    · cases hn
  | calling q =>
    obtain ⟨o, -, ho⟩ := Option.map_eq_some_iff.mp hn
    refine of_some (congrArg some ho) ?_
    rw [routes_conclude]
    cases ha : e.ask with
    | stop => exact .dropped (by simp [isStop, ha])
    | _ => exact .same
  | ended o => cases hn

end Errand

/-! ### One user's session -/

/-- The request leaves a session alone, or it is one of the session's user and no stop. -/
def Errand.Keeps (user session : String) (e : Errand) : Prop :=
  e.sessionId = session → e.userId = user ∧ e.isStop = false

instance (user session : String) (e : Errand) : Decidable (e.Keeps user session) :=
  inferInstanceAs (Decidable (_ → _))

/-- The request that comes with a turn. -/
def Turn.errand? (t : Turn) : Option Errand :=
  match t.act with
  | .visit e => some e
  | _ => none

namespace Plane

variable {p q : Plane} {t : Turn} {turns : List Turn} {n : Nat} {v w : Visit} {user session : String}

/-- What the user's machine emits for the session in a turn. -/
def emits? (user session : String) (p : Plane) (t : Turn) : Option Notice :=
  (p.event? t.act).bind fun x =>
    if x.sender = user ∧ x.session = session then some x.notice else none

/-- What of that the control plane relays. -/
def relays? (user session : String) (p : Plane) (t : Turn) : Option Notice :=
  if p.hub.owner? session = some user then p.emits? user session t else none

/-- Only the user asks for the session and has it, and nobody stops it. -/
structure Kept (user session : String) (p : Plane) : Prop where
  visits : ∀ v ∈ p.visits, v.errand.Keeps user session
  routes : ∀ r ∈ p.hub.routes, r.sessionId = session → r.userId = user

theorem Kept.owner (hk : Kept user session p) {u : String} (ho : p.hub.owner? session = some u) :
    u = user := by
  obtain ⟨r, hr, rfl⟩ := Option.map_eq_some_iff.mp ho
  unfold route? at hr
  have hs := List.find?_some hr
  exact hk.routes r (List.mem_of_find?_eq_some hr) (eq_of_beq hs)

/-- A turn changes the routes by a request that was there or that comes. -/
theorem reroutes_take (p : Plane) (t : Turn) : (p.take t).hub.routes = p.hub.routes ∨
    ∃ e, ((∃ v ∈ p.visits, v.errand = e) ∨ t.errand? = some e) ∧
      e.Reroutes p.hub (p.take t).hub.routes := by
  cases hact : t.act with
  | move x =>
    cases x with
    | errand n =>
      have htake : p.take t = (p.moveErrand t.moment n).getD p := by simp only [take, hact, move]
      rw [htake]
      cases hm : p.moveErrand t.moment n with
      | none => exact .inl rfl
      | some q =>
        obtain ⟨v, there, hm⟩ := Option.bind_eq_some_iff.mp hm
        split at hm
        · obtain ⟨⟨stage, g⟩, hn, rfl⟩ := Option.map_eq_some_iff.mp hm
          refine .inr ⟨v.errand, .inl ⟨v, List.mem_of_getElem? there, rfl⟩, ?_⟩
          change Errand.Reroutes _ _ (settle { v with stage := stage } g).routes
          rw [settle_routes]
          exact Errand.reroutes_next hn
        · cases hm
    | _ => exact .inl (routes_take (by simp [hact]) (by simp [hact]))
  | visit e =>
    have htake : p.take t = p.visit t.moment e := by simp only [take, hact]
    rw [htake]
    -- a feed that is added before a request begins is nothing to the routes
    have begins {h : Hub} (hh : h.routes = p.hub.routes) : (e.begin t.moment h).2.routes = p.hub.routes ∨
        e.isStop = true ∧ (e.begin t.moment h).2.routes = (p.hub.dropRoute e.sessionId).routes := by
      have hdrop : (h.dropRoute e.sessionId).routes = (p.hub.dropRoute e.sessionId).routes := by
        simp only [dropRoute, hh]
      rcases e.reroutes_begin t.moment h with hr | ⟨hs, hr⟩
      · exact .inl (hr.trans hh)
      · exact .inr ⟨hs, hr.trans hdrop⟩
    have hroutes : (p.visit t.moment e).hub.routes = p.hub.routes ∨
        e.isStop = true ∧ (p.visit t.moment e).hub.routes = (p.hub.dropRoute e.sessionId).routes := by
      unfold visit
      dsimp only
      rw [settle_routes]
      cases e.ask with
      | message org request => exact begins rfl
      | _ => exact begins rfl
    rcases hroutes with hr | ⟨hs, hr⟩
    · exact .inl hr
    · refine .inr ⟨e, .inr (by simp only [Turn.errand?, hact]), ?_⟩
      rw [hr]
      exact .dropped hs
  | _ => exact .inl (routes_take (by simp [hact]) (by simp [hact]))

/-- Every request that is there or comes keeps to it. -/
theorem Kept.keeps (hk : Kept user session p) (ht : ∀ e, t.errand? = some e → e.Keeps user session)
    {e : Errand} (he : (∃ v ∈ p.visits, v.errand = e) ∨ t.errand? = some e) : e.Keeps user session := by
  rcases he with ⟨v, hv, rfl⟩ | he
  · exact hk.visits v hv
  · exact ht e he

theorem Kept.take (hk : Kept user session p) (ht : ∀ e, t.errand? = some e → e.Keeps user session) :
    Kept user session (p.take t) := by
  refine ⟨fun w hw => ?_, fun r hr hs => ?_⟩
  · obtain ⟨n, hw⟩ := List.getElem?_of_mem hw
    cases comes_take hw with
    | stays v there same => exact same.1 ▸ hk.visits v (List.mem_of_getElem? there)
    | goesOn v h there errand next => exact errand ▸ hk.visits v (List.mem_of_getElem? there)
    | arrives h act last routes connections stage => exact ht _ (by simp only [Turn.errand?, act])
  · rcases reroutes_take p t with he | ⟨e, hasked, he⟩
    · exact hk.routes r (he ▸ hr) hs
    · have keeps := hk.keeps ht hasked
      generalize (p.take t).hub.routes = rs at hr he
      cases he with
      | same => exact hk.routes r hr hs
      | pruned connection => exact hk.routes r (List.mem_of_mem_filter hr) hs
      | set x hsession huser =>
        rcases List.mem_append.mp hr with hr | hr
        · exact hk.routes r (List.mem_of_mem_filter hr) hs
        · obtain rfl := List.mem_singleton.mp hr
          exact huser.trans (keeps (hsession.symm.trans hs)).1
      | dropped stop => exact hk.routes r (List.mem_of_mem_filter hr) hs

theorem Kept.play (hk : Kept user session p)
    (ht : ∀ t ∈ turns, ∀ e, t.errand? = some e → e.Keeps user session) :
    Kept user session (play turns p) := by
  induction turns generalizing p with
  | nil => exact hk
  | cons t rest ih =>
    exact ih (hk.take (ht t List.mem_cons_self)) fun u hu => ht u (List.mem_cons_of_mem _ hu)

/-- The session stays its user's while a browser listens to it. -/
theorem Kept.owned_take (hk : Kept user session p)
    (ht : ∀ e, t.errand? = some e → e.Keeps user session) (owned : p.hub.owner? session = some user)
    (listened : p.hub.relay.has session = true) : (p.take t).hub.owner? session = some user := by
  have of_route? {g : Hub} (hr : g.route? session = p.hub.route? session) :
      g.owner? session = some user := by rw [owner?, hr]; exact owned
  rcases reroutes_take p t with he | ⟨e, hasked, he⟩
  · exact of_route? (Hub.route?_congr he session)
  · have keeps := hk.keeps ht hasked
    have congr {h : Hub} (hr : (p.take t).hub.routes = h.routes) (ho : h.owner? session = some user) :
        (p.take t).hub.owner? session = some user := by
      rw [owner?, Hub.route?_congr hr]
      exact ho
    generalize hrs : (p.take t).hub.routes = rs at he
    cases he with
    | same => exact congr hrs owned
    | pruned connection => exact congr hrs (of_route? (route?_pruneRoutes_of_has listened _ _))
    | set x hsession huser =>
      refine congr hrs ?_
      by_cases hs : session = x.sessionId
      · rw [hs, Errand.owner?_setRoute, huser, (keeps (hsession.symm.trans hs.symm)).1]
      · exact of_route? (by rw [route?_setRoute, if_neg hs])
    | dropped stop =>
      have hne : session ≠ e.sessionId := by
        rintro rfl
        rw [(keeps rfl).2] at stop
        cases stop
      exact congr hrs (of_route? (route?_dropRoute_ne p.hub hne))

/-- What a machine emits changes no route. -/
theorem routes_emits {x : Notice} (he : p.emits? user session t = some x) :
    (p.take t).hub.routes = p.hub.routes := by
  obtain ⟨y, hy, -⟩ := Option.bind_eq_some_iff.mp he
  unfold event? at hy
  split at hy
  · rename_i k hact
    exact routes_take (by simp [hact]) (by simp [hact])
  · cases hy

theorem emits?_of_visit {e : Errand} (act : t.act = .visit e) (p : Plane) :
    p.emits? user session t = none := by simp [emits?, event?, act]

/-- Of what is sent, the session's feeds take what the user's machine emits while the session is the
user's. They are not closed. -/
theorem Kept.hear (hk : Kept user session p) (ht : ∀ e, t.errand? = some e → e.Keeps user session)
    {r : Tape} (closed : r.closed = false) :
    (r.hear session (p.airing t)).said = r.said ++ (p.relays? user session t).toList ∧
      (r.hear session (p.airing t)).closed = false := by
  have same {a : Airing} (ha : r.hear session a = r) (hnone : p.relays? user session t = none) :
      (r.hear session a).said = r.said ++ (p.relays? user session t).toList ∧
        (r.hear session a).closed = false := by
    rw [ha, hnone]
    exact ⟨(List.append_nil _).symm, closed⟩
  have silent {e : Errand} (keeps : e.Keeps user session) {c : Prop} [Decidable c] :
      r.hear session (if c then e.farewell else .silence) = r := by
    unfold Errand.farewell
    split
    · split
      · rename_i stop
        refine if_neg fun hs => ?_
        rw [(keeps hs).2] at stop
        cases stop
      · rfl
    · rfl
  have unheard (hnone : p.event? t.act = none) : p.relays? user session t = none := by
    simp [relays?, emits?, hnone]
  unfold airing
  split
  · rename_i n hact
    refine same ?_ (unheard (by rw [hact]; rfl))
    split
    · rename_i v there
      split
      · exact silent (hk.visits v (List.mem_of_getElem? there))
      · rfl
    · rfl
  · rename_i e hact
    exact same (silent (ht e (by simp only [Turn.errand?, hact]))) (unheard (by rw [hact]; rfl))
  · cases hx : p.event? t.act with
    | none => exact same rfl (unheard hx)
    | some x =>
      have howner := event?_owner hx
      have hrelays : p.relays? user session t = if p.hub.owner? session = some user then
          if x.sender = user ∧ x.session = session then some x.notice else none else none := by
        simp only [relays?, emits?, hx, Option.bind_some]
      simp only [Option.elim, Sent.airing]
      by_cases hs : x.session = session
      · rw [hs] at howner
        by_cases hown : x.owner = some x.sender
        · -- the sender has the session, and so it is the user
          have ho : p.hub.owner? session = some x.sender := howner.symm.trans hown
          have hsender : x.sender = user := hk.owner ho
          rw [if_pos hown, Tape.hear, if_pos ⟨hs, closed⟩, hrelays, if_pos (hsender ▸ ho),
            if_pos ⟨hsender, hs⟩]
          exact ⟨rfl, closed⟩
        · rw [if_neg hown]
          refine same rfl ?_
          rw [hrelays]
          split
          · rename_i ho
            exact if_neg fun hand => hown (by rw [howner, ho, hand.1])
          · rfl
      · refine same ?_ ?_
        · split
          · exact if_neg fun hand => hs hand.1
          · rfl
        · simp [hrelays, hs]

end Plane

end Fleet.Control
