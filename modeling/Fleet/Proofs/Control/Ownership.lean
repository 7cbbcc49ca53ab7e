import Fleet.Proofs.Control.Isolation
import Fleet.Proofs.Control.Waiting
import Mathlib.Data.List.Induction

/-!
Whose a session stays. A request looks whose the session is before it waits for the machine, and writes the
route when the machine has answered; so the route of a user who came in between is replaced, or removed, by
another user's request, and by nothing else.
-/

namespace Fleet.Control

/-! ### Routes -/

namespace Hub

variable {h g : Hub} {s x user connection : String} {r : Route}

theorem route?_congr (he : g.routes = h.routes) (s : String) : g.route? s = h.route? s := by
  rw [route?, he, route?]

/-- Only sessions of the user are forgotten. -/
theorem route?_pruneRoutes (hr : h.route? s = some r) (hu : r.userId ≠ user) (connection : String) :
    (h.pruneRoutes user connection).route? s = some r := by
  obtain ⟨hs, before, after, he, hbefore⟩ := List.find?_eq_some_iff_append.mp hr
  change (h.routes.filter _).find? _ = some r
  rw [List.find?_filter]
  refine List.find?_eq_some_iff_append.mpr ⟨?_, before, after, he, fun q hq => ?_⟩
  · simp [hu, eq_of_beq hs]
  · have := hbefore q hq
    simp_all

theorem route?_dropRoute_self (h : Hub) (s : String) : (h.dropRoute s).route? s = none := by
  refine List.find?_eq_none.mpr fun q hq => ?_
  simpa [dropRoute] using (List.mem_filter.mp hq).2

theorem route?_dropRoute_ne (h : Hub) (hne : s ≠ x) : (h.dropRoute x).route? s = h.route? s := by
  change (h.routes.filter _).find? _ = h.routes.find? _
  rw [List.find?_filter]
  congr 1
  funext q
  by_cases hq : q.sessionId = s
  · simp [hq, hne]
  · simp [hq]

theorem route?_setRoute (h : Hub) (r : Route) (s : String) :
    (h.setRoute r).route? s = if s = r.sessionId then some r else h.route? s := by
  change ((h.dropRoute r.sessionId).routes ++ [r]).find? _ = _
  rw [List.find?_append]
  change ((h.dropRoute r.sessionId).route? s).or _ = _
  split
  · rename_i he
    subst he
    rw [route?_dropRoute_self]
    simp
  · rename_i hne
    rw [route?_dropRoute_ne h hne]
    have hother : (r.sessionId == s) = false := by simpa using fun he => hne he.symm
    simp [hother]

end Hub

/-! ### Requests -/

namespace Errand

variable {e : Errand} {m : Moment} {h h' : Hub} {stage stage' : Stage} {s : String} {r : Route}

/-- The machine has given the answer after which a request writes its session's route without another
look at it. -/
def Answered (e : Errand) (h : Hub) : Stage → Prop
  | .starting q _ => (∃ org request, e.ask = .message org request) ∧
      ∃ a, h.connections.outcome? q = some (.ok a)
  | .calling q => e.ask = .stop ∧ ∃ o, h.connections.outcome? q = some o
  | _ => False

theorem routes_conclude (e : Errand) (o : Except Error Json) (h : Hub) :
    (e.conclude o h).2.routes = if e.ask matches .stop then (h.dropRoute e.sessionId).routes
      else h.routes := by
  unfold conclude
  cases e.ask <;> rfl

/-- A call leaves the routes, unless a stop ends because it cannot be made. -/
theorem routes_call (e : Errand) (m : Moment) (method : String) (params : Json) (waiting : Nat → Stage)
    (h : Hub) : (e.call m method params waiting h).2.routes = h.routes ∨
      e.ask = .stop ∧ (e.call m method params waiting h).2.routes = (h.dropRoute e.sessionId).routes := by
  rcases e.call_cases m method params waiting h with ⟨q, c, he, -⟩ | ⟨err, he⟩ <;> rw [he]
  · exact .inl rfl
  · rw [routes_conclude]
    cases ha : e.ask
    · exact .inl rfl
    · exact .inl rfl
    · exact .inr ⟨rfl, rfl⟩

theorem routes_call_message {org : String} {request : ChatRequest} (ha : e.ask = .message org request)
    (m : Moment) (method : String) (params : Json) (waiting : Nat → Stage) (h : Hub) :
    (e.call m method params waiting h).2.routes = h.routes := by
  rcases e.routes_call m method params waiting h with hr | ⟨hs, -⟩
  · exact hr
  · rw [ha] at hs
    cases hs

/-- A request that goes on with a ready machine forgets no session of another user. -/
theorem dispatch_route? {org : String} {request : ChatRequest} (ha : e.ask = .message org request)
    (hr : h.route? s = some r) (hu : r.userId ≠ e.userId) (m : Moment) (c : ChatRequest) :
    (e.dispatch m c h).2.route? s = some r := by
  have start (connection : String) : (e.startSession m c connection h).2.route? s = some r :=
    (Hub.route?_congr (routes_call_message ha m _ _ _ _) s).trans (Hub.route?_pruneRoutes hr hu connection)
  unfold dispatch
  split
  · exact hr
  · split
    · exact start _
    · split
      · exact hr
      · split
        · exact start _
        · exact (Hub.route?_congr (routes_call_message ha m _ _ _ h) s).trans hr

/-- A new request leaves the sessions of others alone. -/
theorem begin_route? (hr : h.route? s = some r) (hu : r.userId ≠ e.userId) (m : Moment) :
    (e.begin m h).2.route? s = some r := by
  have refer (method : String) : (e.refer m method h).2.route? s = some r := by
    unfold Errand.refer
    split
    · rename_i howner
      rcases e.routes_call m method (SessionRef.toJson ⟨e.sessionId⟩) .calling h with hroutes | ⟨-, hroutes⟩
      · exact (Hub.route?_congr hroutes s).trans hr
      · -- the session is the user's own, and the other user's is another one
        have hne : s ≠ e.sessionId := by
          rintro rfl
          rw [Hub.owner?, hr] at howner
          exact hu (Option.some.inj howner)
        exact (Hub.route?_congr hroutes s).trans ((Hub.route?_dropRoute_ne h hne).trans hr)
    · exact hr
  unfold begin
  split
  · split <;> exact hr
  · exact refer _
  · exact refer _

/-- Of the sessions of others a request takes one only when its machine has answered. -/
theorem next_takes_iff (hn : e.next m h stage = some (stage', h')) (hr : h.route? s = some r)
    (hu : r.userId ≠ e.userId) :
    h'.route? s ≠ some r ↔ e.sessionId = s ∧ e.Answered h stage := by
  have stays (hsame : h'.route? s = some r) (hno : ¬ (e.sessionId = s ∧ e.Answered h stage)) :
      h'.route? s ≠ some r ↔ e.sessionId = s ∧ e.Answered h stage :=
    ⟨fun h => absurd hsame h, fun h => absurd h hno⟩
  cases stage with
  | ensuring connected =>
    refine stays ?_ fun h => h.2
    cases ha : e.ask with
    | message org request =>
      simp only [next, ha] at hn
      split at hn
      · cases hn
        exact hr
      · have hsame := dispatch_route? (h := (h.perform (h.policy.ensure m.vm e.userId org connected)).2)
          ha hr hu m request
        rw [Option.some.inj hn] at hsame
        exact hsame
    | _ => simp [next, ha] at hn
  | starting q connection =>
    unfold next at hn
    dsimp only at hn
    split at hn
    · rename_i err ha ho
      cases hn
      refine stays hr ?_
      rintro ⟨-, -, a, hok⟩
      rw [ho] at hok
      cases hok
    · rename_i org request a ha ho
      have hroutes := routes_call_message ha m Method.userMessage
        (UserMessage.toJson ⟨e.sessionId, request.message⟩) .calling (h.setRoute (e.routeOn request connection))
      have hset : h'.route? s = (h.setRoute (e.routeOn request connection)).route? s := by
        change (e.deliver m request (h.setRoute (e.routeOn request connection))).2.routes = _ at hroutes
        rw [Option.some.inj hn] at hroutes
        exact Hub.route?_congr hroutes s
      rw [hset, Hub.route?_setRoute]
      refine ⟨fun hne => ?_, fun hyes => ?_⟩
      · by_cases hs : s = e.sessionId
        · exact ⟨hs.symm, ⟨org, request, ha⟩, a, ho⟩
        · exact absurd ((if_neg hs).trans hr) hne
      · have hs : s = (e.routeOn request connection).sessionId := hyes.1.symm
        rw [if_pos hs]
        intro he
        exact hu (congrArg Route.userId (Option.some.inj he)).symm
    · cases hn
  | calling q =>
    obtain ⟨o, ho, hn⟩ := Option.map_eq_some_iff.mp hn
    have hroutes := e.routes_conclude o h
    rw [hn] at hroutes
    cases ha : e.ask with
    | stop =>
      have hdrop : h'.route? s = (h.dropRoute e.sessionId).route? s :=
        Hub.route?_congr (by simpa [ha] using hroutes) s
      rw [hdrop]
      refine ⟨fun hne => ?_, fun hyes => ?_⟩
      · by_cases hs : s = e.sessionId
        · exact ⟨hs.symm, ha, o, ho⟩
        · exact absurd ((Hub.route?_dropRoute_ne h hs).trans hr) hne
      · rw [hyes.1, Hub.route?_dropRoute_self]
        exact (Option.some_ne_none r).symm
    | _ =>
      have hsame : h'.route? s = some r :=
        (Hub.route?_congr (by simpa [ha] using hroutes) s).trans hr
      refine stays hsame ?_
      rintro ⟨-, hstop, -⟩
      rw [ha] at hstop
      cases hstop
  | ended o => cases hn

/-- A request that has its answer goes on. -/
theorem Answered.goes_on (ha : e.Answered h stage) (m : Moment) :
    ∃ x, e.next m h stage = some x := by
  rw [← Option.isSome_iff_exists]
  cases stage with
  | starting q connection =>
    obtain ⟨⟨org, request, hask⟩, a, ho⟩ := ha
    simp only [next, hask, ho, Option.isSome_some]
  | calling q =>
    obtain ⟨-, o, ho⟩ := ha
    simp only [next, ho, Option.map_some, Option.isSome_some]
  | _ => exact ha.elim

end Errand

/-! ### Turns -/

namespace Plane

variable {p q o : Plane} {t : Turn} {turns : List Turn} {n : Nat} {v w : Visit} {s user : String} {r : Route}

/-- The user for whose request a turn is. -/
def caller? (p : Plane) : Act → Option String
  | .move (.errand n) => p.visits[n]?.map fun v => v.errand.userId
  | .visit e => some e.userId
  | _ => none

theorem routes_moveFeed (hm : p.moveFeed n = some q) : q.hub.routes = p.hub.routes := by
  obtain ⟨v, -, hm⟩ := Option.bind_eq_some_iff.mp hm
  obtain ⟨id, -, hm⟩ := Option.bind_eq_some_iff.mp hm
  split at hm
  · split at hm
    · rename_i hread
      obtain ⟨c, rest, -, -, rfl⟩ := Hub.readFeed_eq hread
      split at hm <;> (cases hm; rfl)
    · split at hm
      · cases hm
        rfl
      · cases hm
  · cases hm

theorem routes_abandon (p : Plane) (n : Nat) : (p.abandon n).hub.routes = p.hub.routes := by
  unfold abandon
  split
  · rfl
  · rename_i v _
    split
    · cases v.stage.call? <;> cases v.feed <;> rfl
    · rfl

/-- Sockets, clocks and feeds leave the routes alone. -/
theorem routes_move {m : Moment} {x : Move} (hm : p.move m x = some q) (hx : ∀ n, x ≠ .errand n) :
    q.hub.routes = p.hub.routes := by
  cases x with
  | socket k =>
    obtain ⟨s, -, hm⟩ := Option.bind_eq_some_iff.mp hm
    obtain ⟨⟨s', g⟩, hn, rfl⟩ := Option.map_eq_some_iff.mp hm
    rcases Socket.next_streams hn with he | ⟨e, -, -, hg⟩
    · exact congrArg (fun x => x.2.2) he
    · change g.routes = _
      rw [hg]
      rfl
  | write k =>
    obtain ⟨s, -, hm⟩ := Option.bind_eq_some_iff.mp hm
    obtain ⟨⟨s', g⟩, hw, rfl⟩ := Option.map_eq_some_iff.mp hm
    exact congrArg (fun x => x.2.2) (Socket.write_streams hw)
  | errand n => exact absurd rfl (hx n)
  | feed n => exact routes_moveFeed hm
  | expire c =>
    simp only [move] at hm
    split at hm <;> cases hm
    rfl

/-- What is no request's turn leaves the routes alone. -/
theorem routes_take (ht : ∀ n, t.act ≠ .move (.errand n)) (hv : ∀ e, t.act ≠ .visit e) :
    (p.take t).hub.routes = p.hub.routes := by
  unfold take
  split
  · rename_i x hx
    cases hm : p.move t.moment x with
    | none => rfl
    | some q => exact routes_move hm fun n he => ht n (he ▸ hx)
  · rfl
  · rfl
  · exact absurd ‹_› (hv _)
  · exact routes_abandon p _
  · rfl
  · unfold Hub.sweep
    split <;> rfl

theorem visit_route? (hr : p.hub.route? s = some r) {e : Errand} (hu : r.userId ≠ e.userId) (m : Moment) :
    (p.visit m e).hub.route? s = some r := by
  have hbegin {h : Hub} (hh : h.routes = p.hub.routes) : (e.begin m h).2.route? s = some r :=
    Errand.begin_route? ((Hub.route?_congr hh s).trans hr) hu m
  unfold visit
  dsimp only
  refine (Hub.route?_congr (settle_routes _ _) s).trans ?_
  cases e.ask with
  | message org request => exact hbegin rfl
  | _ => exact hbegin rfl

/-- A visit of another user for the session, whose machine has answered. -/
def Takes (p : Plane) (s : String) (r : Route) (n : Nat) (v : Visit) : Prop :=
  p.visits[n]? = some v ∧ v.present = true ∧ v.errand.userId ≠ r.userId ∧ v.errand.sessionId = s ∧
    v.errand.Answered p.hub v.stage

/-- A route is taken away by another user's turn exactly when that goes on after the machine's answer. -/
theorem take_takes_iff (hr : p.hub.route? s = some r) :
    ((p.take t).hub.route? s ≠ some r ∧ p.caller? t.act ≠ some r.userId) ↔
      ∃ n v, t.act = .move (.errand n) ∧ p.Takes s r n v := by
  constructor
  · rintro ⟨hgone, hcaller⟩
    cases hact : t.act with
    | move x =>
      cases x with
      | errand n =>
        have htake : p.take t = (p.moveErrand t.moment n).getD p := by simp only [take, hact, move]
        rw [htake] at hgone
        cases there : p.visits[n]? with
        | none => exact absurd (by simpa [moveErrand, there] using hr) hgone
        | some v =>
          have hu : r.userId ≠ v.errand.userId := by
            rintro he
            rw [hact] at hcaller
            simp [caller?, there, he] at hcaller
          cases here : v.present with
          | false => exact absurd (by simpa [moveErrand, there, here] using hr) hgone
          | true =>
            rw [moveErrand_eq there here] at hgone
            cases hn : v.errand.next t.moment p.hub v.stage with
            | none => exact absurd (by simpa [hn] using hr) hgone
            | some x =>
              simp only [hn, Option.map_some, Option.getD_some, setVisit] at hgone
              rw [Hub.route?_congr (settle_routes _ _)] at hgone
              obtain ⟨hs, ha⟩ := (Errand.next_takes_iff hn hr hu).mp hgone
              exact ⟨n, v, rfl, there, here, hu.symm, hs, ha⟩
      | _ => exact absurd ((Hub.route?_congr (routes_take (by simp [hact]) (by simp [hact])) s).trans hr) hgone
    | visit e =>
      have hu : r.userId ≠ e.userId := by
        rintro he
        rw [hact] at hcaller
        exact hcaller (congrArg some he.symm)
      have htake : p.take t = p.visit t.moment e := by simp only [take, hact]
      exact absurd (visit_route? hr hu t.moment) (htake ▸ hgone)
    | _ => exact absurd ((Hub.route?_congr (routes_take (by simp [hact]) (by simp [hact])) s).trans hr) hgone
  · rintro ⟨n, v, hact, there, here, hu, hs, ha⟩
    refine ⟨?_, fun he => ?_⟩
    · obtain ⟨⟨stage', h'⟩, hn⟩ := ha.goes_on t.moment
      have htake : p.take t = p.setVisit n { v with stage := stage' } (settle { v with stage := stage' } h') := by
        simp only [take, hact, move, moveErrand_eq there here, hn, Option.map_some, Option.getD_some]
      rw [htake]
      change (settle { v with stage := stage' } h').route? s ≠ some r
      rw [Hub.route?_congr (settle_routes _ _)]
      exact (Errand.next_takes_iff hn hr hu.symm).mpr ⟨hs, ha⟩
    · rw [hact] at he
      simp only [caller?, there, Option.map_some, Option.some.injEq] at he
      exact hu he

end Plane

/-! ### What a request saw before it waited -/

namespace Errand

variable {e : Errand} {m : Moment} {h h' : Hub} {stage stage' : Stage} {org : String} {request : ChatRequest}

/-- The request has seen whose its session is, and writes the session's route on an answer to come. -/
def Awaits (e : Errand) : Stage → Prop
  | .starting _ _ => ∃ org request, e.ask = .message org request
  | .calling _ => e.ask = .stop
  | _ => False

/-- What it saw is that the session is nobody's or its own user's. -/
def Cleared (e : Errand) (h : Hub) : Prop := ∀ u, h.owner? e.sessionId = some u → u = e.userId

theorem Answered.awaits (ha : e.Answered h stage) : e.Awaits stage := by
  cases stage with
  | starting q connection => exact ha.1
  | calling q => exact ha.1
  | _ => exact ha

/-- The request of a browser for a message writes no route after the message has gone out. -/
theorem not_awaits_deliver (ha : e.ask = .message org request) (r : ChatRequest) :
    ¬ e.Awaits (e.deliver m r h).1 := by
  rcases e.call_cases m Method.userMessage (UserMessage.toJson ⟨e.sessionId, r.message⟩) .calling h with
    ⟨q, c, he, -⟩ | ⟨err, he⟩
  · rw [deliver, he]
    simp [Awaits, ha]
  · rw [deliver, he, e.conclude_message ha]
    exact id

theorem cleared_dispatch (ha : e.ask = .message org request) {r : ChatRequest}
    (hw : e.Awaits (e.dispatch m r h).1) : e.Cleared h := by
  unfold dispatch at hw
  split at hw
  · exact hw.elim
  · split at hw
    · rename_i hnone
      intro u hu
      simp [Hub.owner?, hnone] at hu
    · rename_i found
      split at hw
      · exact hw.elim
      · rename_i hown
        rw [Classical.not_not] at hown
        split at hw
        · intro u hu
          simpa [Hub.owner?, found, hown, eq_comm] using hu
        · exact absurd hw (not_awaits_deliver ha _)

/-- A request that waits with its route to write has just looked, and found the session nobody's or its
own, unless it was waiting before. -/
theorem cleared_next (hn : e.next m h stage = some (stage', h')) (hw : e.Awaits stage') : e.Cleared h := by
  cases stage with
  | ensuring connected =>
    cases ha : e.ask with
    | message org request =>
      simp only [next, ha] at hn
      split at hn
      · cases hn
        exact hw.elim
      · rw [Option.some.injEq] at hn
        have hclear : e.Cleared (h.perform (h.policy.ensure m.vm e.userId org connected)).2 :=
          cleared_dispatch ha (by rw [hn]; exact hw)
        exact hclear
    | _ => simp [next, ha] at hn
  | starting q connection =>
    unfold next at hn
    dsimp only at hn
    split at hn
    · cases hn
      exact hw.elim
    · rename_i ha _
      rw [Option.some.injEq] at hn
      exact absurd (by rw [hn]; exact hw) (not_awaits_deliver ha _)
    · cases hn
  | calling q =>
    obtain ⟨o, -, hn⟩ := Option.map_eq_some_iff.mp hn
    unfold conclude at hn
    split at hn <;> (cases hn; exact hw.elim)
  | ended o => cases hn

theorem cleared_begin (hw : e.Awaits (e.begin m h).1) : e.Cleared h := by
  have refer {method : String} (hw : e.Awaits (e.refer m method h).1) : e.Cleared h := by
    unfold Errand.refer at hw
    split at hw
    · rename_i howner
      intro u hu
      exact Option.some.inj (hu.symm.trans howner)
    · exact hw.elim
  unfold begin at hw
  split at hw
  · split at hw <;> exact hw.elim
  · exact refer hw
  · exact refer hw

end Errand

namespace Plane

variable {p q o : Plane} {t : Turn} {turns : List Turn} {n : Nat} {v w : Visit} {user : String}

/-- A visit with a route to write was so before the turn, or it has just seen that it may. -/
theorem awaits_take (hw : (p.take t).visits[n]? = some w) (ha : w.errand.Awaits w.stage) :
    (∃ v, p.visits[n]? = some v ∧ v.Same w) ∨ w.errand.Cleared p.hub := by
  cases comes_take hw with
  | stays v there same => exact .inl ⟨v, there, same⟩
  | goesOn v h there errand next =>
    rw [errand] at ha ⊢
    exact .inr (Errand.cleared_next next ha)
  | arrives h act last routes connections stage =>
    rw [stage] at ha
    refine .inr fun u hu => Errand.cleared_begin ha u ?_
    rw [Hub.owner?, Hub.route?_congr routes]
    exact hu

/-- The visit looked whose its session is when it was not the user's, and has waited since. -/
def LookedBefore (o : Plane) (turns : List Turn) (n : Nat) (v : Visit) (user : String) : Prop :=
  ∃ before u after, turns = before ++ u :: after ∧
    (play before o).hub.owner? v.errand.sessionId ≠ some user ∧
    ∃ w, (play (before ++ [u]) o).visits[n]? = some w ∧ w.Same v

theorem lookedBefore_play (hnone : o.visits = []) (turns : List Turn)
    (there : (play turns o).visits[n]? = some v) (ha : v.errand.Awaits v.stage)
    (hu : v.errand.userId ≠ user) : LookedBefore o turns n v user := by
  induction turns using List.reverseRecOn generalizing v with
  | nil => simp [hnone] at there
  | append_singleton turns t ih =>
    have hnow := there
    rw [play_concat] at hnow
    rcases awaits_take hnow ha with ⟨w, hw, hsame⟩ | hclear
    · rw [hsame.1, hsame.2] at ha
      rw [hsame.1] at hu
      obtain ⟨before, u, after, rfl, howner, x, hx, hxw⟩ := ih hw ha hu
      refine ⟨before, u, after ++ [t], by simp, hsame.1 ▸ howner, x, hx, ?_⟩
      exact ⟨hsame.1.trans hxw.1, hsame.2.trans hxw.2⟩
    · exact ⟨turns, t, [], rfl, fun h => hu (hclear user h).symm, v, there, rfl, rfl⟩

/-- The route of a session is taken from its user by a turn that is not the user's own exactly when that
turn lets another user's request go on after its machine's answer, which had looked whose the session is
before that user had it. -/
theorem route_taken_iff (settings : Settings.ControlPlane) (policy : Vm.Policy) (store : Vm.Store)
    (secrets : List (String × String)) (router : Router) (early : List Turn) (t : Turn) (session : String)
    (r : Route) :
    let o := start settings policy store secrets router
    let p := play early o
    (held : p.hub.route? session = some r) →
    ((p.take t).hub.route? session ≠ some r ∧ p.caller? t.act ≠ some r.userId ↔
      ∃ n v, t.act = .move (.errand n) ∧ p.Takes session r n v ∧ LookedBefore o early n v r.userId) := by
  intro o p held
  rw [take_takes_iff held]
  constructor
  · rintro ⟨n, v, hact, htakes⟩
    have ⟨there, _, hu, _, ha⟩ := htakes
    exact ⟨n, v, hact, htakes, lookedBefore_play rfl early there ha.awaits hu⟩
  · rintro ⟨n, v, hact, htakes, -⟩
    exact ⟨n, v, hact, htakes⟩

/-! ### A session that two users want -/

/-- The machines of alice and bob connect. -/
def meeting (acts : List Act) : List Turn :=
  numbered ([.force "alice" "", .force "bob" ""] ++ admission 0 "alice" "ticket-0" ++
    admission 1 "bob" "ticket-1" ++ acts)

def greets (user : String) : Act := .visit ⟨user, "s", .message "" { message := "hi" }⟩

/-- A machine answers a call, and whoever waits for the answer has not gone on yet. -/
def replies (k : Nat) (id : String) : List Act :=
  [.arrive k (.text (Frame.response (.ok id .null)).text), .move (.socket k)]

/-- Both ask for a new session. Bob's machine starts it first, and then alice's has started it too. -/
def contested : List Turn :=
  meeting ([greets "alice", .move (.errand 0), greets "bob", .move (.errand 1)] ++
    answered 1 "req-15" 1 ++ replies 0 "req-13")

/-- Alice stops her session twice. The first stop is over and the session has become bob's when the second
one is answered. -/
def reused : List Turn :=
  meeting ([greets "alice", .move (.errand 0)] ++ answered 0 "req-13" 0 ++
    [.visit ⟨"alice", "s", .stop⟩, .visit ⟨"alice", "s", .stop⟩] ++ answered 0 "req-17" 1 ++
    [greets "bob", .move (.errand 3)] ++ answered 1 "req-23" 3 ++ replies 0 "req-18")

/-- The request of a visit goes on. -/
def goesOn (n : Nat) : Turn := ⟨⟨⟨⟨0, 0⟩, 0, "row", "ticket", .ok ()⟩, 100, "100"⟩, .move (.errand n)⟩

def bobs : Route := ⟨"s", "bob", "", .semigraph, "conn-10"⟩

/-- Alice's request goes on and takes the session: she looked when it was not bob's. -/
theorem contested_session_was_free :
    (play contested opening).hub.route? "s" = some bobs ∧
    ∃ n v, v.errand.userId ≠ "bob" ∧ LookedBefore opening contested n v "bob" := by
  unfold opening
  have held : (play contested (start {} ⟨{}, ⟨"secret", 600⟩⟩ { keeping := .arrival } [] {})).hub.route? "s" =
      some bobs := by decide +kernel
  have taken := route_taken_iff {} ⟨{}, ⟨"secret", 600⟩⟩ { keeping := .arrival } [] {} contested (goesOn 0)
    "s" bobs held
  obtain ⟨n, v, -, ⟨-, -, hu, -, -⟩, hlooked⟩ := taken.mp (by decide +kernel)
  exact ⟨held, n, v, hu, hlooked⟩

/-- Bob's session is replaced when alice's start of it is answered, and removed when her old stop is. -/
theorem answers_to_alice_take_sessions_of_bob :
    ((play contested opening).hub.owner? "s" = some "bob" ∧
      (play contested opening).caller? (goesOn 0).act = some "alice" ∧
      ((play contested opening).take (goesOn 0)).hub.owner? "s" = some "alice") ∧
    ((play reused opening).hub.owner? "s" = some "bob" ∧
      (play reused opening).caller? (goesOn 2).act = some "alice" ∧
      ((play reused opening).take (goesOn 2)).hub.owner? "s" = none) := by
  decide +kernel

end Plane

end Fleet.Control
