import Fleet.Proofs.Control.Turns
import Mathlib.Logic.Relation

/-!
What browsers' requests do to the control plane: a handful of parts, of which every move of a request
is a course. A message goes out only while the session belongs to the user who sent it.
-/

namespace Fleet.Control

open Hub

variable {e : Errand} {m : Moment} {h h' : Hub} {stage stage' : Errand.Stage} {org : String}
  {request : ChatRequest}

/-- The message has gone out to the machine. -/
def Errand.Stage.isOut : Errand.Stage → Bool
  | .calling _ | .ended (.ok _) => true
  | _ => false

namespace Errand

/-- One thing that a request does. -/
inductive Part (e : Errand) : Hub → Hub → Prop
  | ensure (h : Hub) {α : Type} (work : Vm.Work α) : e.Part h (h.perform work).2
  | prune (h : Hub) (connection : String) : e.Part h (h.pruneRoutes e.userId connection)
  | route (h : Hub) (r : Route) : e.Part h (h.setRoute r)
  | call (h : Hub) (request : Call) {timeoutMs now : Nat} {c : Connections}
      (made : h.connections.callUser e.userId request timeoutMs now = .ok c) :
      e.Part h { h with connections := c }
  | stop (h : Hub) : e.Part h ((h.dropRoute e.sessionId).closeFeeds e.sessionId)

/-- What a request does in one move. -/
def Course (e : Errand) : Hub → Hub → Prop := Relation.ReflTransGen e.Part

theorem Course.refl (h : Hub) : e.Course h h := Relation.ReflTransGen.refl

theorem Part.course (hp : e.Part h h') : e.Course h h' := .single hp

theorem Part.then {k : Hub} (hp : e.Part h h') (hc : e.Course h' k) : e.Course h k :=
  hp.course.trans hc

theorem course_conclude (e : Errand) (o : Except Error Json) (h : Hub) :
    e.Course h (e.conclude o h).2 := by
  unfold conclude
  split
  · exact (Part.stop h).course
  · exact .refl h

/-- A call is made, and nothing else changes, or it fails at once. -/
theorem call_cases (e : Errand) (m : Moment) (method : String) (params : Json)
    (waiting : Nat → Stage) (h : Hub) :
    (∃ q c, e.call m method params waiting h = (waiting q, { h with connections := c }) ∧
      e.Part h { h with connections := c }) ∨
      ∃ err, e.call m method params waiting h = e.conclude (.error err) h := by
  unfold call
  dsimp only
  split
  · rename_i c hc
    exact .inl ⟨_, _, rfl, .call h _ hc⟩
  · exact .inr ⟨_, rfl⟩

theorem course_call (e : Errand) (m : Moment) (method : String) (params : Json)
    (waiting : Nat → Stage) (h : Hub) : e.Course h (e.call m method params waiting h).2 := by
  rcases e.call_cases m method params waiting h with ⟨q, c, he, hp⟩ | ⟨err, he⟩
  · rw [he]
    exact hp.course
  · rw [he]
    exact e.course_conclude _ h

theorem course_startSession (e : Errand) (m : Moment) (r : ChatRequest) (connection : String)
    (h : Hub) : e.Course h (e.startSession m r connection h).2 :=
  (Part.prune h connection).then (e.course_call _ _ _ _ _)

theorem course_dispatch (e : Errand) (m : Moment) (r : ChatRequest) (h : Hub) :
    e.Course h (e.dispatch m r h).2 := by
  unfold dispatch
  split
  · exact .refl h
  · split
    · exact e.course_startSession _ _ _ _
    · split
      · exact .refl h
      · split
        · exact e.course_startSession _ _ _ _
        · exact e.course_call _ _ _ _ _

theorem course_refer (e : Errand) (m : Moment) (method : String) (h : Hub) :
    e.Course h (e.refer m method h).2 := by
  unfold refer
  split
  · exact e.course_call _ _ _ _ _
  · exact .refl h

theorem course_begin (e : Errand) (m : Moment) (h : Hub) : e.Course h (e.begin m h).2 := by
  unfold begin
  split
  · split <;> exact .refl h
  · exact e.course_refer _ _ _
  · exact e.course_refer _ _ _

theorem course_next (hn : e.next m h stage = some (stage', h')) : e.Course h h' := by
  have snd {x : Stage × Hub} (hx : x = (stage', h')) (hc : e.Course h x.2) : e.Course h h' := by
    rw [hx] at hc
    exact hc
  cases stage with
  | ensuring connected =>
    cases ha : e.ask with
    | message org request =>
      simp only [next, ha] at hn
      have hp := Part.ensure (e := e) h (h.policy.ensure m.vm e.userId org connected)
      split at hn
      · exact snd (Option.some.inj hn) hp.course
      · exact snd (Option.some.inj hn) (hp.then (e.course_dispatch _ _ _))
    | _ => simp [next, ha] at hn
  | starting q connection =>
    unfold next at hn
    dsimp only at hn
    split at hn
    · exact snd (Option.some.inj hn) (.refl h)
    · rename_i r _ _ _
      have hp := Part.route (e := e) h (e.routeOn r connection)
      exact snd (Option.some.inj hn) (hp.then (e.course_call _ _ _ _ _))
    · cases hn
  | calling q =>
    obtain ⟨o, _, ho⟩ := Option.map_eq_some_iff.mp hn
    exact snd ho (e.course_conclude o h)
  | ended o => cases hn

/-! ### Messages -/

theorem conclude_message (ha : e.ask = .message org request) (o : Except Error Json) (h : Hub) :
    e.conclude o h = (.ended o, h) := by simp [conclude, ha]

theorem begin_message (ha : e.ask = .message org request) : (e.begin m h).1.isOut = false := by
  simp only [begin, ha]
  split <;> rfl

theorem deliver_isOut (ha : e.ask = .message org request) {r : ChatRequest}
    (ho : h.owner? e.sessionId = some e.userId) (hd : e.deliver m r h = (stage', h')) :
    h'.owner? e.sessionId = some e.userId := by
  rcases e.call_cases m Method.userMessage (UserMessage.toJson ⟨e.sessionId, r.message⟩)
    .calling h with ⟨q, c, hc, _⟩ | ⟨err, hc⟩
  · cases hd.symm.trans hc
    exact ho
  · rw [e.conclude_message ha] at hc
    cases hd.symm.trans hc
    exact ho

theorem startSession_isOut (ha : e.ask = .message org request) {r : ChatRequest}
    {connection : String} (hs : e.startSession m r connection h = (stage', h')) :
    stage'.isOut = false := by
  rcases e.call_cases m Method.startSession (e.startParams r).toJson (.starting · connection)
    (h.pruneRoutes e.userId connection) with ⟨q, c, hc, _⟩ | ⟨err, hc⟩
  · cases hs.symm.trans hc
    rfl
  · rw [e.conclude_message ha] at hc
    cases hs.symm.trans hc
    rfl

theorem owner?_setRoute (h : Hub) (r : Route) : (h.setRoute r).owner? r.sessionId = some r.userId := by
  have hnone : (h.dropRoute r.sessionId).routes.find? (fun q => q.sessionId == r.sessionId) = none := by
    rw [List.find?_eq_none]
    intro q hq
    simpa [dropRoute] using (List.mem_filter.mp hq).2
  simp [owner?, route?, setRoute, hnone]

/-- When a message goes out, the session belongs to its user. -/
theorem next_isOut (ha : e.ask = .message org request) (hn : e.next m h stage = some (stage', h'))
    (hout : stage'.isOut = true) :
    stage.isOut = true ∨ h'.owner? e.sessionId = some e.userId := by
  cases stage with
  | ensuring connected =>
    refine .inr ?_
    simp only [next, ha] at hn
    split at hn
    · cases hn
      cases hout
    · rw [Option.some.injEq] at hn
      unfold dispatch at hn
      split at hn
      · cases hn
        cases hout
      · rename_i hg _ hc connection hconn
        split at hn
        · rw [e.startSession_isOut ha hn] at hout
          cases hout
        · rename_i r hr
          split at hn
          · cases hn
            cases hout
          · rename_i hu
            rw [Classical.not_not] at hu
            split at hn
            · rw [e.startSession_isOut ha hn] at hout
              cases hout
            · refine e.deliver_isOut ha ?_ hn
              rw [owner?, hr]
              exact congrArg some hu
  | starting q connection =>
    refine .inr ?_
    simp only [next, ha] at hn
    split at hn
    · cases hn
      cases hout
    · rename_i r _ _ _
      exact e.deliver_isOut ha (owner?_setRoute h (e.routeOn r connection)) (Option.some.inj hn)
    · cases hn
  | calling q => exact .inl rfl
  | ended o => cases hn

end Errand

namespace Plane

theorem settle_routes (v : Visit) (h : Hub) : (settle v h).routes = h.routes := by
  unfold settle
  split <;> rfl

end Plane

end Fleet.Control
