import Fleet.Proofs.Control.Airing
import Fleet.Proofs.Control.Isolation

/-!
Browsers' streams over whole runs. A browser whose message was accepted reads just what was sent to its
session since its feed was registered, up to the first terminal notice or until the session's feeds
were closed, and then its stream ends; and the relay knows of a browser exactly while it is served.
-/

namespace Fleet.Control

open Hub
open Feed (Channel Notice)

variable {e : Errand} {m : Moment} {h h' g : Hub} {stage stage' : Errand.Stage}

/-! ### What requests send -/

namespace Errand

/-- Whether a session is asked to stop. -/
def isStop (e : Errand) : Bool :=
  match e.ask with
  | .stop => true
  | _ => false

/-- What a request sends when it concludes. -/
def farewell (e : Errand) : Airing := if e.isStop then .close e.sessionId else .silence

theorem conclude_air (e : Errand) (o : Except Error Json) (h : Hub) :
    (e.conclude o h).2.air = (h.aired e.farewell).air := by
  unfold conclude farewell isStop
  cases e.ask <;> rfl

/-- A call that is made sends nothing; one that fails concludes the request. -/
theorem call_air (e : Errand) (m : Moment) (method : String) (params : Json) (waiting : Nat → Stage)
    (h : Hub) (hw : ∀ q, (waiting q).outcome? = none) :
    (e.call m method params waiting h).2.air =
      (h.aired (if (e.call m method params waiting h).1.outcome?.isSome then e.farewell else .silence)).air := by
  rcases e.call_cases m method params waiting h with ⟨q, c, he, _⟩ | ⟨err, he⟩
  · rw [he, hw]
    rfl
  · have houtcome : (e.conclude (.error err) h).1.outcome?.isSome = true := by
      unfold conclude
      cases e.ask <;> rfl
    rw [he, if_pos houtcome]
    exact e.conclude_air _ h

/-- A message or a cancellation sends nothing to browsers. -/
theorem call_air_of_not_stop (hs : e.isStop = false) (m : Moment) (method : String) (params : Json)
    (waiting : Nat → Stage) (h : Hub) (hw : ∀ q, (waiting q).outcome? = none) :
    (e.call m method params waiting h).2.air = h.air := by
  rw [e.call_air m method params waiting h hw, farewell, hs]
  simp [aired]

theorem dispatch_air (hs : e.isStop = false) (m : Moment) (r : ChatRequest) (h : Hub) :
    (e.dispatch m r h).2.air = h.air := by
  have starts (connection : String) : (e.startSession m r connection h).2.air = h.air :=
    e.call_air_of_not_stop hs m _ _ _ _ fun _ => rfl
  unfold dispatch
  split
  · rfl
  · split
    · exact starts _
    · split
      · rfl
      · split
        · exact starts _
        · exact e.call_air_of_not_stop hs m _ _ _ _ fun _ => rfl

/-- What a request sends when it begins: a stop of the user's own session whose call fails at once
closes the session's feeds. -/
def begins (e : Errand) (m : Moment) (h : Hub) : Airing :=
  if h.owner? e.sessionId = some e.userId ∧ (e.begin m h).1.outcome?.isSome = true then e.farewell
  else .silence

/-- What a request sends when it goes on: a stop that has its answer closes the session's feeds. -/
def goesOn (e : Errand) (m : Moment) (h : Hub) (stage : Stage) : Airing :=
  if (e.next m h stage).isSome then e.farewell else .silence

theorem begins_of_not_stop (hs : e.isStop = false) (m : Moment) (h : Hub) :
    e.begins m h = .silence := by
  simp [begins, farewell, hs]

theorem begin_air (e : Errand) (m : Moment) (h : Hub) :
    (e.begin m h).2.air = (h.aired (e.begins m h)).air := by
  unfold begins
  have refers (method : String) : (e.refer m method h).2.air = (h.aired
      (if h.owner? e.sessionId = some e.userId ∧ (e.refer m method h).1.outcome?.isSome = true then
        e.farewell else .silence)).air := by
    by_cases ho : h.owner? e.sessionId = some e.userId
    · have hr : e.refer m method h =
          e.call m method (SessionRef.toJson ⟨e.sessionId⟩) .calling h := by rw [refer, if_pos ho]
      rw [hr, e.call_air m _ _ _ h fun _ => rfl]
      simp only [ho, true_and]
    · rw [if_neg fun hand => ho hand.1, refer, if_neg ho]
      rfl
  cases ha : e.ask with
  | message org request =>
    have hs : e.isStop = false := by simp [isStop, ha]
    have hb : (e.begin m h).2 = h := by
      simp only [begin, ha]
      split <;> rfl
    rw [hb, farewell, hs]
    simp [aired]
  | cancel => simpa only [begin, ha] using refers Method.cancelSession
  | stop => simpa only [begin, ha] using refers Method.stopSession

theorem next_air (hn : e.next m h stage = some (stage', h')) :
    h'.air = (h.aired (e.goesOn m h stage)).air := by
  rw [goesOn, hn, Option.isSome_some, if_pos rfl]
  have quiet {org : String} {r : ChatRequest} (ha : e.ask = .message org r) {x : Stage × Hub}
      (hx : x = (stage', h')) (air : x.2.air = h.air) : h'.air = (h.aired e.farewell).air := by
    have hs : e.isStop = false := by simp [isStop, ha]
    rw [farewell, hs, ← show x.2 = h' from congrArg Prod.snd hx]
    exact air
  cases stage with
  | ensuring connected =>
    cases ha : e.ask with
    | message org r =>
      have hs : e.isStop = false := by simp [isStop, ha]
      simp only [next, ha] at hn
      split at hn
      · exact quiet ha (Option.some.inj hn) rfl
      · exact quiet ha (Option.some.inj hn) (e.dispatch_air hs m r _)
    | _ => simp [next, ha] at hn
  | starting q connection =>
    unfold next at hn
    dsimp only at hn
    split at hn
    · exact quiet ‹_› (Option.some.inj hn) rfl
    · rename_i org r _ ha _
      have hs : e.isStop = false := by simp [isStop, ha]
      exact quiet ha (Option.some.inj hn) (e.call_air_of_not_stop hs m _ _ _ _ fun _ => rfl)
    · cases hn
  | calling q =>
    obtain ⟨o, _, ho⟩ := Option.map_eq_some_iff.mp hn
    have := e.conclude_air o h
    rw [ho] at this
    exact this
  | ended o => cases hn

theorem ended_of_outcome? {a : Json} (h : stage.outcome?.bind Except.toOption = some a) :
    stage = .ended (.ok a) := by
  cases stage with
  | ended o =>
    cases o with
    | ok b => exact congrArg (fun b => Stage.ended (.ok b)) (Option.some.inj h)
    | error err => cases h
  | _ => cases h

/-- A request that goes on had not ended. -/
theorem outcome?_of_next (hn : e.next m h stage = some (stage', h')) : stage.outcome? = none := by
  cases stage with
  | ended o => cases hn
  | _ => rfl

end Errand

/-! ### What machines send -/

/-- An event is sent to browsers if its session belongs to the machine's user. -/
def Sent.airing (x : Sent) : Airing :=
  if x.owner = some x.sender then .notice x.session x.notice else .silence

namespace Socket

variable {s s' : Socket}

theorem air_of_streams (hs : g.streams = h.streams) : g.air = h.air := by
  simp only [streams, Prod.mk.injEq] at hs
  simp only [air, hs]

theorem next_air (hn : s.next m h = some (s', g)) :
    g.air = (h.aired ((s.event? h).elim .silence Sent.airing)).air := by
  cases hx : s.event? h with
  | none =>
    rcases next_streams hn with hs | ⟨x, hx', _⟩
    · exact air_of_streams hs
    · rw [hx] at hx'
      cases hx'
  | some x =>
    unfold event? at hx
    split at hx
    · rename_i j deadline t rest hstage hinbox
      obtain ⟨c, hc, hx⟩ := Option.bind_eq_some_iff.mp hx
      split at hx
      · cases hx
      · rename_i hopen
        split at hx
        · rename_i session event data hparse
          cases hx
          simp only [next, attend, hstage, hinbox, hc, Option.bind_some, if_neg hopen, hear, hparse,
            handle, Option.some.injEq] at hn
          cases hn
          simp only [Option.elim, Sent.airing]
          split <;> rfl
        · cases hx
    · cases hx

/-- A socket that cannot go on has taken nothing up. -/
theorem event?_of_next_none (hn : s.next m h = none) : s.event? h = none := by
  unfold event?
  split
  · rename_i j deadline t rest hstage hinbox
    simp only [next, attend, hstage, hinbox, Option.bind_eq_none_iff] at hn
    refine Option.bind_eq_none_iff.mpr fun c hc => ?_
    have := hn c hc
    split at this <;> cases this
  · rfl

end Socket

namespace Plane

variable {p q : Plane} {t : Turn} {n : Nat} {v w : Visit} {id : String}

/-- What a turn sends to the feeds of a session. -/
def airing (p : Plane) (t : Turn) : Airing :=
  match t.act with
  | .move (.errand n) =>
    match p.visits[n]? with
    | some v => if v.present then v.errand.goesOn t.moment p.hub v.stage else .silence
    | none => .silence
  | .visit e => e.begins t.moment p.hub
  | act => (p.event? act).elim .silence Sent.airing

/-- What a turn does to visits, beside what it sends. -/
inductive Turned (p : Plane) (t : Turn) (q : Plane) : Prop
  | still (air : q.hub.air = (p.hub.aired (p.airing t)).air) (visits : q.visits = p.visits)
  | errand (n : Nat) (v : Visit) (stage : Errand.Stage) (g : Hub) (there : p.visits[n]? = some v)
      (present : v.present = true) (next : v.errand.next t.moment p.hub v.stage = some (stage, g))
      (air : g.air = (p.hub.aired (p.airing t)).air) (hub : q.hub = settle { v with stage := stage } g)
      (visits : q.visits = p.visits.set n { v with stage := stage })
  | read (n : Nat) (v : Visit) (id : String) (c : Channel) (x : Notice) (rest : List Notice)
      (there : p.visits[n]? = some v) (feed : v.feed = some id) (listens : Visit.listens v = true)
      (found : p.hub.feeds.lookup id = some c) (queue : c.queue = x :: rest)
      (silent : p.airing t = .silence)
      (hub : let g : Hub := { p.hub with
          feeds := changeFeed id (fun _ => { c with queue := rest }) p.hub.feeds }
        q.hub = if isTerminalName x.event then g.unlisten id else g)
      (visits : q.visits = p.visits.set n
        { v with received := v.received ++ [x], feedEnded := isTerminalName x.event })
  | finished (n : Nat) (v : Visit) (id : String) (there : p.visits[n]? = some v)
      (feed : v.feed = some id) (listens : Visit.listens v = true) (closed : p.hub.feedOver id = true)
      (silent : p.airing t = .silence) (hub : q.hub = p.hub.unlisten id)
      (visits : q.visits = p.visits.set n { v with feedEnded := true })
  | left (n : Nat) (v : Visit) (g : Hub) (there : p.visits[n]? = some v)
      (silent : p.airing t = .silence) (air : g.air = p.hub.air)
      (hub : q.hub = v.feed.elim g g.unlisten)
      (visits : q.visits = p.visits.set n { v with present := false })
  | came (v : Visit) (g : Hub) (act : t.act = .visit v.errand)
      (blank : v.received = [] ∧ v.present = true ∧ v.feedEnded = false)
      (visits : q.visits = p.visits ++ [v]) (hub : q.hub = settle v g)
      (feed : (v.feed = none ∧ (∀ org r, v.errand.ask ≠ .message org r) ∧
          g.air = (p.hub.aired (p.airing t)).air) ∨
        (v.feed = some (feedId t) ∧ p.airing t = .silence ∧
          g.air = (p.hub.listen (feedId t) v.errand.sessionId).air))

theorem turned_moveErrand (hm : p.moveErrand t.moment n = some q) (ht : t.act = .move (.errand n)) :
    Turned p t q := by
  obtain ⟨v, there, hm⟩ := Option.bind_eq_some_iff.mp hm
  split at hm
  · rename_i present
    obtain ⟨⟨stage, g⟩, hn, rfl⟩ := Option.map_eq_some_iff.mp hm
    have hair : p.airing t = v.errand.goesOn t.moment p.hub v.stage := by
      simp only [airing, ht, there, present, if_true]
    exact .errand n v stage g there present hn (by rw [hair]; exact Errand.next_air hn) rfl rfl
  · cases hm

theorem turned_moveFeed (hm : p.moveFeed n = some q) (ht : t.act = .move (.feed n)) :
    Turned p t q := by
  obtain ⟨v, there, hm⟩ := Option.bind_eq_some_iff.mp hm
  obtain ⟨id, feed, hm⟩ := Option.bind_eq_some_iff.mp hm
  have silent : p.airing t = .silence := by
    simp only [airing, ht]
    rfl
  split at hm
  · rename_i listens
    have hended : v.feedEnded = false := by
      simp only [Visit.listens, Bool.and_eq_true, Bool.not_eq_true'] at listens
      exact listens.1.2
    split at hm
    · rename_i x hub hread
      obtain ⟨c, rest, found, queue, rfl⟩ := readFeed_eq hread
      refine .read n v id c x rest there feed listens found queue silent ?_ ?_
      · split at hm <;> (cases hm; simp_all [setVisit])
      · split at hm <;> (cases hm; simp_all [setVisit])
    · split at hm
      · cases hm
        exact .finished n v id there feed listens ‹_› silent rfl rfl
      · cases hm
  · cases hm

theorem turned_visit (p : Plane) {e : Errand} (ht : t.act = .visit e) :
    Turned p t (p.visit t.moment e) := by
  have hair : p.airing t = e.begins t.moment p.hub := by simp only [airing, ht]
  unfold visit
  cases ha : e.ask with
  | message org request =>
    have hs : e.isStop = false := by simp [Errand.isStop, ha]
    refine .came _ _ ht ⟨rfl, rfl, rfl⟩ rfl rfl (.inr ⟨rfl, ?_, ?_⟩)
    · rw [hair, e.begins_of_not_stop hs]
    · rw [e.begin_air, e.begins_of_not_stop hs]
      rfl
  | cancel =>
    exact .came _ _ ht ⟨rfl, rfl, rfl⟩ rfl rfl
      (.inl ⟨rfl, fun _ _ h => (by cases ha.symm.trans h), by rw [hair]; exact e.begin_air _ _⟩)
  | stop =>
    exact .came _ _ ht ⟨rfl, rfl, rfl⟩ rfl rfl
      (.inl ⟨rfl, fun _ _ h => (by cases ha.symm.trans h), by rw [hair]; exact e.begin_air _ _⟩)

theorem turned_abandon (p : Plane) (ht : t.act = .abandon n) : Turned p t (p.abandon n) := by
  have silent : p.airing t = .silence := by
    simp only [airing, ht]
    rfl
  have still : Turned p t p := .still (by rw [silent]; rfl) rfl
  unfold abandon
  split
  · exact still
  · rename_i v there
    split
    · have hset : p.visits.modify n (fun v => { v with present := false }) =
          p.visits.set n { v with present := false } := by
        rw [List.modify_eq_set_getElem?, there]
        rfl
      refine .left n v (v.stage.call?.elim p.hub fun q =>
        { p.hub with connections := p.hub.connections.desert q }) there silent ?_ ?_ hset
      · cases v.stage.call? <;> rfl
      · cases v.stage.call? <;> cases v.feed <;> rfl
    · exact still

/-- Every turn is of one of these kinds. -/
theorem turned_take (p : Plane) (t : Turn) : Turned p t (p.take t) := by
  have beside {q : Plane} (hub : q.hub.air = p.hub.air) (visits : q.visits = p.visits)
      (silent : p.airing t = .silence) : Turned p t q := .still (by rw [silent]; exact hub) visits
  unfold take
  split
  · rename_i x hx
    cases x with
    | socket k =>
      have hair : p.airing t = ((p.event? t.act).elim .silence Sent.airing) := by
        simp only [airing, hx]
      cases hm : p.move t.moment (.socket k) with
      | none =>
        refine beside rfl rfl ?_
        rw [hair, hx, event?]
        cases hs : p.sockets[k]? with
        | none => rfl
        | some s =>
          have hnone : s.next t.moment p.hub = none := by simpa [move, hs] using hm
          have hevent : s.event? p.hub = none := s.event?_of_next_none hnone
          simp [hevent]
      | some q =>
        obtain ⟨s, hs, hm⟩ := Option.bind_eq_some_iff.mp hm
        obtain ⟨⟨s', g⟩, hn, rfl⟩ := Option.map_eq_some_iff.mp hm
        refine .still ?_ rfl
        rw [hair, hx, event?, hs]
        exact Socket.next_air hn
    | write k =>
      cases hm : p.move t.moment (.write k) with
      | none => exact beside rfl rfl (by simp only [airing, hx]; rfl)
      | some q =>
        obtain ⟨s, hs, hm⟩ := Option.bind_eq_some_iff.mp hm
        obtain ⟨⟨s', g⟩, hn, rfl⟩ := Option.map_eq_some_iff.mp hm
        exact beside (Socket.air_of_streams (Socket.write_streams hn)) rfl
          (by simp only [airing, hx]; rfl)
    | errand n =>
      cases hm : p.move t.moment (.errand n) with
      | none =>
        refine beside rfl rfl ?_
        simp only [airing, hx]
        split
        · rename_i v there
          split
          · rename_i present
            have hnone : v.errand.next t.moment p.hub v.stage = none := by
              simpa [move, moveErrand, there, present] using hm
            simp [Errand.goesOn, hnone]
          · rfl
        · rfl
      | some q => exact turned_moveErrand hm hx
    | feed n =>
      cases hm : p.move t.moment (.feed n) with
      | none => exact beside rfl rfl (by simp only [airing, hx]; rfl)
      | some q => exact turned_moveFeed hm hx
    | expire c =>
      refine beside ?_ ?_ (by simp only [airing, hx]; rfl)
      · simp only [move]
        split <;> rfl
      · simp only [move]
        split <;> rfl
  · exact beside rfl rfl (by simp only [airing, *]; rfl)
  · exact beside rfl rfl (by simp only [airing, *]; rfl)
  · exact turned_visit p ‹_›
  · exact turned_abandon p ‹_›
  · exact beside rfl rfl (by simp only [airing, *]; rfl)
  · refine beside ?_ rfl (by simp only [airing, *]; rfl)
    unfold Hub.sweep
    split <;> rfl

/-! ### Steps -/

/-- One thing that happens to streams: a turn, or the relay is used from elsewhere. -/
inductive Step where
  | turn (t : Turn)
  | forward (session : String) (n : Notice)
  | close (session : String)
  | register (id session : String)

/-- The registration that a step may bring. -/
def Step.id? : Step → Option String
  | .turn t => some (feedId t)
  | .register id _ => some id
  | _ => none

def step (p : Plane) : Step → Plane
  | .turn t => p.take t
  | .forward session n => { p with hub := p.hub.forward session n }
  | .close session => { p with hub := p.hub.closeFeeds session }
  | .register id session => { p with hub := p.hub.listen id session }

def airs (p : Plane) : Step → Airing
  | .turn t => p.airing t
  | .forward session n => .notice session n
  | .close session => .close session
  | .register _ _ => .silence

def walk (steps : List Step) (p : Plane) : Plane := steps.foldl step p

/-- What the feed of a visit was sent, and what it is sent next. -/
def tapeNext (n : Nat) (p : Plane) (a : Airing) (r : Tape) : Tape :=
  match p.visits[n]? with
  | some v => r.hear v.errand.sessionId a
  | none => r

/-- What the feed of a visit is sent over a run, from the visit's beginning. -/
def tape (n : Nat) : List Step → Plane → Tape → Tape
  | [], _, r => r
  | x :: rest, p, r => tape n rest (p.step x) (tapeNext n p (p.airs x) r)

/-- Each visit that has a feed has one of its own. -/
structure Arranged (p : Plane) : Prop where
  tuned : p.hub.Tuned
  keyed : ∀ id ∈ p.visits.filterMap Visit.feed, id ∈ p.hub.feeds.map Prod.fst
  distinct : (p.visits.filterMap Visit.feed).Nodup

variable {x : Step} {r : Tape}

theorem tuned_of_air {h g : Hub} (ht : h.Tuned) (air : g.air = h.air) : g.Tuned :=
  ht.of_relay (congrArg Prod.fst air)

theorem keys_of_air {h g : Hub} (air : g.air = h.air) :
    g.feeds.map Prod.fst = h.feeds.map Prod.fst := congrArg (fun a => a.2.map Prod.fst) air

theorem tuned_unlisten {h : Hub} (ht : h.Tuned) (id : String) : (h.unlisten id).Tuned :=
  (quiet_unlisten h id).tuned ht

theorem keys_unlisten (h : Hub) (id : String) :
    (h.unlisten id).feeds.map Prod.fst = h.feeds.map Prod.fst := keys_changeFeed _ _ _

theorem tuned_settle {h : Hub} (ht : h.Tuned) (v : Visit) : (settle v h).Tuned :=
  (quiet_settle v h).tuned ht

theorem keys_settle (v : Visit) (h : Hub) : (settle v h).feeds.map Prod.fst = h.feeds.map Prod.fst :=
  (quiet_settle v h).keys

theorem Turned.tuned (ht : Turned p t q) (hp : p.hub.Tuned) : q.hub.Tuned := by
  have aired := hp.aired (p.airing t)
  cases ht with
  | still air visits => exact tuned_of_air aired air
  | errand n v stage g there present next air hub visits =>
    exact hub ▸ tuned_settle (tuned_of_air aired air) _
  | read n v id c x rest there feed listens found queue silent hub visits =>
    have ht : Hub.Tuned { p.hub with
        feeds := changeFeed id (fun _ => { c with queue := rest }) p.hub.feeds } := hp.of_relay rfl
    rw [hub]
    split
    · exact tuned_unlisten ht id
    · exact ht
  | finished n v id there feed listens closed silent hub visits => exact hub ▸ tuned_unlisten hp id
  | left n v g there silent air hub visits =>
    rw [hub]
    cases v.feed with
    | none => exact tuned_of_air hp air
    | some id => exact tuned_unlisten (tuned_of_air hp air) id
  | came v g act blank visits hub feed =>
    rw [hub]
    rcases feed with ⟨_, _, air⟩ | ⟨_, _, air⟩
    · exact tuned_settle (tuned_of_air aired air) v
    · exact tuned_settle (tuned_of_air (hp.listen _ _) air) v

/-- The feeds that there are after a turn and those that visits have: those from before, and perhaps
that of a new visit. -/
theorem Turned.feeds (ht : Turned p t q) : ∃ new : List String, (new = [] ∨ new = [feedId t]) ∧
    q.hub.feeds.map Prod.fst = p.hub.feeds.map Prod.fst ++ new ∧
    q.visits.filterMap Visit.feed = p.visits.filterMap Visit.feed ++ new := by
  have keys := keys_aired p.hub (p.airing t)
  have same (hk : q.hub.feeds.map Prod.fst = p.hub.feeds.map Prod.fst)
      (hv : q.visits.filterMap Visit.feed = p.visits.filterMap Visit.feed) : ∃ new : List String,
      (new = [] ∨ new = [feedId t]) ∧ q.hub.feeds.map Prod.fst = p.hub.feeds.map Prod.fst ++ new ∧
      q.visits.filterMap Visit.feed = p.visits.filterMap Visit.feed ++ new :=
    ⟨[], .inl rfl, by rw [hk, List.append_nil], by rw [hv, List.append_nil]⟩
  cases ht with
  | still air visits => exact same ((keys_of_air air).trans keys) (by rw [visits])
  | errand n v stage g there present next air hub visits =>
    refine same ?_ (by rw [visits]; exact filterMap_set there rfl)
    rw [hub, keys_settle, keys_of_air air, keys]
  | read n v id c x rest there feed listens found queue silent hub visits =>
    have hk := keys_changeFeed id (fun _ => { c with queue := rest }) p.hub.feeds
    refine same ?_ (by rw [visits]; exact filterMap_set there rfl)
    rw [hub]
    split
    · exact (keys_unlisten _ id).trans hk
    · exact hk
  | finished n v id there feed listens closed silent hub visits =>
    exact same (by rw [hub, keys_unlisten]) (by rw [visits]; exact filterMap_set there rfl)
  | left n v g there silent air hub visits =>
    refine same ?_ (by rw [visits]; exact filterMap_set there rfl)
    rw [hub]
    cases v.feed with
    | none => exact keys_of_air air
    | some id => exact (keys_unlisten g id).trans (keys_of_air air)
  | came v g act blank visits hub feed =>
    rcases feed with ⟨feed, _, air⟩ | ⟨feed, silent, air⟩
    · refine same ?_ (by simp [visits, feed])
      rw [hub, keys_settle, keys_of_air air, keys]
    · refine ⟨[feedId t], .inr rfl, ?_, by simp [visits, feed]⟩
      rw [hub, keys_settle, keys_of_air air]
      simp [Hub.listen]

theorem Arranged.turned (hp : p.Arranged) (ht : Turned p t q)
    (fresh : feedId t ∉ p.hub.feeds.map Prod.fst) : q.Arranged := by
  obtain ⟨new, hnew, hkeys, hfeeds⟩ := ht.feeds
  refine ⟨ht.tuned hp.tuned, fun id hid => ?_, ?_⟩
  · rw [hfeeds, List.mem_append] at hid
    rw [hkeys, List.mem_append]
    exact hid.imp_left (hp.keyed id)
  · rw [hfeeds]
    rcases hnew with rfl | rfl
    · rw [List.append_nil]
      exact hp.distinct
    · refine List.nodup_append.mpr ⟨hp.distinct, List.nodup_singleton _, ?_⟩
      rintro id hid _ hnew rfl
      exact fresh (List.mem_singleton.mp hnew ▸ hp.keyed id hid)

/-- The feeds that there are after a step: those from before, and perhaps that of its registration. -/
theorem mem_keys_step (h : id ∈ (p.step x).hub.feeds.map Prod.fst) :
    id ∈ p.hub.feeds.map Prod.fst ∨ x.id? = some id := by
  cases x with
  | turn t =>
    obtain ⟨new, hnew, hkeys, _⟩ := (turned_take p t).feeds
    rw [show p.step (.turn t) = p.take t from rfl, hkeys, List.mem_append] at h
    refine h.imp_right fun hid => ?_
    rcases hnew with rfl | rfl
    · cases hid
    · rw [List.mem_singleton.mp hid]
      rfl
  | forward session n => exact .inl (keys_forward p.hub session n ▸ h)
  | close session => exact .inl ((quiet_closeFeeds p.hub session).keys ▸ h)
  | register i session =>
    simp only [step, Hub.listen, List.map_append, List.map_cons, List.map_nil, List.mem_append,
      List.mem_singleton] at h
    exact h.imp_right fun hid => by rw [hid]; rfl

theorem Arranged.still (hp : p.Arranged) (tuned : q.hub.Tuned)
    (keys : p.hub.feeds.map Prod.fst ⊆ q.hub.feeds.map Prod.fst) (visits : q.visits = p.visits) :
    q.Arranged :=
  ⟨tuned, fun id hid => keys (hp.keyed id (visits ▸ hid)), visits ▸ hp.distinct⟩

theorem Arranged.step (hp : p.Arranged)
    (fresh : ∀ id, x.id? = some id → id ∉ p.hub.feeds.map Prod.fst) : (p.step x).Arranged := by
  cases x with
  | turn t => exact hp.turned (turned_take p t) (fresh _ rfl)
  | forward session n =>
    exact hp.still (hp.tuned.forward session n).1 ((keys_forward p.hub session n).symm ▸ List.Subset.refl _) rfl
  | close session =>
    exact hp.still ((quiet_closeFeeds p.hub session).tuned hp.tuned)
      ((quiet_closeFeeds p.hub session).keys.symm ▸ List.Subset.refl _) rfl
  | register id session =>
    refine hp.still (hp.tuned.listen id session) ?_ rfl
    simp [Plane.step, Hub.listen]

/-! ### One visit -/

variable {i : Nat} {stage : Errand.Stage} {h g : Hub}

/-- A visit that is refused has no feed any more; otherwise its stage does not matter. -/
theorem follows_staged (hf : v.Follows h id r) (feed : v.feed = some id)
    (waits : v.stage.outcome? = none) (stage : Errand.Stage) :
    ({ v with stage := stage } : Visit).Follows (settle { v with stage := stage } h) id r := by
  have hwaits : v.isServed = (v.present && !v.feedEnded) := by
    unfold Visit.isServed
    cases hs : v.stage with
    | ended o => rw [hs] at waits; cases waits
    | _ => simp
  by_cases hrefused : ∃ err, stage = .ended (.error err)
  · obtain ⟨err, rfl⟩ := hrefused
    have hsettle : settle { v with stage := .ended (.error err) } h = h.unlisten id := by
      simp [settle, feed]
    rw [hsettle]
    exact Visit.follows_unlisten h (by simp [Visit.isServed]) hf.yielded hf.ended nofun
  · have hsettle : settle { v with stage := stage } h = h := by
      unfold settle
      split
      · exact absurd ⟨_, ‹_›⟩ hrefused
      · rfl
    rw [hsettle]
    refine hf.same (fun _ _ => Iff.rfl) rfl rfl rfl ?_ rfl fun he => absurd waits (hf.answered he)
    rw [hwaits]
    unfold Visit.isServed
    split
    · exact absurd ⟨_, ‹_›⟩ hrefused
    · simp

theorem follows_others_settle (hf : v.Follows h id r) (hne : ∀ other, w.feed = some other → other ≠ id) :
    v.Follows (settle w h) id r := by
  unfold settle
  split
  · exact hf.others_unlisten (hne _ ‹_›)
  · exact hf

theorem outcome?_of_listens (hl : Visit.listens v = true) : v.stage.outcome? ≠ none := by
  simp only [Visit.listens, Bool.and_eq_true] at hl
  split at hl
  · rename_i hs
    rw [hs]
    nofun
  · simp at hl

theorem isServed_of_listens (hl : Visit.listens v = true) : v.isServed = true := by
  simp only [Visit.listens, Bool.and_eq_true, Bool.not_eq_true'] at hl
  obtain ⟨⟨hpresent, hended⟩, hstage⟩ := hl
  unfold Visit.isServed
  rw [hpresent, hended]
  split at hstage
  · rename_i hs
    rw [hs]
    rfl
  · cases hstage

/-- A browser reads the oldest notice of its feed, and its stream ends with a terminal one. -/
theorem follows_read (hf : v.Follows h id r) (listens : Visit.listens v = true) {c : Channel}
    {x : Notice} {rest : List Notice} (found : h.feeds.lookup id = some c) (queue : c.queue = x :: rest) :
    let g : Hub := { h with feeds := changeFeed id (fun _ => { c with queue := rest }) h.feeds }
    ({ v with received := v.received ++ [x], feedEnded := isTerminalName x.event } : Visit).Follows
      (if isTerminalName x.event then g.unlisten id else g) id r := by
  intro g
  have hserved := isServed_of_listens listens
  have houtcome := outcome?_of_listens listens
  obtain ⟨c', hc', habandoned, hclosed, hsaid, hun⟩ := hf.served hserved
  obtain rfl := Option.some.inj (hc'.symm.trans found)
  have hup : upToTerminal r.said = v.received ++ upToTerminal (x :: rest) := by
    rw [← hsaid, queue, upToTerminal_append hun]
  by_cases hx : isTerminalName x.event = true
  · have hup : upToTerminal r.said = v.received ++ [x] := by rw [hup, upToTerminal, if_pos hx]
    rw [if_pos hx]
    refine Visit.follows_unlisten g (by simp [Visit.isServed, hx]) ?_ (fun _ => ⟨hup.symm, ?_⟩)
      fun _ => houtcome
    · simp only [hup, List.prefix_refl]
    · simp [Tape.isDone, ← hsaid, queue, hx]
  · rw [if_neg hx]
    rw [Bool.not_eq_true] at hx
    rw [hx]
    have hended : v.feedEnded = false := by
      simp only [Visit.listens, Bool.and_eq_true, Bool.not_eq_true'] at listens
      exact listens.1.2
    have hsame : ({ v with received := v.received ++ [x], feedEnded := false } : Visit).isServed =
        v.isServed := by simp [Visit.isServed, hended]
    refine ⟨hf.listens, ?_, fun _ => ⟨{ c' with queue := rest }, ?_, habandoned, hclosed, ?_, ?_⟩, ?_,
      by simp, by simp⟩
    · rw [hsame]
      exact hf.on
    · change (changeFeed id (fun _ => { c' with queue := rest }) h.feeds).lookup id = _
      rw [lookup_changeFeed, found]
      simp
    · simpa [queue] using hsaid
    · intro y hy
      rcases List.mem_append.mp hy with hy | hy
      · exact hun y hy
      · rw [List.mem_singleton.mp hy, hx]
    · rw [hup, upToTerminal, hx, if_neg Bool.false_ne_true]
      exact ⟨upToTerminal rest, by simp⟩

/-- A stream whose feed was closed ends when all that was sent is read. -/
theorem follows_finished (hf : v.Follows h id r) (listens : Visit.listens v = true)
    (closed : h.feedOver id = true) :
    ({ v with feedEnded := true } : Visit).Follows (h.unlisten id) id r := by
  have houtcome := outcome?_of_listens listens
  obtain ⟨c, hc, habandoned, hclosed, hsaid, hun⟩ := hf.served (isServed_of_listens listens)
  simp only [feedOver, hc, Channel.accepts, habandoned, hclosed, Bool.not_false, Bool.and_true,
    Bool.not_not, Bool.and_eq_true, List.isEmpty_iff] at closed
  have hup : v.received = upToTerminal r.said := by
    rw [← hsaid, closed.2, List.append_nil, upToTerminal_of_unended hun]
  refine Visit.follows_unlisten h (by simp [Visit.isServed]) hf.yielded (fun _ => ⟨hup, ?_⟩)
    fun _ => houtcome
  simp [Tape.isDone, closed.1]

/-! ### All visits -/

/-- A visit follows its feed through every turn. -/
theorem follows_turned (hp : p.Arranged) (ht : Turned p t q)
    (fresh : feedId t ∉ p.hub.feeds.map Prod.fst) (there : q.visits[n]? = some w)
    (feed : w.feed = some id)
    (hold : ∀ v, p.visits[n]? = some v → v.feed = some id → v.Follows p.hub id r)
    (blank : p.visits[n]? = none → r = {}) :
    w.Follows q.hub id (tapeNext n p (p.airing t) r) := by
  -- what was sent reaches every visit that was there
  have sent (hv : p.visits[n]? = some w) :
      w.Follows (p.hub.aired (p.airing t)) id (tapeNext n p (p.airing t) r) := by
    rw [tapeNext, hv]
    exact (hold w hv feed).aired hp.tuned _
  have other {k : Nat} {v : Visit} (hk : p.visits[k]? = some v) (hne : n ≠ k)
      (hv : p.visits[n]? = some w) (id' : String) (hid : v.feed = some id') : id' ≠ id := by
    rintro rfl
    exact hne (place_unique hp.distinct hv hk feed hid)
  cases ht with
  | still air visits => exact (sent (visits ▸ there)).of_air air
  | errand k v stage g hk present next air hub visits =>
    rw [visits] at there
    rw [hub]
    rcases getElem?_set_cases hk there with ⟨rfl, rfl⟩ | ⟨hne, hv⟩
    · have hf := (hold v hk feed).aired hp.tuned (p.airing t)
      rw [tapeNext, hk]
      exact follows_staged (hf.of_air air) feed (Errand.outcome?_of_next next) stage
    · exact follows_others_settle ((sent hv).of_air air) fun o ho => other hk hne hv o ho
  | read k v id' c x rest hk feed' listens found queue silent hub visits =>
    rw [visits] at there
    rw [silent, hub]
    rcases getElem?_set_cases hk there with ⟨rfl, rfl⟩ | ⟨hne, hv⟩
    · obtain rfl := Option.some.inj (feed'.symm.trans feed)
      rw [tapeNext, hk]
      exact follows_read (hold v hk feed') listens found queue
    · have hid := other hk hne hv id' feed'
      have hf := (hold w hv feed).others_change hid fun _ => { c with queue := rest }
      rw [tapeNext, hv]
      dsimp only
      split
      · exact hf.others_unlisten hid
      · exact hf
  | finished k v id' hk feed' listens closed silent hub visits =>
    rw [visits] at there
    rw [silent, hub]
    rcases getElem?_set_cases hk there with ⟨rfl, rfl⟩ | ⟨hne, hv⟩
    · obtain rfl := Option.some.inj (feed'.symm.trans feed)
      rw [tapeNext, hk]
      exact follows_finished (hold v hk feed') listens closed
    · rw [tapeNext, hv]
      exact (hold w hv feed).others_unlisten (other hk hne hv id' feed')
  | left k v g hk silent air hub visits =>
    rw [visits] at there
    rw [silent, hub]
    rcases getElem?_set_cases hk there with ⟨rfl, rfl⟩ | ⟨hne, hv⟩
    · have feed : v.feed = some id := feed
      have hf := hold v hk feed
      rw [tapeNext, hk, feed]
      exact Visit.follows_unlisten g (by simp [Visit.isServed]) hf.yielded hf.ended hf.answered
    · have hf := (hold w hv feed).of_air air
      rw [tapeNext, hv]
      cases hid : v.feed with
      | none => exact hf
      | some id' => exact hf.others_unlisten (other hk hne hv id' hid)
  | came v g act empty visits hub feed' =>
    rw [visits] at there
    rw [hub]
    rcases Nat.lt_or_ge n p.visits.length with hlt | hge
    · have hv : p.visits[n]? = some w := by rwa [List.getElem?_append_left hlt] at there
      have hid : id ∈ p.hub.feeds.map Prod.fst :=
        hp.keyed id (List.mem_filterMap.mpr ⟨w, List.mem_of_getElem? hv, feed⟩)
      have hne : feedId t ≠ id := fun he => fresh (he ▸ hid)
      rcases feed' with ⟨feed', _, air⟩ | ⟨feed', silent, air⟩
      · exact follows_others_settle ((sent hv).of_air air) fun _ ho => by
          rw [feed'] at ho
          cases ho
      · rw [tapeNext, hv, silent]
        refine follows_others_settle (((hold w hv feed).others_listen hne _).of_air air) fun _ ho => ?_
        rw [← Option.some.inj (feed'.symm.trans ho)]
        exact hne
    · have hnone : p.visits[n]? = none := List.getElem?_eq_none hge
      rw [List.getElem?_append_right hge] at there
      obtain rfl := List.mem_singleton.mp (List.mem_of_getElem? there)
      rcases feed' with ⟨feed', _⟩ | ⟨feed', silent, air⟩
      · rw [feed'] at feed
        cases feed
      · obtain rfl := Option.some.inj (feed'.symm.trans feed)
        obtain ⟨received, present, ended⟩ := empty
        -- before it is taken up, a visit is served
        let u : Visit := { w with stage := .ensuring false }
        have hu : u.Follows (p.hub.listen (feedId t) w.errand.sessionId) (feedId t) {} :=
          Visit.follows_listen (v := u) (Feed.Relay.lookup_of_fresh fresh)
            (by simp [u, Visit.isServed, present, ended]) received ended
        rw [tapeNext, hnone, blank hnone]
        exact follows_staged (hu.of_air air) feed rfl w.stage

theorem follows_step (hp : p.Arranged)
    (fresh : ∀ id, x.id? = some id → id ∉ p.hub.feeds.map Prod.fst)
    (there : (p.step x).visits[n]? = some w) (feed : w.feed = some id)
    (hold : ∀ v, p.visits[n]? = some v → v.feed = some id → v.Follows p.hub id r)
    (blank : p.visits[n]? = none → r = {}) :
    w.Follows (p.step x).hub id (tapeNext n p (p.airs x) r) := by
  cases x with
  | turn t => exact follows_turned hp (turned_take p t) (fresh _ rfl) there feed hold blank
  | forward session a =>
    have there : p.visits[n]? = some w := there
    rw [tapeNext, there]
    exact (hold w there feed).aired hp.tuned (.notice session a)
  | close session =>
    have there : p.visits[n]? = some w := there
    rw [tapeNext, there]
    exact (hold w there feed).aired hp.tuned (.close session)
  | register other session =>
    have there : p.visits[n]? = some w := there
    have hid := hp.keyed id (List.mem_filterMap.mpr ⟨w, List.mem_of_getElem? there, feed⟩)
    rw [tapeNext, there]
    exact (hold w there feed).others_listen (fun he => fresh other rfl (by rw [he]; exact hid)) session

/-- Visits do not go away. -/
theorem visits_step (hn : (p.step x).visits[n]? = none) : p.visits[n]? = none := by
  have hle : p.visits.length ≤ (p.step x).visits.length := by
    cases x with
    | turn t => exact (stir_take p t).length_le
    | _ => exact Nat.le_refl _
  rw [List.getElem?_eq_none_iff] at hn ⊢
  exact Nat.le_trans hle hn

/-- The steps to come bring registrations that are new. -/
structure Onwards (steps : List Step) (p : Plane) : Prop where
  arranged : p.Arranged
  unused : ∀ x ∈ steps, ∀ id, x.id? = some id → id ∉ p.hub.feeds.map Prod.fst
  distinct : (steps.filterMap Step.id?).Nodup

theorem Onwards.step {steps : List Step} (hp : Onwards (x :: steps) p) : Onwards steps (p.step x) := by
  refine ⟨hp.arranged.step fun id => hp.unused x List.mem_cons_self id, fun y hy id hid hmem => ?_, ?_⟩
  · rcases mem_keys_step hmem with hold | hx
    · exact hp.unused y (List.mem_cons_of_mem _ hy) id hid hold
    · have hd := hp.distinct
      rw [List.filterMap_cons_some hx, List.nodup_cons] at hd
      exact hd.1 (List.mem_filterMap.mpr ⟨y, hy, hid⟩)
  · have hd := hp.distinct
    cases hx : x.id? with
    | none => rwa [List.filterMap_cons_none hx] at hd
    | some i =>
      rw [List.filterMap_cons_some hx, List.nodup_cons] at hd
      exact hd.2

theorem Onwards.append {steps later : List Step} (hp : Onwards (steps ++ later) p) :
    Onwards steps p ∧ Onwards later (walk steps p) := by
  induction steps generalizing p with
  | nil => exact ⟨⟨hp.arranged, nofun, List.nodup_nil⟩, hp⟩
  | cons x rest ih =>
    refine ⟨⟨hp.arranged, fun y hy => hp.unused y (List.mem_append_left _ hy), ?_⟩, (ih hp.step).2⟩
    have hd := hp.distinct
    rw [List.filterMap_append] at hd
    exact (List.nodup_append.mp hd).1

theorem onwards_start {settings : Settings.ControlPlane} {policy : Vm.Policy} {store : Vm.Store}
    {secrets : List (String × String)} {router : Router} {steps : List Step}
    (fresh : (steps.filterMap Step.id?).Nodup) : Onwards steps (start settings policy store secrets router) :=
  have wired := wired_start settings policy store secrets router
  ⟨⟨wired.tuned, nofun, wired.distinct⟩, fun _ _ _ _ => List.not_mem_nil, fresh⟩

theorem tape_concat (steps : List Step) (x : Step) (p : Plane) (r : Tape) :
    tape n (steps ++ [x]) p r = tapeNext n (walk steps p) (airs (walk steps p) x) (tape n steps p r) := by
  induction steps generalizing p r with
  | nil => rfl
  | cons y rest ih => exact ih _ _

theorem walk_turns (turns : List Turn) (p : Plane) : walk (turns.map .turn) p = play turns p := by
  rw [walk, List.foldl_map]
  rfl

theorem nodup_ids_turns {turns : List Turn} (fresh : (turns.map Turn.fresh).Nodup) :
    ((turns.map Step.turn).filterMap Step.id?).Nodup := by
  have hids : (turns.map Step.turn).filterMap Step.id? = (turns.map Turn.fresh).map ("sse-" ++ ·) := by
    simp only [List.filterMap_map, List.map_map]
    exact congrFun List.filterMap_eq_map turns
  rw [hids]
  exact fresh.map fun _ _ => (String.append_right_inj "sse-").mp

/-- Over a run every visit follows its feed. -/
theorem follows_walk {steps : List Step} (hp : Onwards steps p)
    (hold : ∀ v, p.visits[n]? = some v → v.feed = some id → v.Follows p.hub id r)
    (blank : p.visits[n]? = none → r = {}) (there : (walk steps p).visits[n]? = some v)
    (feed : v.feed = some id) :
    (walk steps p).Arranged ∧ v.Follows (walk steps p).hub id (tape n steps p r) := by
  induction steps generalizing p r with
  | nil => exact ⟨hp.arranged, hold v there feed⟩
  | cons x rest ih =>
    refine ih hp.step (fun w hw hfeed => ?_) (fun hnone => ?_) there
    · exact follows_step hp.arranged (fun id => hp.unused x List.mem_cons_self id) hw hfeed hold blank
    · have hnone := visits_step hnone
      rw [tapeNext, hnone]
      exact blank hnone

/-! ### Reading on -/

/-- The browser of a visit reads its feed as long as there is something to read. -/
def readOn (k n : Nat) (m : Moment) (p : Plane) : Plane :=
  play (List.replicate k ⟨m, .move (.feed n)⟩) p

theorem moveFeed_cons {c : Channel} {a : Notice} {rest : List Notice} (there : p.visits[n]? = some v)
    (feed : v.feed = some id) (listens : Visit.listens v = true)
    (found : p.hub.feeds.lookup id = some c) (queue : c.queue = a :: rest) :
    let g : Hub := { p.hub with
      feeds := changeFeed id (fun _ => { c with queue := rest }) p.hub.feeds }
    p.moveFeed n = some (p.setVisit n
      { v with received := v.received ++ [a], feedEnded := isTerminalName a.event }
      (if isTerminalName a.event then g.unlisten id else g)) := by
  have hended : v.feedEnded = false := by
    simp only [Visit.listens, Bool.and_eq_true, Bool.not_eq_true'] at listens
    exact listens.1.2
  have hread : p.hub.readFeed id = some (a, { p.hub with
      feeds := changeFeed id (fun _ => { c with queue := rest }) p.hub.feeds }) := by
    simp [readFeed, found, Channel.read?, queue]
  simp only [moveFeed, there, feed, listens, hread, Option.bind_some, if_true]
  split
  · rename_i ha
    rw [ha]
  · rename_i ha
    rw [Bool.not_eq_true] at ha
    rw [ha, ← hended]

theorem moveFeed_over {c : Channel} (there : p.visits[n]? = some v) (feed : v.feed = some id)
    (listens : Visit.listens v = true) (found : p.hub.feeds.lookup id = some c) (queue : c.queue = [])
    (closed : p.hub.feedOver id = true) :
    p.moveFeed n = some (p.setVisit n { v with feedEnded := true } (p.hub.unlisten id)) := by
  have hread : p.hub.readFeed id = none := by simp [readFeed, found, Channel.read?, queue]
  simp only [moveFeed, there, feed, listens, hread, closed, Option.bind_some, if_true]

theorem setVisit_self (there : p.visits[n]? = some v) (w : Visit) (h : Hub) :
    (p.setVisit n w h).visits[n]? = some w := by
  simp [setVisit, (List.getElem?_eq_some_iff.mp there).1]

theorem readOn_succ {k : Nat} (hm : p.moveFeed n = some q) :
    readOn (k + 1) n m p = readOn k n m q := by
  simp [readOn, List.replicate_succ, take, move, hm]

/-- A browser whose request was accepted reads all that it is to read, and its stream ends when nothing
more is to come. -/
theorem reads_to_end (there : p.visits[n]? = some v) (feed : v.feed = some id)
    (hf : v.Follows p.hub id r) (accepted : ∃ o, v.stage = .ended (.ok o)) (present : v.present = true)
    (m : Moment) : ∃ k w, (readOn k n m p).visits[n]? = some w ∧
      w.received = upToTerminal r.said ∧ (w.feedEnded = true ↔ r.isDone = true) := by
  have closed {p : Plane} {v : Visit} (there : p.visits[n]? = some v) (hf : v.Follows p.hub id r)
      (ended : v.feedEnded = true) : ∃ k w, (readOn k n m p).visits[n]? = some w ∧
        w.received = upToTerminal r.said ∧ (w.feedEnded = true ↔ r.isDone = true) := by
    obtain ⟨hreceived, hdone⟩ := hf.ended ended
    exact ⟨0, v, there, hreceived, by simp [ended, hdone]⟩
  have next {p q : Plane} (hm : p.moveFeed n = some q)
      (hq : ∃ k w, (readOn k n m q).visits[n]? = some w ∧
        w.received = upToTerminal r.said ∧ (w.feedEnded = true ↔ r.isDone = true)) :
      ∃ k w, (readOn k n m p).visits[n]? = some w ∧
        w.received = upToTerminal r.said ∧ (w.feedEnded = true ↔ r.isDone = true) := by
    obtain ⟨k, w, hw, h⟩ := hq
    exact ⟨k + 1, w, by rw [readOn_succ hm]; exact hw, h⟩
  obtain ⟨o, stage⟩ := accepted
  by_cases hend : v.feedEnded = true
  · exact closed there hf hend
  rw [Bool.not_eq_true] at hend
  obtain ⟨c, found, -⟩ := hf.served (by simp [Visit.isServed, present, hend, stage])
  -- the induction is on what waits in the feed
  induction hq : c.queue generalizing p v c with
  | nil =>
    have listens : Visit.listens v = true := by simp [Visit.listens, present, hend, stage]
    obtain ⟨c', found', habandoned, hclosed, hsaid, hun⟩ := hf.served (isServed_of_listens listens)
    obtain rfl := Option.some.inj (found'.symm.trans found)
    rw [hq, List.append_nil] at hsaid
    cases hover : r.closed with
    | true =>
      have hfeed : p.hub.feedOver id = true := by
        simp [feedOver, found, Channel.accepts, hclosed, hover, hq]
      exact next (moveFeed_over there feed listens found hq hfeed)
        (closed (setVisit_self there _ _) (follows_finished hf listens hfeed) rfl)
    | false =>
      refine ⟨0, v, there, ?_, ?_⟩
      · rw [← hsaid, upToTerminal_of_unended hun]
      · have hdone : r.isDone = false := by
          rw [Tape.isDone, hover, ← hsaid, Bool.false_or, List.any_eq_false]
          simpa [Unended] using hun
        rw [hend, hdone]
  | cons a rest ih =>
    have listens : Visit.listens v = true := by simp [Visit.listens, present, hend, stage]
    have hread := follows_read hf listens found hq
    refine next (moveFeed_cons there feed listens found hq) ?_
    cases ha : isTerminalName a.event with
    | true =>
      rw [ha] at hread
      exact closed (setVisit_self there _ _) hread rfl
    | false =>
      rw [ha] at hread
      simp only [Bool.false_eq_true, ↓reduceIte] at hread ⊢
      have hfound : (changeFeed id (fun _ => { c with queue := rest }) p.hub.feeds).lookup id =
          some { c with queue := rest } := by
        rw [lookup_changeFeed, found]
        simp
      exact ih (v := { v with received := v.received ++ [a], feedEnded := false })
        (setVisit_self there _ _) feed hread present stage rfl _ hfound rfl

/-! ### Streams -/

/-- A message of Alice's is accepted. -/
def accepted : List Act :=
  [.force "alice" ""] ++ admission 0 "alice" "ticket-0" ++
    [.visit ⟨"alice", "s", .message "" { message := "hi" }⟩, .move (.errand 0)] ++
    answered 0 "req-7" 0 ++ answered 0 "req-10" 0

/-- Three notices are sent to the session, the second of them terminal, and another browser comes. -/
def listening : List Step :=
  (numbered accepted).map .turn ++
    [.forward "s" ⟨"text", .str "one"⟩, .register "other" "s", .forward "t" ⟨"text", .null⟩,
      .forward "s" ⟨"done", .null⟩, .forward "s" ⟨"text", .str "late"⟩]

end Plane

end Fleet.Control
