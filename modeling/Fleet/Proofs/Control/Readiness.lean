import Fleet.Proofs.Control.Teardown
import Fleet.Proofs.Control.Waiting
import Fleet.Proofs.Vm.Rebuilding

/-!
When a message has a machine brought up although its user has one connected. The message looks whether there
is one when it comes, and its request asks for the machine when its turn on the rows has come; a machine that
is connected all that time is passed over only when its row has failed.
-/

namespace Fleet.Control

/-! ### A connection is its user's who has a row -/

/-- Only a user who has a row is let in. -/
theorem Hub.users_of_authenticate {h : Hub} {m : Moment} {c : Credentials} (hl : h.machines.Lone)
    (ha : (h.authenticate m c).1 = .ok ()) : c.userId ∈ h.machines.store.rows.map Vm.Row.userId := by
  unfold authenticate at ha
  split at ha
  · cases ha
  · dsimp only at ha
    split at ha
    · cases ha
    · rcases hr : (Vm.Work.consumeTicket m.vm.now c.userId c.connectTicket h.machines).1 with e | r
      · have herr : ((Vm.Work.consumeTicket m.vm.now c.userId c.connectTicket h.machines).1.map
            fun _ => ()) = .ok () := ha
        rw [hr] at herr
        cases herr
      · exact hl.users_of_ticket hr

theorem Connections.lookup_register_ne {s : Connections} {c : Connection} {k : Nat} {u : String}
    (hc : s.opened[k]? = some c) (hu : u ≠ c.userId) :
    (s.register k).current.lookup u = s.current.lookup u := by
  rw [current_register hc, List.lookup_cons, beq_false_of_ne hu, lookup_filter_ne, if_neg hu]

namespace Socket

variable {s s' : Socket} {h g : Hub} {m : Moment} {u : String} {j : Nat}

/-- Whoever gets a connection has a row. -/
theorem users_next (hl : h.machines.Lone) (hn : s.next m h = some (s', g))
    (hcur : g.connections.current.lookup u = some j) :
    h.connections.current.lookup u = some j ∨ u ∈ h.machines.store.rows.map Vm.Row.userId := by
  rcases (went_next hn).1.current hcur with hold | ⟨-, new⟩
  · exact .inl hold
  · cases hs : s.stage with
    | expecting deadline =>
      simp only [next, hs] at hn
      repeat' split at hn
      all_goals cases hn
      all_goals exact .inl hcur
    | admitting c =>
      simp only [next, hs, Option.some.injEq] at hn
      have hsame := (authenticate_same h m c).2
      unfold enrol at hn
      split at hn
      · rename_i e k hk
        rw [hk] at hsame
        cases hn
        exact .inl (hsame ▸ hcur)
      · rename_i k hk
        by_cases hu : u = c.userId
        · exact .inr (hu ▸ Hub.users_of_authenticate hl (congrArg Prod.fst hk))
        · rw [hk] at hsame
          cases hn
          dsimp only at hcur
          rw [show k.connections = h.connections from hsame,
            Connections.lookup_register_ne (Connections.opened_connect _ _ _ _) hu] at hcur
          exact .inl hcur
    | _ => simp [hs, Stage.isNew] at new

end Socket

namespace Plane

variable {p q o : Plane} {t : Turn} {turns : List Turn} {n i : Nat} {v w : Visit} {user org : String}
  {looked : Bool}

/-- Whoever has a connection has a row, and no row was ended for good. -/
structure Housed (p : Plane) : Prop where
  rows : ∀ user i, p.hub.connections.current.lookup user = some i →
    user ∈ p.hub.machines.store.rows.map Vm.Row.userId
  open_ : ∀ r ∈ p.hub.machines.store.rows, r.status ≠ .terminated

theorem Housed.start (settings : Settings.ControlPlane) (policy : Vm.Policy) (keeping : Vm.Keeping)
    (secrets : List (String × String)) (router : Router) :
    (start settings policy { keeping := keeping } secrets router).Housed :=
  ⟨fun _ _ h => (nomatch h), fun _ h => absurd h List.not_mem_nil⟩

theorem Went.users (hw : Went p t q) (hl : p.hub.machines.Lone)
    (hcur : q.hub.connections.current.lookup user = some i) :
    p.hub.connections.current.lookup user = some i ∨ user ∈ p.hub.machines.store.rows.map Vm.Row.userId := by
  cases hw with
  | socket act there next went given => exact Socket.users_next hl next hcur
  | write there write wrote => exact .inl (wrote.current ▸ hcur)
  | beside sockets hub => exact .inl (hub.aside.current ▸ hcur)

theorem Housed.step (hp : p.Housed) (hs : Stocked (t :: turns) p) : (p.take t).Housed := by
  have hrows (user : String) (i : Nat) (hcur : (p.take t).hub.connections.current.lookup user = some i) :
      user ∈ p.hub.machines.store.rows.map Vm.Row.userId := by
    rcases (went_take p t).users hs.lone hcur with hold | hrow
    · exact hp.rows user i hold
    · exact hrow
  rcases runs_take p t with he | ⟨op, he⟩
  · refine ⟨fun user i hcur => ?_, ?_⟩ <;> rw [he]
    · exact hrows user i hcur
    · exact hp.open_
  · refine ⟨fun user i hcur => ?_, ?_⟩ <;> rw [he]
    · exact Vm.World.users_run hs.lone.distinct (hs.unusedId op) (hrows user i hcur)
    · exact Vm.World.open_run hs.lone.distinct (hs.unusedId op) hp.open_

theorem Housed.play (hp : p.Housed) {late : List Turn} (hs : Stocked (turns ++ late) p) :
    (play turns p).Housed := by
  induction turns generalizing p with
  | nil => exact hp
  | cons t rest ih => exact ih (hp.step hs) hs.step

end Plane

/-! ### What a message saw when it came -/

/-- The organization that a message is sent for. -/
def Ask.org? : Ask → Option String
  | .message org _ => some org
  | _ => none

namespace Errand

variable {e : Errand} {m : Moment} {h h' : Hub} {stage stage' : Stage} {org : String} {request : ChatRequest}
  {looked : Bool}

/-- What is known of the machine's connection when the machine is asked for. -/
def Stage.asks? : Stage → Option Bool
  | .ensuring looked => some looked
  | _ => none

theorem asks?_conclude (e : Errand) (o : Except Error Json) (h : Hub) : (e.conclude o h).1.asks? = none := by
  unfold conclude
  split <;> rfl

theorem asks?_call {waiting : Nat → Stage} (hw : ∀ q, (waiting q).asks? = none) (method : String)
    (params : Json) : (e.call m method params waiting h).1.asks? = none := by
  rcases e.call_cases m method params waiting h with ⟨q, c, he, -⟩ | ⟨err, he⟩ <;> rw [he]
  · exact hw q
  · exact e.asks?_conclude _ h

theorem asks?_dispatch (e : Errand) (m : Moment) (r : ChatRequest) (h : Hub) :
    (e.dispatch m r h).1.asks? = none := by
  unfold dispatch
  split
  · rfl
  · split
    · exact asks?_call (fun _ => rfl) _ _
    · split
      · rfl
      · split
        · exact asks?_call (fun _ => rfl) _ _
        · exact asks?_call (fun _ => rfl) _ _

/-- A request asks for the machine once, before anything else. -/
theorem asks?_next (hn : e.next m h stage = some (stage', h')) : stage'.asks? = none := by
  cases stage with
  | ensuring looked =>
    cases ha : e.ask with
    | message org request =>
      simp only [next, ha] at hn
      split at hn
      · cases hn
        rfl
      · have hd := e.asks?_dispatch m request (h.perform (h.policy.ensure m.vm e.userId org looked)).2
        rwa [Option.some.inj hn] at hd
    | _ => simp [next, ha] at hn
  | starting q connection =>
    unfold next at hn
    dsimp only at hn
    split at hn
    · cases hn
      rfl
    · rename_i request _ _ _
      have hd : (e.deliver m request (h.setRoute (e.routeOn request connection))).1.asks? = none :=
        asks?_call (fun _ => rfl) _ _
      rwa [Option.some.inj hn] at hd
    · cases hn
  | calling q =>
    obtain ⟨o, -, hn⟩ := Option.map_eq_some_iff.mp hn
    have hd := e.asks?_conclude o h
    rwa [hn] at hd
  | ended o => cases hn

/-- What a new request knows is whether the user's machine is connected now. -/
theorem asks?_begin (hb : (e.begin m h).1.asks? = some looked) :
    looked = h.connections.isConnected e.userId := by
  have refer (method : String) : (e.refer m method h).1.asks? = none := by
    unfold Errand.refer
    split
    · exact asks?_call (fun _ => rfl) _ _
    · rfl
  unfold begin at hb
  split at hb
  · split at hb
    · cases hb
    · exact (Option.some.inj hb).symm
  · rw [refer] at hb
    cases hb
  · rw [refer] at hb
    cases hb

/-- The machine is asked for with what the request knows. -/
theorem machines_ensuring (ha : e.ask = .message org request) (m : Moment) (h : Hub) (looked : Bool) :
    ∃ x, e.next m h (.ensuring looked) = some x ∧ x.2.machines =
      (Vm.Turn.run h.policy ⟨m.vm, .ensure e.userId org looked⟩ h.machines).2 := by
  have hrun : (Vm.Turn.run h.policy ⟨m.vm, .ensure e.userId org looked⟩ h.machines).2 =
      (h.perform (h.policy.ensure m.vm e.userId org looked)).2.machines := by
    rw [Vm.Turn.run, Vm.Operation.work]
    exact Vm.Work.bind_pure_world _ _ _
  rw [hrun]
  simp only [next, ha]
  split
  · exact ⟨_, rfl, rfl⟩
  · exact ⟨_, rfl, e.machines_dispatch _ _ _⟩

end Errand

namespace Plane

variable {p q o : Plane} {t : Turn} {turns : List Turn} {n i : Nat} {v w : Visit} {user org : String}
  {looked : Bool}

/-- The request of a message asks for its user's machine, knowing whether one was connected when it came. -/
structure Asks (p : Plane) (n : Nat) (v : Visit) (org : String) (looked : Bool) : Prop where
  there : p.visits[n]? = some v
  present : v.present = true
  message : ∃ request, v.errand.ask = .message org request
  stage : v.stage = .ensuring looked

/-- The machine's connection was opened after the visit had come. -/
def OpenedSince (o : Plane) (turns : List Turn) (n : Nat) (v : Visit) (i : Nat) : Prop :=
  ∃ before u after, turns = before ++ u :: after ∧ u.act = .visit v.errand ∧
    (play before o).visits.length = n ∧ (play before o).hub.connections.opened.length ≤ i

/-- A visit that asks for a machine has come with what it knows. -/
theorem asked_play (hnone : o.visits = []) (turns : List Turn) (there : (play turns o).visits[n]? = some v)
    (stage : v.stage = .ensuring looked) :
    ∃ before u after, turns = before ++ u :: after ∧ u.act = .visit v.errand ∧
      (play before o).visits.length = n ∧
      looked = (play before o).hub.connections.isConnected v.errand.userId := by
  induction turns using List.reverseRecOn generalizing v with
  | nil => simp [hnone] at there
  | append_singleton turns t ih =>
    rw [play_concat] at there
    have hasks : v.stage.asks? = some looked := by rw [stage]; rfl
    cases comes_take there with
    | stays w hw same =>
      obtain ⟨before, u, after, rfl, act, hlen, hlooked⟩ := ih hw (same.2.symm.trans stage)
      exact ⟨before, u, after ++ [t], by simp, same.1 ▸ act, hlen, same.1 ▸ hlooked⟩
    | goesOn w h hw errand next =>
      rw [Errand.asks?_next next] at hasks
      cases hasks
    | arrives h act last routes connections stage =>
      rw [stage] at hasks
      exact ⟨turns, t, [], rfl, act, last.symm, connections ▸ Errand.asks?_begin hasks⟩

/-- Who is connected after some turns was connected before them or is on a connection opened since. -/
theorem current_play (turns : List Turn) (p : Plane)
    (hl : (play turns p).hub.connections.current.lookup user = some i) :
    p.hub.connections.current.lookup user = some i ∨ p.hub.connections.opened.length ≤ i := by
  induction turns generalizing p with
  | nil => exact .inl hl
  | cons t rest ih =>
    have hw := went_take p t
    rcases ih _ hl with hnow | hlater
    · exact (hw.current hnow).imp_right fun he => Nat.le_of_eq he.symm
    · exact .inr (Nat.le_trans hw.length_le hlater)

/-- A connection that a message did not see when it came was opened later. -/
theorem openedSince_play (hnone : o.visits = []) (turns : List Turn)
    (there : (play turns o).visits[n]? = some v) (stage : v.stage = .ensuring false)
    (connected : (play turns o).hub.connections.current.lookup v.errand.userId = some i) :
    OpenedSince o turns n v i := by
  obtain ⟨before, u, after, rfl, act, hlen, hlooked⟩ := asked_play hnone turns there stage
  refine ⟨before, u, after, rfl, act, hlen, ?_⟩
  rw [play_append] at connected
  rcases current_play (u :: after) _ connected with hold | hlater
  · rw [Connections.isConnected, hold] at hlooked
    cases hlooked
  · exact hlater

/-! ### Bootstraps beside a connection -/

/-- A bootstrap is launched for the user in the turn. -/
def Boots (p : Plane) (t : Turn) (user : String) : Prop :=
  (p.hub.machines.cycles user).length < ((p.take t).hub.machines.cycles user).length

instance (p : Plane) (t : Turn) (user : String) : Decidable (p.Boots t user) :=
  inferInstanceAs (Decidable (_ < _))

theorem Asks.boots_iff (ha : p.Asks n v org looked) (act : t.act = .move (.errand n)) :
    p.Boots t v.errand.userId ↔
      (⟨t.moment.vm, .ensure v.errand.userId org looked⟩ : Vm.Turn).Launches p.hub.policy p.hub.machines
        v.errand.userId := by
  obtain ⟨request, hask⟩ := ha.message
  obtain ⟨x, hn, hx⟩ := Errand.machines_ensuring hask t.moment p.hub looked
  have htake : (p.take t).hub.machines =
      (Vm.Turn.run p.hub.policy ⟨t.moment.vm, .ensure v.errand.userId org looked⟩ p.hub.machines).2 := by
    rw [← ha.stage] at hn
    simp only [take, act, move, moveErrand_eq ha.there ha.present, hn, Option.map_some, Option.getD_some]
    exact (machines_settle _ x.2).trans hx
  rw [Boots, htake]
  rfl

/-- While its user has a connection, a message has a machine brought up only where the user's last row has
failed and is rebuilt, or where the message saw no connection when it came and this one was opened since; and
a failed row is rebuilt whatever the message saw. -/
theorem boots_beside_connection (settings : Settings.ControlPlane) (policy : Vm.Policy)
    (keeping : Vm.Keeping) (secrets : List (String × String)) (router : Router) (early : List Turn) (t : Turn)
    (fresh : ((early ++ [t]).map fun t => t.moment.vm.freshId).Nodup) (n i : Nat) (v : Visit) (org : String)
    (looked : Bool) (act : t.act = .move (.errand n)) :
    let o := start settings policy { keeping := keeping } secrets router
    let p := play early o
    (asks : p.Asks n v org looked) →
    (connected : p.hub.connections.current.lookup v.errand.userId = some i) →
    (p.Boots t v.errand.userId → p.hub.machines.Rebuilds p.hub.policy t.moment.vm.now v.errand.userId ∨
      looked = false ∧ OpenedSince o early n v i) ∧
    (p.hub.machines.Rebuilds p.hub.policy t.moment.vm.now v.errand.userId → p.Boots t v.errand.userId) := by
  intro o p asks connected
  have hstart : Stocked (early ++ [t]) o :=
    ⟨.vacant keeping, fun _ _ => List.not_mem_nil, fresh⟩
  have hnow : Stocked [t] p := hstart.append
  have hhoused : p.Housed := (Housed.start settings policy keeping secrets router).play hstart
  have hrow := Vm.World.latest?_of_users (hhoused.rows _ i connected)
  have hf := hnow.unusedId (.ensure v.errand.userId org looked)
  rw [asks.boots_iff act]
  refine ⟨fun hlaunch => ?_, fun hrebuilds => ?_⟩
  · have hdue := hlaunch.due rfl
    cases hlast : p.hub.machines.store.latest? v.errand.userId with
    | none => exact absurd hlast hrow
    | some r =>
      have since (hlooked : looked = false) : looked = false ∧ OpenedSince o early n v i :=
        ⟨hlooked, openedSince_play rfl early asks.there (hlooked ▸ asks.stage) connected⟩
      rw [hlast] at hdue
      unfold Vm.Policy.Due at hdue
      cases hs : r.status <;> simp only [hs] at hdue
      case terminated => exact absurd hs (hhoused.open_ r (Vm.World.mem_of_latest? hlast))
      case failed => exact .inl ((Vm.Turn.launches_failed_iff hnow.lone hf rfl hlast hs).mp hlaunch)
      case starting => exact .inr (since hdue.1)
      case provisioning => exact .inr (since hdue.1)
      case ready => exact .inr (since hdue.1)
      case disconnected => exact .inr (since hdue.1)
  · have ⟨r, hlast, hs, _⟩ := hrebuilds
    exact (Vm.Turn.launches_failed_iff hnow.lone hf rfl hlast hs).mpr hrebuilds

/-! ### A message beside alice's machine -/

/-- Alice sends a message. -/
def asking : Act := .visit ⟨"alice", "s", .message "" { message := "hi" }⟩

/-- Alice's machine is connected when she asks, and then a forced bootstrap is refused. -/
def refused : List Turn :=
  numbered ([.force "alice" ""] ++ admission 0 "alice" "ticket-0" ++ [asking]) ++
    [⟨⟨⟨⟨0, 0⟩, 0, "row-7", "ticket-7", .error (.transport "refused")⟩, 7, "7"⟩, .force "alice" ""⟩]

/-- Alice asks while her machine is coming up, and it is connected before her request has its turn. -/
def overtaken : List Turn :=
  numbered ([.force "alice" "", asking] ++ admission 0 "alice" "ticket-0")

/-- Alice's request has its turn when the cooldown is over. -/
def itsTurn : Turn := ⟨⟨⟨⟨60, 0⟩, 60, "row", "ticket", .ok ()⟩, 60000, "60000"⟩, .move (.errand 0)⟩

/-- Whose visit it is, for which organization, what it knows of the connection, and whether the browser waits. -/
def seen (v : Visit) : String × Option String × Option Bool × Bool :=
  (v.errand.userId, v.errand.ask.org?, v.stage.asks?, v.present)

theorem asks_of_seen (there : p.visits[n]? = some v) (hv : seen v = (user, some org, some looked, true)) :
    v.errand.userId = user ∧ p.Asks n v org looked := by
  simp only [seen, Prod.mk.injEq] at hv
  obtain ⟨hu, horg, hlooked, present⟩ := hv
  have message : ∃ request, v.errand.ask = .message org request := by
    cases ha : v.errand.ask with
    | message org' request =>
      rw [ha] at horg
      exact ⟨request, by rw [Option.some.inj horg]⟩
    | cancel =>
      rw [ha] at horg
      cases horg
    | stop =>
      rw [ha] at horg
      cases horg
  have stage : v.stage = .ensuring looked := by
    cases hs : v.stage with
    | ensuring b =>
      rw [hs] at hlooked
      rw [Option.some.inj hlooked]
    | _ =>
      rw [hs] at hlooked
      cases hlooked
  exact ⟨hu, there, present, message, stage⟩

/-- The machine that alice's request passes over was connected after she had asked. -/
theorem overtaken_request_missed_the_connection :
    (play overtaken opening).Boots itsTurn "alice" ∧
    ∃ v, OpenedSince opening overtaken 0 v 0 ∧ v.errand.userId = "alice" := by
  unfold opening
  have hseen : (play overtaken (start {} ⟨{}, ⟨"secret", 600⟩⟩ { keeping := .arrival } [] {})).visits[0]?.map seen =
      some ("alice", some "", some false, true) := by decide +kernel
  have connected : (play overtaken (start {} ⟨{}, ⟨"secret", 600⟩⟩ { keeping := .arrival } [] {})
      ).hub.connections.current.lookup "alice" = some 0 := by decide +kernel
  have boots : (play overtaken (start {} ⟨{}, ⟨"secret", 600⟩⟩ { keeping := .arrival } [] {})).Boots
      itsTurn "alice" := by decide +kernel
  have ready : ((play overtaken (start {} ⟨{}, ⟨"secret", 600⟩⟩ { keeping := .arrival } [] {})
      ).hub.machines.store.latest? "alice").map Vm.Row.status = some .ready := by decide +kernel
  obtain ⟨v, there, hv⟩ := Option.map_eq_some_iff.mp hseen
  obtain ⟨hu, asks⟩ := asks_of_seen there hv
  have beside := boots_beside_connection {} ⟨{}, ⟨"secret", 600⟩⟩ .arrival [] {} overtaken itsTurn
    (by decide +kernel) 0 0 v "" false rfl asks (hu.symm ▸ connected)
  rw [hu] at beside
  rcases beside.1 boots with ⟨r, hlast, hfailed, -⟩ | ⟨-, since⟩
  · rw [hlast, Option.map_some, hfailed] at ready
    cases ready
  · exact ⟨boots, v, since, hu⟩

/-- A bootstrap is launched for alice while her machine is connected: in the place of her failed row, though
her message saw the machine, and because her message did not see it. -/
theorem bootstraps_beside_alices_machine :
    ((play refused opening).visits.map seen = [("alice", some "", some true, true)] ∧
      (play refused opening).hub.connections.current.lookup "alice" = some 0 ∧
      (play refused opening).Boots itsTurn "alice") ∧
    ((play overtaken opening).visits.map seen = [("alice", some "", some false, true)] ∧
      (play overtaken opening).hub.connections.current.lookup "alice" = some 0 ∧
      (play overtaken opening).Boots itsTurn "alice") := by
  decide +kernel

end Plane

end Fleet.Control
