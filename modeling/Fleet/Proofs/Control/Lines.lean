import Fleet.Proofs.Control.Errands
import Fleet.Proofs.Tables

/-!
What turns do to sockets and to the frames queued for machines. A connection is a socket's line from
the moment the machine is admitted. What is queued on it are the calls made on it and frames of its
own socket, and only its own writer takes them.
-/

namespace Fleet.Control

/-- Those of some calls that were made on a connection. -/
def callsOn (j : Nat) (calls : List (Nat × Call)) : List Call :=
  (calls.filter fun a => a.1 = j).map Prod.snd

def requestsOn (j : Nat) (calls : List (Nat × Call)) : List Frame := (callsOn j calls).map .request

theorem callsOn_append (j : Nat) (calls more : List (Nat × Call)) :
    callsOn j (calls ++ more) = callsOn j calls ++ callsOn j more := by
  simp [callsOn]

theorem requestsOn_append (j : Nat) (calls more : List (Nat × Call)) :
    requestsOn j (calls ++ more) = requestsOn j calls ++ requestsOn j more := by
  simp [requestsOn, callsOn_append]

theorem callsOn_grows (j : Nat) {calls more : List (Nat × Call)} (h : calls <+: more) :
    callsOn j calls <+: callsOn j more := by
  obtain ⟨rest, rfl⟩ := h
  exact ⟨callsOn j rest, (callsOn_append j calls rest).symm⟩

/-! ### Connections -/

namespace Connection

/-- What of a connection changes only by frames that come and go. -/
def face (c : Connection) : String × String × Bool × List Frame :=
  (c.id, c.userId, c.writable, c.outbox)

end Connection

namespace Connections

/-- The calls that were made, each with the number of its connection. -/
def made (s : Connections) : List (Nat × Call) := s.inquiries.map fun q => (q.connection, q.request)

/-- The frames on a connection that the writer has not taken. -/
def queued (s : Connections) (j : Nat) : List Frame := (s.opened[j]?.map Connection.outbox).getD []

/-- Nothing is queued, no call is made, and no connection opens. -/
structure Silent (s t : Connections) : Prop where
  faces : t.opened.map Connection.face = s.opened.map Connection.face
  made : t.made = s.made

/-- Calls are made and frames are queued, but for those calls only on the connection `own`. -/
structure Gains (own : Option Nat) (more : List (Nat × Call)) (s t : Connections) : Prop where
  made : t.made = s.made ++ more
  queued : ∀ j, ∃ added, t.queued j = s.queued j ++ added ∧
    (own ≠ some j → added = requestsOn j more)
  kept : ∀ (j : Nat) c, s.opened[j]? = some c →
    ∃ d, t.opened[j]? = some d ∧ d.id = c.id ∧ d.userId = c.userId ∧ d.writable = c.writable

variable {s t u : Connections} {c d : Connection} {j k : Nat} {own : Option Nat}
  {more more' : List (Nat × Call)}

theorem mem_callsOn {call : Call} : call ∈ callsOn j s.made ↔
    ∃ q ∈ s.inquiries, q.connection = j ∧ q.request = call := by
  simp [callsOn, made]

theorem queued_eq (hc : s.opened[j]? = some c) : s.queued j = c.outbox := by simp [queued, hc]

theorem queued_of_none (hn : s.opened[j]? = none) : s.queued j = [] := by simp [queued, hn]

namespace Silent

theorem refl (s : Connections) : Silent s s := ⟨rfl, rfl⟩

theorem trans (h : Silent s t) (h' : Silent t u) : Silent s u :=
  ⟨h'.faces.trans h.faces, h'.made.trans h.made⟩

/-- One connection is changed in what is not its face. -/
theorem of_modify {g : Connection → Connection} (ho : t.opened = s.opened.modify k g)
    (hg : ∀ c, (g c).face = c.face) (hm : t.made = s.made) : Silent s t :=
  ⟨by rw [ho, map_modify_of_eq hg], hm⟩

theorem length_eq (h : Silent s t) : t.opened.length = s.opened.length := by
  have := congrArg List.length h.faces
  simpa using this

theorem gains (h : Silent s t) (own : Option Nat) : Gains own [] s t := by
  have face (j : Nat) : t.opened[j]?.map Connection.face = s.opened[j]?.map Connection.face := by
    rw [← List.getElem?_map, ← List.getElem?_map, h.faces]
  refine ⟨by simpa using h.made, fun j => ⟨[], ?_, fun _ => rfl⟩, fun j c hc => ?_⟩
  · have hq := congrArg (Option.map fun f => f.2.2.2) (face j)
    simp only [Option.map_map] at hq
    rw [List.append_nil]
    exact congrArg (·.getD []) hq
  · have hf := face j
    rw [hc] at hf
    obtain ⟨d, hd, hface⟩ := Option.map_eq_some_iff.mp hf
    obtain ⟨hid, huser, hwritable, _⟩ : d.id = c.id ∧ d.userId = c.userId ∧
        d.writable = c.writable ∧ d.outbox = c.outbox := by
      simpa [Connection.face] using hface
    exact ⟨d, hd, hid, huser, hwritable⟩

end Silent

namespace Gains

theorem refl (s : Connections) (own : Option Nat) : Gains own [] s s := (Silent.refl s).gains own

theorem trans (h : Gains own more s t) (h' : Gains own more' t u) :
    Gains own (more ++ more') s u := by
  refine ⟨by rw [h'.made, h.made, List.append_assoc], fun j => ?_, fun j c hc => ?_⟩
  · obtain ⟨added, hq, hown⟩ := h.queued j
    obtain ⟨added', hq', hown'⟩ := h'.queued j
    refine ⟨added ++ added', by rw [hq', hq, List.append_assoc], fun hne => ?_⟩
    rw [hown hne, hown' hne, requestsOn_append]
  · obtain ⟨d, hd, hid, huser, hwritable⟩ := h.kept j c hc
    obtain ⟨e, he, hid', huser', hwritable'⟩ := h'.kept j d hd
    exact ⟨e, he, hid'.trans hid, huser'.trans huser, hwritable'.trans hwritable⟩

theorem length_le (h : Gains own more s t) : s.opened.length ≤ t.opened.length := by
  refine Nat.le_of_not_lt fun hlt => ?_
  obtain ⟨d, hd, _⟩ := h.kept t.opened.length _ (List.getElem?_eq_getElem (by omega))
  have := (List.getElem?_eq_some_iff.mp hd).1
  omega

theorem made_grows (h : Gains own more s t) : s.made <+: t.made := ⟨more, h.made.symm⟩

end Gains

/-! ### What is done with connections -/

theorem made_modify {f : Inquiry → Inquiry} (hf : ∀ q, (f q).connection = q.connection ∧
    (f q).request = q.request) (qs : List Inquiry) (n : Nat) :
    (qs.modify n f).map (fun q => (q.connection, q.request)) =
      qs.map fun q => (q.connection, q.request) :=
  map_modify_of_eq (fun q => by rw [(hf q).1, (hf q).2]) qs n

theorem finish_same (q : Inquiry) (o : Except Error Json) :
    (q.finish o).connection = q.connection ∧ (q.finish o).request = q.request := by
  unfold Inquiry.finish
  split <;> exact ⟨rfl, rfl⟩

theorem desert_same (q : Inquiry) :
    q.desert.connection = q.connection ∧ q.desert.request = q.request := by
  unfold Inquiry.desert
  split <;> exact ⟨rfl, rfl⟩

theorem silent_resolve (s : Connections) (k : Nat) (r : Reply) : Silent s (s.resolve k r).2 := by
  unfold resolve
  split
  · exact .refl s
  · exact .of_modify rfl (fun _ => rfl) (made_modify (finish_same · _) _ _)

theorem silent_failPending (s : Connections) (k : Nat) : Silent s (s.failPending k).2 := by
  unfold failPending
  split
  · exact .refl s
  · rename_i c _
    refine .of_modify rfl (fun _ => rfl) ?_
    dsimp only [made]
    generalize s.inquiries = qs
    induction c.pending generalizing qs with
    | nil => rfl
    | cons p rest ih =>
      rw [List.foldl_cons, ih, made_modify fun q => finish_same q _]

theorem silent_close (s : Connections) (k : Nat) : Silent s (s.close k) :=
  .of_modify rfl (fun _ => rfl) rfl

theorem silent_register (s : Connections) (k : Nat) : Silent s (s.register k) := by
  unfold register
  split
  · exact .refl s
  · rename_i c _
    have ht : Silent s { s with
        current := (c.userId, k) :: s.current.filter fun u => u.1 ≠ c.userId } := ⟨rfl, rfl⟩
    dsimp only
    split
    · exact ht
    · exact (ht.trans (silent_failPending _ _)).trans (silent_close _ _)

theorem silent_unregister (s : Connections) (user id : String) :
    Silent s (s.unregister user id).2 := by
  unfold unregister
  split
  · exact ⟨rfl, rfl⟩
  · exact .refl s

theorem silent_expire (s : Connections) (n : Nat) : Silent s (s.expire n) := by
  unfold expire
  split
  · exact .refl s
  · split
    · exact .of_modify rfl (fun _ => rfl) (made_modify (finish_same · _) _ _)
    · exact .refl s

theorem silent_desert (s : Connections) (n : Nat) : Silent s (s.desert n) :=
  ⟨rfl, made_modify desert_same _ _⟩

theorem gains_connect (s : Connections) (id user org : String) :
    Gains none [] s (s.connect id user org) := by
  have old {j : Nat} (hj : j < s.opened.length) :
      (s.connect id user org).opened[j]? = s.opened[j]? := List.getElem?_append_left hj
  refine ⟨(List.append_nil _).symm, fun j => ⟨[], ?_, fun _ => rfl⟩, fun j c hc => ?_⟩
  · rw [List.append_nil]
    rcases Nat.lt_or_ge j s.opened.length with hj | hj
    · simp only [queued, old hj]
    · rw [queued_of_none (s := s) (List.getElem?_eq_none hj)]
      unfold queued connect
      rw [List.getElem?_append_right hj]
      cases j - s.opened.length <;> rfl
  · have hj := (List.getElem?_eq_some_iff.mp hc).1
    exact ⟨c, (old hj).trans hc, rfl, rfl, rfl⟩

theorem send_ok {f : Frame} (h : s.send k f = .ok t) : ∃ c, s.opened[k]? = some c ∧
    c.writable = true ∧ t = s.change k fun _ => { c with outbox := c.outbox ++ [f] } := by
  unfold send at h
  split at h
  · cases h
  · rename_i c hc
    unfold Connection.push at h
    split at h
    · cases h
      exact ⟨c, hc, ‹_›, rfl⟩
    · cases h

theorem send_of_writable {f : Frame} (hc : s.opened[k]? = some c) (hw : c.writable = true) :
    s.send k f = .ok (s.change k fun _ => { c with outbox := c.outbox ++ [f] }) := by
  simp [send, hc, Connection.push, hw, Except.map]

theorem gains_send {f : Frame} (h : s.send k f = .ok t) : Gains (some k) [] s t := by
  obtain ⟨c, hc, _, rfl⟩ := send_ok h
  refine ⟨(List.append_nil _).symm, fun j => ?_, fun j d hd => ?_⟩
  · by_cases hj : k = j
    · subst hj
      exact ⟨[f], by simp [queued, change, hc], fun hne => absurd rfl hne⟩
    · exact ⟨[], by simp [queued, change, hj], fun _ => rfl⟩
  · by_cases hj : k = j
    · subst hj
      obtain rfl := Option.some.inj (hc.symm.trans hd)
      exact ⟨{ c with outbox := c.outbox ++ [f] }, by simp [change, hc], rfl, rfl, rfl⟩
    · exact ⟨d, by simp [change, hj, hd], rfl, rfl, rfl⟩

theorem gains_call {request : Call} {timeoutMs now : Nat}
    (h : s.call k request timeoutMs now = .ok t) :
    t.current = s.current ∧ Gains none [(k, request)] s t := by
  unfold call at h
  cases hsend : s.send k (.request request) with
  | error e => simp [hsend, Except.map] at h
  | ok u =>
    simp only [hsend, Except.map] at h
    cases h
    obtain ⟨c, hc, _, rfl⟩ := send_ok hsend
    refine ⟨rfl, by simp [made, change], fun j => ⟨_, ?_, fun _ => rfl⟩, fun j d hd => ?_⟩
    · by_cases hj : k = j
      · subst hj
        simp [queued, change, hc, requestsOn, callsOn]
      · simp [queued, change, hj, requestsOn, callsOn]
    · by_cases hj : k = j
      · subst hj
        obtain rfl := Option.some.inj (hc.symm.trans hd)
        let d : Connection := { c with
          outbox := c.outbox ++ [.request request]
          pending := c.pending ++ [(request.id, s.inquiries.length)] }
        exact ⟨d, by simp [d, change, hc], rfl, rfl, rfl⟩
      · exact ⟨d, by simp [change, hj, hd], rfl, rfl, rfl⟩

theorem gains_callUser {user : String} {request : Call} {timeoutMs now : Nat}
    (h : s.callUser user request timeoutMs now = .ok t) :
    t.current = s.current ∧ ∃ more, Gains none more s t := by
  unfold callUser at h
  split at h
  · cases h
  · exact ⟨(gains_call h).1, _, (gains_call h).2⟩

theorem current_expire (s : Connections) (n : Nat) : (s.expire n).current = s.current := by
  unfold expire
  split
  · rfl
  · split <;> rfl

theorem current_resolve (s : Connections) (k : Nat) (r : Reply) :
    (s.resolve k r).2.current = s.current := by
  unfold resolve
  split <;> rfl

end Connections

/-! ### Hubs -/

namespace Hub

/-- What a hub is given at its start. -/
def given (h : Hub) : Settings.ControlPlane × Vm.Policy × List (String × String) :=
  (h.settings, h.policy, h.secrets)

/-- One thing that happens beside the sockets: rows change, a call is made or ends, or sessions and
browsers' feeds come and go. -/
inductive Happens : Hub → Hub → Prop
  | work (h : Hub) {α : Type} (work : Vm.Work α) : Happens h (h.perform work).2
  | call (h : Hub) {user : String} (request : Call) {timeoutMs now : Nat} {c : Connections}
      (made : h.connections.callUser user request timeoutMs now = .ok c) :
      Happens h { h with connections := c }
  | desert (h : Hub) (q : Nat) : Happens h { h with connections := h.connections.desert q }
  | expire (h : Hub) (q : Nat) : Happens h { h with connections := h.connections.expire q }
  | stir (h : Hub) (routes : List Route) (relay : Feed.Relay)
      (feeds : List (String × Feed.Channel)) :
      Happens h { h with routes := routes, relay := relay, feeds := feeds }

/-- What happens beside the sockets in one turn. -/
def Besides : Hub → Hub → Prop := Relation.ReflTransGen Happens

/-- Calls are made and end, and whose connection is current stays. -/
structure Aside (h g : Hub) : Prop where
  given : g.given = h.given
  current : g.connections.current = h.connections.current
  gains : ∃ more, Connections.Gains none more h.connections g.connections

variable {h g k : Hub}

theorem Besides.refl (h : Hub) : h.Besides h := Relation.ReflTransGen.refl

theorem Happens.besides (hp : h.Happens g) : h.Besides g := .single hp

theorem Besides.then (hg : h.Besides g) (hp : g.Happens k) : h.Besides k := hg.tail hp

namespace Aside

theorem of_silent (hg : g.given = h.given) (hc : g.connections.current = h.connections.current)
    (hs : Connections.Silent h.connections g.connections) : h.Aside g := ⟨hg, hc, [], hs.gains none⟩

theorem refl (h : Hub) : h.Aside h := .of_silent rfl rfl (.refl _)

theorem trans (hg : h.Aside g) (gk : g.Aside k) : h.Aside k := by
  obtain ⟨more, hm⟩ := hg.gains
  obtain ⟨more', hm'⟩ := gk.gains
  exact ⟨gk.given.trans hg.given, gk.current.trans hg.current, _, hm.trans hm'⟩

end Aside

theorem Happens.aside (hp : h.Happens g) : h.Aside g := by
  cases hp with
  | call request made =>
    obtain ⟨hc, hg⟩ := Connections.gains_callUser made
    exact ⟨rfl, hc, hg⟩
  | desert q => exact .of_silent rfl rfl (Connections.silent_desert _ q)
  | expire q => exact .of_silent rfl (Connections.current_expire _ q) (Connections.silent_expire _ q)
  | _ => exact .of_silent rfl rfl (.refl _)

theorem Besides.aside (hg : h.Besides g) : h.Aside g := by
  induction hg with
  | refl => exact .refl h
  | tail _ hp ih => exact ih.trans hp.aside

end Hub

theorem Errand.Part.happens {e : Errand} {h g : Hub} (hp : e.Part h g) : h.Happens g := by
  cases hp with
  | ensure work => exact .work h work
  | prune connection => exact .stir h _ h.relay h.feeds
  | route r => exact .stir h _ h.relay h.feeds
  | call request made => exact .call h request made
  | stop => exact .stir h _ _ _

theorem Errand.Course.besides {e : Errand} {h g : Hub} (hc : e.Course h g) : h.Besides g := by
  induction hc with
  | refl => exact .refl h
  | tail _ hp ih => exact ih.then hp.happens

/-! ### Sockets -/

namespace Socket

/-- Whether its machine has not been admitted yet. -/
def Stage.isNew : Stage → Bool
  | .expecting _ | .admitting _ => true
  | _ => false

/-- The connection of a socket whose machine was admitted. -/
def line? (s : Socket) : Option Nat :=
  match s.stage with
  | .greeting j | .live j _ | .leaving j _ _ => some j
  | _ => none

def welcome (h : Hub) (c : Connection) : Frame :=
  .init ⟨c.id, h.secrets, h.settings.ws.heartbeatInterval⟩

/-- How a socket goes on. -/
inductive Went (s : Socket) (h : Hub) (s' : Socket) (g : Hub) : Prop
  | apart (line : s.line? = none) (line' : s'.line? = none)
      (new : s'.stage.isNew = true → s.stage.isNew = true ∧ s'.written = s.written)
      (connections : g.connections = h.connections)
  | enrolled (id user org : String) (new : s.stage.isNew = true)
      (stage : s'.stage = .greeting h.connections.opened.length) (written : s'.written = s.written)
      (connections : g.connections =
        (h.connections.connect id user org).register h.connections.opened.length)
  | greeted {j deadline : Nat} {c : Connection} (greets : s.stage = .greeting j)
      (found : h.connections.opened[j]? = some c) (stage : s'.stage = .live j deadline)
      (written : s'.written = s.written)
      (connections : g.connections = (push h j (welcome h c)).connections)
  | lived {j deadline deadline' : Nat} (lives : s.stage = .live j deadline)
      (stage : s'.stage = .live j deadline') (written : s'.written = s.written)
      (current : g.connections.current = h.connections.current)
      (gains : Connections.Gains (some j) [] h.connections g.connections)
  | left {j deadline : Nat} {c : Connection} {ending : Ending} (lives : s.stage = .live j deadline)
      (found : h.connections.opened[j]? = some c)
      (stage : s'.stage = .leaving j (h.connections.unregister c.userId c.id).1 ending)
      (written : s'.written = s.written)
      (connections : g.connections =
        (((h.connections.unregister c.userId c.id).2.failPending j).2.close j))
  | finished {j : Nat} {current : Bool} {ending : Ending} (leaves : s.stage = .leaving j current ending)
      (stage : s'.stage = .ended ending) (connections : g.connections = h.connections)

variable {s s' : Socket} {h g : Hub} {m : Moment} {j k : Nat} {c : Connection}

theorem line?_of_new (hn : s.stage.isNew = true) : s.line? = none := by
  unfold line?
  cases hs : s.stage <;> simp [Stage.isNew, hs] at hn ⊢

theorem authenticate_same (h : Hub) (m : Moment) (c : Credentials) :
    (h.authenticate m c).2.given = h.given ∧ (h.authenticate m c).2.connections = h.connections := by
  unfold Hub.authenticate
  split
  · exact ⟨rfl, rfl⟩
  · dsimp only
    split <;> exact ⟨rfl, rfl⟩

theorem push_same (h : Hub) (j : Nat) (f : Frame) : (push h j f).given = h.given ∧
    (push h j f).connections.current = h.connections.current ∧
    Connections.Gains (some j) [] h.connections (push h j f).connections := by
  unfold push
  split
  · rename_i t ht
    have hgains := Connections.gains_send ht
    obtain ⟨_, _, _, rfl⟩ := Connections.send_ok ht
    exact ⟨rfl, rfl, hgains⟩
  · exact ⟨rfl, rfl, .refl _ _⟩

theorem handle_same (m : Moment) (j : Nat) (user : String) (h : Hub) (f : Frame) :
    (handle m j user h f).given = h.given ∧
    (handle m j user h f).connections.current = h.connections.current ∧
    Connections.Gains (some j) [] h.connections (handle m j user h f).connections := by
  cases f with
  | request call => exact push_same { h with resume := _ } j _
  | resume ids => exact push_same { h with resume := _ } j _
  | response reply =>
    exact ⟨rfl, Connections.current_resolve _ _ _, (Connections.silent_resolve _ _ _).gains _⟩
  | fireAndForget method payload =>
    simp only [handle]
    split <;> exact ⟨rfl, rfl, .refl _ _⟩
  | sessionEvent session event data =>
    simp only [handle]
    split <;> exact ⟨rfl, rfl, .refl _ _⟩
  | _ => exact ⟨rfl, rfl, .refl _ _⟩

theorem went_enrol (s : Socket) (m : Moment) {credentials : Credentials}
    (hs : s.stage = .admitting credentials) (h : Hub) :
    s.Went h (s.enrol m credentials h).1 (s.enrol m credentials h).2 ∧
      (s.enrol m credentials h).2.given = h.given := by
  obtain ⟨hgiven, hc⟩ := authenticate_same h m credentials
  unfold enrol
  split
  · rename_i e g hg
    rw [hg] at hgiven hc
    exact ⟨.apart (by simp [line?, hs]) rfl nofun hc, hgiven⟩
  · rename_i g hg
    rw [hg] at hgiven hc
    dsimp only at hc ⊢
    exact ⟨.enrolled _ _ _ (by rw [hs]; rfl) (by rw [hc]) rfl (by rw [hc]), hgiven⟩

theorem went_greet (s : Socket) (m : Moment) (hs : s.stage = .greeting j)
    (hc : h.connections.opened[j]? = some c) :
    s.Went h (s.greet m j c h).1 (s.greet m j c h).2 ∧ (s.greet m j c h).2.given = h.given := by
  let marked := (h.perform (Vm.Work.markConnected m.vm.now c.userId)).2
  have hpush := push_same marked j (welcome h c)
  refine ⟨.greeted hs hc rfl rfl ?_, hpush.1⟩
  change (push marked j (welcome h c)).connections = (push h j (welcome h c)).connections
  unfold push
  have hsame : marked.connections = h.connections := rfl
  rw [hsame]
  split <;> rfl

theorem went_attend {deadline : Nat} (hs : s.stage = .live j deadline)
    (hc : h.connections.opened[j]? = some c) (hn : s.attend m j deadline c h = some (s', g)) :
    s.Went h s' g ∧ g.given = h.given := by
  have leave (inbox : List Arrival) (ending : Ending)
      (he : { s with inbox := inbox }.leave j c ending h = (s', g)) :
      s.Went h s' g ∧ g.given = h.given := by
    cases he
    exact ⟨.left hs hc rfl rfl rfl, rfl⟩
  unfold attend at hn
  split at hn
  · exact leave s.inbox .clean (Option.some.inj hn)
  · split at hn
    · rename_i t rest _
      rw [Option.some.injEq] at hn
      unfold hear at hn
      split at hn
      · cases hn
        exact ⟨.lived hs hs rfl rfl (.refl _ _), rfl⟩
      · rename_i f _
        obtain ⟨hgiven, hcurrent, hgains⟩ := handle_same m j c.userId h f
        cases hn
        exact ⟨.lived hs rfl rfl hcurrent hgains, hgiven⟩
    · cases hn
      exact ⟨.lived hs hs rfl rfl (.refl _ _), rfl⟩
    · exact leave s.inbox .clean (Option.some.inj hn)
    · exact leave s.inbox .clean (Option.some.inj hn)
    · split at hn
      · exact leave s.inbox .timeout (Option.some.inj hn)
      · cases hn

/-- Every move of a socket is of one of these kinds. -/
theorem went_next (hn : s.next m h = some (s', g)) : s.Went h s' g ∧ g.given = h.given := by
  have apart {x : Socket × Hub} (he : some x = some (s', g)) (hnew : s.stage.isNew = true)
      (line' : x.1.line? = none) (new : x.1.stage.isNew = true → x.1.written = s.written)
      (hh : x.2 = h) : s.Went h s' g ∧ g.given = h.given := by
    cases he
    obtain rfl : g = h := hh
    exact ⟨.apart (line?_of_new hnew) line' (fun hn => ⟨hnew, new hn⟩) rfl, rfl⟩
  unfold next at hn
  cases hs : s.stage with
  | expecting deadline =>
    have hnew : s.stage.isNew = true := by rw [hs]; rfl
    simp only [hs] at hn
    split at hn
    · refine apart hn hnew ?_ ?_ rfl
      · unfold expect
        split <;> rfl
      · unfold expect
        split
        · exact nofun
        · exact fun _ => rfl
        · exact nofun
    · exact apart hn hnew rfl (fun _ => rfl) rfl
    · exact apart hn hnew rfl nofun rfl
    · exact apart hn hnew rfl nofun rfl
    · split at hn
      · exact apart hn hnew rfl nofun rfl
      · cases hn
  | admitting credentials =>
    simp only [hs, Option.some.injEq] at hn
    have := went_enrol s m hs h
    rwa [hn] at this
  | greeting j =>
    simp only [hs] at hn
    obtain ⟨c, hc, hn⟩ := Option.map_eq_some_iff.mp hn
    have := went_greet s m hs hc
    rwa [hn] at this
  | live j deadline =>
    simp only [hs] at hn
    obtain ⟨c, hc, hn⟩ := Option.bind_eq_some_iff.mp hn
    exact went_attend hs hc hn
  | leaving j current ending =>
    simp only [hs] at hn
    obtain ⟨c, _, hn⟩ := Option.bind_eq_some_iff.mp hn
    split at hn
    · cases hn
      refine ⟨.finished hs rfl ?_, ?_⟩ <;> split <;> rfl
    · cases hn
  | ended ending =>
    simp only [hs] at hn
    cases hn

/-- A move of a socket queues frames on its own connection only, and makes no calls. -/
theorem Went.gains (hw : s.Went h s' g) :
    Connections.Gains s.line? [] h.connections g.connections := by
  cases hw with
  | apart line line' new connections =>
    rw [connections]
    exact .refl _ _
  | enrolled id user org new stage written connections =>
    rw [connections, line?_of_new new]
    exact (Connections.gains_connect _ _ _ _).trans ((Connections.silent_register _ _).gains _)
  | greeted greets found stage written connections =>
    rw [connections]
    simpa [line?, greets] using (push_same h _ _).2.2
  | lived lives stage written current gains => simpa [line?, lives] using gains
  | left lives found stage written connections =>
    rw [connections]
    have hs := Connections.silent_unregister h.connections
    exact (((hs _ _).trans (Connections.silent_failPending _ _)).trans
      (Connections.silent_close _ _)).gains _
  | finished leaves stage connections =>
    rw [connections]
    exact .refl _ _

/-- How the writer of a socket goes on: the oldest frame on its connection is written, or there is
none and nothing more will be taken. -/
structure Wrote (s : Socket) (h : Hub) (s' : Socket) (g : Hub) (j : Nat) : Prop where
  line : s.connection? = some j
  stage : s'.stage = s.stage
  given : g.given = h.given
  current : g.connections.current = h.connections.current
  made : g.connections.made = h.connections.made
  frames : s'.written ++ g.connections.queued j = s.written ++ h.connections.queued j
  found : ∃ c d, h.connections.opened[j]? = some c ∧ g.connections.opened[j]? = some d ∧
    d.id = c.id ∧ d.userId = c.userId
  others : ∀ i, i ≠ j → g.connections.opened[i]? = h.connections.opened[i]?
  length : g.connections.opened.length = h.connections.opened.length

theorem wrote_write (hw : s.write h = some (s', g)) : ∃ j, s.Wrote h s' g j := by
  unfold write at hw
  split at hw
  · cases hw
  · obtain ⟨j, hj, hw⟩ := Option.bind_eq_some_iff.mp hw
    obtain ⟨c, hc, hw⟩ := Option.bind_eq_some_iff.mp hw
    have change {x : Socket} {f : Connection → Connection} (hstage : x.stage = s.stage)
        (hf : (f c).id = c.id ∧ (f c).userId = c.userId)
        (hx : x.written ++ (f c).outbox = s.written ++ c.outbox) :
        s.Wrote h x { h with connections := h.connections.change j f } j := by
      have hd : (h.connections.change j f).opened[j]? = some (f c) := by
        simp [Connections.change, hc]
      refine ⟨hj, hstage, rfl, rfl, rfl, ?_, ⟨c, f c, hc, hd, hf⟩, fun i hi => ?_, ?_⟩
      · rw [Connections.queued_eq hc, Connections.queued_eq hd, hx]
      · simp [Connections.change, Ne.symm hi]
      · simp [Connections.change]
    split at hw
    · rename_i f rest hout
      cases hw
      exact ⟨j, change rfl ⟨rfl, rfl⟩ (by simp [hout])⟩
    · rename_i hout
      split at hw
      · cases hw
        exact ⟨j, change rfl ⟨rfl, rfl⟩ (by simp [Connection.hangUp, hout])⟩
      · cases hw

end Socket

/-! ### Turns -/

namespace Plane

variable {p q : Plane} {t : Turn} {m : Moment} {k n : Nat} {s s' : Socket}

/-- A socket that something else went on beside, or that is there for the first time. -/
inductive Stays (p : Plane) (k : Nat) (s' : Socket) : Prop
  | old {s : Socket} (there : p.sockets[k]? = some s) (stage : s'.stage = s.stage)
      (written : s'.written = s.written)
  | new (absent : p.sockets[k]? = none) (stage : s'.stage.isNew = true) (written : s'.written = [])

/-- What a turn is: a move of a socket, a move of a writer, or something beside them. -/
inductive Went (p : Plane) (t : Turn) : Plane → Prop
  | socket {k : Nat} {s s' : Socket} {g : Hub} (act : t.act = .move (.socket k))
      (there : p.sockets[k]? = some s) (next : s.next t.moment p.hub = some (s', g))
      (went : s.Went p.hub s' g) (given : g.given = p.hub.given) : Went p t (p.setSocket k (s', g))
  | write {k j : Nat} {s s' : Socket} {g : Hub} (there : p.sockets[k]? = some s)
      (write : s.write p.hub = some (s', g)) (wrote : s.Wrote p.hub s' g j) :
      Went p t (p.setSocket k (s', g))
  | beside {q : Plane} (sockets : ∀ k s', q.sockets[k]? = some s' → p.Stays k s')
      (hub : p.hub.Besides q.hub) : Went p t q

theorem Went.of_sockets (hs : q.sockets = p.sockets) (hub : p.hub.Besides q.hub) : Went p t q := by
  refine .beside (fun k s' hs' => ?_) hub
  rw [hs] at hs'
  exact .old hs' rfl rfl

theorem happens_unlisten (h : Hub) (id : String) : h.Happens (h.unlisten id) := .stir h _ _ _

theorem besides_settle {h g : Hub} (hg : h.Besides g) (v : Visit) : h.Besides (settle v g) := by
  unfold settle
  split
  · exact hg.then (happens_unlisten g _)
  · exact hg

theorem besides_moveErrand (hm : p.moveErrand m n = some q) : p.hub.Besides q.hub := by
  obtain ⟨v, _, hm⟩ := Option.bind_eq_some_iff.mp hm
  split at hm
  · obtain ⟨⟨stage, hub⟩, hn, rfl⟩ := Option.map_eq_some_iff.mp hm
    exact besides_settle (Errand.course_next hn).besides _
  · cases hm

theorem besides_moveFeed (hm : p.moveFeed n = some q) : p.hub.Besides q.hub := by
  obtain ⟨v, _, hm⟩ := Option.bind_eq_some_iff.mp hm
  obtain ⟨id, _, hm⟩ := Option.bind_eq_some_iff.mp hm
  have read {x : Feed.Notice} {g : Hub} (hr : p.hub.readFeed id = some (x, g)) : p.hub.Happens g := by
    obtain ⟨c, _, hr⟩ := Option.bind_eq_some_iff.mp hr
    obtain ⟨y, _, hy⟩ := Option.map_eq_some_iff.mp hr
    cases hy
    exact .stir _ _ _ _
  split at hm
  · split at hm
    · rename_i hr
      have hread := (read hr).besides
      split at hm
      · cases hm
        exact hread.then (happens_unlisten _ id)
      · cases hm
        exact hread
    · split at hm
      · cases hm
        exact (happens_unlisten _ id).besides
      · cases hm
  · cases hm

theorem besides_abandon (p : Plane) (n : Nat) : p.hub.Besides (p.abandon n).hub := by
  unfold abandon
  split
  · exact .refl _
  · rename_i v _
    split
    · have desert (q : Nat) :
          p.hub.Besides { p.hub with connections := p.hub.connections.desert q } :=
        (Hub.Happens.desert _ q).besides
      cases v.stage.call? with
      | none =>
        cases v.feed with
        | none => exact .refl _
        | some id => exact (happens_unlisten _ id).besides
      | some q =>
        cases v.feed with
        | none => exact desert q
        | some id => exact (desert q).then (happens_unlisten _ id)
    · exact .refl _

theorem besides_visit (p : Plane) (m : Moment) (e : Errand) : p.hub.Besides (p.visit m e).hub := by
  have hlisten (id : String) : p.hub.Happens (p.hub.listen id e.sessionId) := .stir _ _ _ _
  unfold visit
  cases e.ask with
  | message org request =>
    exact besides_settle ((hlisten _).besides.trans (e.course_begin _ _).besides) _
  | cancel => exact besides_settle (e.course_begin _ _).besides _
  | stop => exact besides_settle (e.course_begin _ _).besides _

theorem went_move (x : Move) (hm : p.move t.moment x = some q) (ht : t.act = .move x) : Went p t q := by
  cases x with
  | socket k =>
    obtain ⟨s, hs, hm⟩ := Option.bind_eq_some_iff.mp hm
    obtain ⟨⟨s', g⟩, hn, rfl⟩ := Option.map_eq_some_iff.mp hm
    obtain ⟨hw, hgiven⟩ := Socket.went_next hn
    exact .socket ht hs hn hw hgiven
  | write k =>
    obtain ⟨s, hs, hm⟩ := Option.bind_eq_some_iff.mp hm
    obtain ⟨⟨s', g⟩, hn, rfl⟩ := Option.map_eq_some_iff.mp hm
    obtain ⟨j, hw⟩ := Socket.wrote_write hn
    exact .write hs hn hw
  | errand n => exact .of_sockets (sockets_moveErrand hm) (besides_moveErrand hm)
  | feed n => exact .of_sockets (sockets_moveFeed hm) (besides_moveFeed hm)
  | expire c =>
    simp only [move] at hm
    split at hm
    · cases hm
      exact .of_sockets rfl (Hub.Happens.expire _ c).besides
    · cases hm

/-- Every turn is of one of the three kinds. -/
theorem went_take (p : Plane) (t : Turn) : Went p t (p.take t) := by
  unfold take
  split
  · rename_i x hx
    cases hm : p.move t.moment x with
    | none => exact .of_sockets rfl (.refl _)
    | some q => exact went_move x hm hx
  · refine .beside (fun k s' hs' => ?_) (.refl _)
    rcases Nat.lt_or_ge k p.sockets.length with hk | hk
    · exact .old ((List.getElem?_append_left hk).symm.trans hs') rfl rfl
    · have hnew := hs'
      unfold accept at hnew
      rw [List.getElem?_append_right hk] at hnew
      rw [List.mem_singleton.mp (List.mem_of_getElem? hnew)]
      exact .new (List.getElem?_eq_none hk) rfl rfl
  · rename_i j x _
    refine .beside (fun k s' hs' => ?_) (.refl _)
    unfold arrive at hs'
    rw [List.getElem?_modify] at hs'
    obtain ⟨s, hs, rfl⟩ := Option.map_eq_some_iff.mp hs'
    split <;> exact .old hs rfl rfl
  · exact .of_sockets rfl (besides_visit p _ _)
  · exact .of_sockets (sockets_abandon p _) (besides_abandon p _)
  · exact .of_sockets rfl
      (Hub.Happens.work p.hub (p.hub.policy.forceRebootstrap t.moment.vm _ _)).besides
  · refine .of_sockets rfl ?_
    unfold Hub.sweep
    split
    · exact (Hub.Happens.work p.hub (Vm.Work.sweep t.moment.vm.now _)).besides
    · exact .refl _

end Plane

end Fleet.Control
