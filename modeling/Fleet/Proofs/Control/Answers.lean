import Fleet.Proofs.Control.Turns
import Fleet.Proofs.Frame.Carried

/-!
What the control plane tells machines of their calls. Every response that it queues, and everything
it says of calls that were open when a connection broke, is an answer its router gave to a call of
the same user with the same id.
-/

namespace Fleet.Control

/-- A call that the router has answered, and the user on whose connection it came. -/
structure Answered where
  user : String
  call : Call
  outcome : Except Fault Json
  /-- Whether it came on a socket of those that are watched. -/
  own : Bool

/-- The call that a socket's next move answers. -/
def Socket.answered? (s : Socket) (own : Bool) (h : Hub) : Option Answered :=
  match s.stage, s.inbox with
  | .live k _, .text t :: _ =>
    h.connections.opened[k]?.bind fun c =>
      if c.closing then none
      else match Frame.parse t with
        | .ok (.request call) =>
          some ⟨c.userId, call, h.router.answer h.reports c.userId call.method call.params, own⟩
        | _ => none
  | _, _ => none

/-- The call that a turn answers. -/
def Plane.answered? (p : Plane) (links : List Nat) : Act → Option Answered
  | .move (.socket k) => p.sockets[k]?.bind fun s => s.answered? (links.contains k) p.hub
  | _ => none

/-- The reply is an answer that was given to a call of the user. -/
def Given (log : List Answered) (user : String) (r : Reply) : Prop :=
  ∃ a ∈ log, a.user = user ∧ r = .ofOutcome a.call.id a.outcome

/-- What may be told to a machine of a user, given the answers so far. -/
def Answers (log : List Answered) (user : String) : Frame → Prop
  | .response r => Given log user r
  | .resumeResponse results => ∀ r ∈ results, r.status = .completed → Given log user r.reply
  | _ => True

/-- An answer that is kept is one that was given. -/
def Logged (log : List Answered) (e : Kept) : Prop :=
  ∃ a ∈ log, a.user = e.userId ∧ a.call = e.call ∧ a.outcome = e.outcome

variable {log more : List Answered} {user : String} {f : Frame}

theorem Given.mono {r : Reply} (h : Given log user r) (hm : log ⊆ more) : Given more user r := by
  obtain ⟨a, ha, h⟩ := h
  exact ⟨a, hm ha, h⟩

theorem Answers.mono (h : Answers log user f) (hm : log ⊆ more) : Answers more user f := by
  cases f with
  | response r => exact Given.mono h hm
  | resumeResponse results => exact fun r hr hc => (h r hr hc).mono hm
  | _ => trivial

theorem Logged.mono {e : Kept} (h : Logged log e) (hm : log ⊆ more) : Logged more e := by
  obtain ⟨a, ha, h⟩ := h
  exact ⟨a, hm ha, h⟩

/-! ### Kept answers -/

theorem Kept.resumed_reply (k : Kept) : k.resumed.reply = .ofOutcome k.call.id k.outcome := by
  unfold Kept.resumed
  cases k.outcome <;> rfl

theorem Kept.resumed_requestId (k : Kept) : k.resumed.requestId = k.call.id := by
  unfold Kept.resumed
  cases k.outcome <;> rfl

namespace Resume

variable {c : Resume} {now : Nat} {call : Call} {outcome : Except Fault Json} {ids : List String}

theorem mem_prune {e : Kept} (h : e ∈ (c.prune now).entries) : e ∈ c.entries :=
  (List.dropWhile_sublist _).subset h

theorem mem_record {e : Kept} (h : e ∈ (c.record now user call outcome).entries) :
    e ∈ c.entries ∨ e = ⟨user, call, now, outcome⟩ := by
  rcases List.mem_append.mp (List.mem_of_mem_drop h) with h | h
  · exact .inl (mem_prune (List.mem_filter.mp h).1)
  · exact .inr (List.mem_singleton.mp h)

/-- A replay is of an answer that is kept for the user who asks, under the id that was asked for. -/
theorem resolve_completed {r : Resumed} (h : r ∈ (c.resolve now user ids).1)
    (hc : r.status = .completed) :
    ∃ e ∈ c.entries, e.userId = user ∧ r.requestId ∈ ids ∧
      r.reply = .ofOutcome e.call.id e.outcome := by
  obtain ⟨id, hid, rfl⟩ := List.mem_map.mp h
  revert hc
  cases hf : (c.prune now).find? user id with
  | none => exact fun hc => by cases hc
  | some e =>
    intro _
    have he := List.find?_some hf
    simp only [Kept.isFor, Bool.and_eq_true, beq_iff_eq] at he
    refine ⟨e, mem_prune (List.mem_of_find?_eq_some hf), he.1, ?_, e.resumed_reply⟩
    change e.resumed.requestId ∈ ids
    rw [e.resumed_requestId, he.2]
    exact hid

end Resume

/-! ### Connections -/

namespace Connections

/-- Connections stay, each with its user, and what is newly queued on them is fit for that user. -/
structure Leads (fit : String → Frame → Prop) (s t : Connections) : Prop where
  kept : ∀ (j : Nat) c, s.opened[j]? = some c → ∃ d, t.opened[j]? = some d ∧ d.userId = c.userId ∧
    ∀ f ∈ d.outbox, f ∈ c.outbox ∨ fit c.userId f
  fresh : ∀ (j : Nat) d, t.opened[j]? = some d → s.opened[j]? = none →
    ∀ f ∈ d.outbox, fit d.userId f

variable {fit : String → Frame → Prop} {s t u : Connections} {c d : Connection} {k : Nat}

theorem Leads.of_opened (h : t.opened = s.opened) : Leads fit s t :=
  ⟨fun j c hc => ⟨c, by rw [h]; exact hc, rfl, fun _ => .inl⟩, fun j d hd hn => by
    rw [h, hn] at hd
    cases hd⟩

theorem Leads.refl (s : Connections) : Leads fit s s := .of_opened rfl

theorem Leads.trans (h : Leads fit s t) (h' : Leads fit t u) : Leads fit s u := by
  refine ⟨fun j c hc => ?_, fun j e he hn f hfe => ?_⟩
  · obtain ⟨d, hd, hu, hf⟩ := h.kept j c hc
    obtain ⟨e, he, hu', hf'⟩ := h'.kept j d hd
    refine ⟨e, he, hu'.trans hu, fun f hfe => ?_⟩
    rcases hf' f hfe with hfd | hfit
    · exact hf f hfd
    · exact .inr (hu ▸ hfit)
  · cases ht : t.opened[j]? with
    | none => exact h'.fresh j e he ht f hfe
    | some d =>
      obtain ⟨e', he', hu, hf⟩ := h'.kept j d ht
      obtain rfl := Option.some.inj (he'.symm.trans he)
      rcases hf f hfe with hfd | hfit
      · exact hu ▸ h.fresh j d ht hn f hfd
      · exact hu ▸ hfit

/-- One connection is changed, which keeps its user and gains only what is fit. -/
theorem leads_change (s : Connections) (k : Nat) {g : Connection → Connection}
    (hg : ∀ c, s.opened[k]? = some c → (g c).userId = c.userId ∧
      ∀ f ∈ (g c).outbox, f ∈ c.outbox ∨ fit c.userId f) : Leads fit s (s.change k g) := by
  refine ⟨fun j c hc => ?_, fun j d hd hn => ?_⟩
  · by_cases hj : k = j
    · subst hj
      exact ⟨g c, by simp [change, hc], hg c hc⟩
    · exact ⟨c, by simp [change, hj, hc], rfl, fun _ => .inl⟩
  · have hlen : (s.change k g).opened[j]? = none := by
      rw [List.getElem?_eq_none_iff] at hn ⊢
      simpa [change] using hn
    rw [hlen] at hd
    cases hd

/-- A change to one connection that queues nothing. -/
theorem leads_keep {g : Connection → Connection} (ht : t.opened = s.opened.modify k g)
    (hg : ∀ c, (g c).userId = c.userId ∧ (g c).outbox ⊆ c.outbox) : Leads fit s t :=
  (leads_change s k fun c _ => ⟨(hg c).1, fun _ hf => .inl ((hg c).2 hf)⟩).trans (.of_opened ht)

theorem leads_connect (s : Connections) (id user org : String) :
    Leads fit s (s.connect id user org) := by
  refine ⟨fun j c hc => ⟨c, ?_, rfl, fun _ => .inl⟩, fun j d hd hn => ?_⟩
  · have hlt := (List.getElem?_eq_some_iff.mp hc).1
    simp [connect, hc, List.getElem?_append_left hlt]
  · have hd' := List.mem_of_getElem? hd
    rcases List.mem_append.mp hd' with hold | hnew
    · rw [List.getElem?_eq_none_iff] at hn
      rw [connect, List.getElem?_append_right hn] at hd
      obtain rfl := List.mem_singleton.mp (List.mem_of_getElem? hd)
      exact fun f hf => (List.not_mem_nil hf).elim
    · obtain rfl := List.mem_singleton.mp hnew
      exact fun f hf => (List.not_mem_nil hf).elim

theorem leads_send {f : Frame} (hs : s.send k f = .ok t)
    (hf : ∀ c, s.opened[k]? = some c → fit c.userId f) : Leads fit s t := by
  unfold send at hs
  split at hs
  · cases hs
  · rename_i c hc
    unfold Connection.push at hs
    split at hs
    · cases hs
      refine leads_change s k fun c' hc' => ?_
      obtain rfl := Option.some.inj (hc.symm.trans hc')
      refine ⟨rfl, fun x hx => ?_⟩
      rcases List.mem_append.mp hx with hx | hx
      · exact .inl hx
      · rw [List.mem_singleton.mp hx]
        exact .inr (hf c hc)
    · cases hs

theorem leads_call {request : Call} {timeoutMs now : Nat} (hs : s.call k request timeoutMs now = .ok t)
    (hf : ∀ user, fit user (.request request)) : Leads fit s t := by
  unfold call at hs
  cases hsend : s.send k (.request request) with
  | error e => simp [hsend, Except.map] at hs
  | ok u =>
    simp only [hsend, Except.map] at hs
    cases hs
    exact (leads_send hsend fun c _ => hf c.userId).trans
      (leads_keep rfl fun c => ⟨rfl, List.Subset.refl _⟩)

theorem leads_callUser {request : Call} {timeoutMs now : Nat}
    (hs : s.callUser user request timeoutMs now = .ok t) (hf : ∀ user, fit user (.request request)) :
    Leads fit s t := by
  unfold callUser at hs
  split at hs
  · cases hs
  · exact leads_call hs hf

theorem leads_resolve (s : Connections) (k : Nat) (r : Reply) : Leads fit s (s.resolve k r).2 := by
  unfold resolve
  split
  · exact .refl s
  · exact leads_keep rfl fun c => ⟨rfl, List.Subset.refl _⟩

theorem leads_failPending (s : Connections) (k : Nat) : Leads fit s (s.failPending k).2 := by
  unfold failPending
  split
  · exact .refl s
  · exact leads_keep rfl fun c => ⟨rfl, List.Subset.refl _⟩

theorem leads_close (s : Connections) (k : Nat) : Leads fit s (s.close k) :=
  leads_keep rfl fun _ => ⟨rfl, List.Subset.refl _⟩

theorem leads_register (s : Connections) (k : Nat) : Leads fit s (s.register k) := by
  unfold register
  split
  · exact .refl s
  · dsimp only
    split
    · exact .of_opened rfl
    · rename_i c _ _ previous _
      have ht : Leads fit s { s with
          current := (c.userId, k) :: s.current.filter fun u => u.1 ≠ c.userId } := .of_opened rfl
      exact (ht.trans (leads_failPending _ previous)).trans (leads_close _ previous)

theorem leads_unregister (s : Connections) (user id : String) :
    Leads fit s (s.unregister user id).2 := by
  unfold unregister
  split
  · exact .of_opened rfl
  · exact .refl s

theorem leads_expire (s : Connections) (n : Nat) : Leads fit s (s.expire n) := by
  unfold expire
  split
  · exact .refl s
  · split
    · exact leads_keep rfl fun c => ⟨rfl, List.Subset.refl _⟩
    · exact .refl s

end Connections

/-! ### Hubs and sockets -/

/-- Connections go on as they should, and what is kept is what was given. -/
structure Hub.Leads (log : List Answered) (h g : Hub) : Prop where
  connections : Connections.Leads (Answers log) h.connections g.connections
  kept : (∀ e ∈ h.resume.entries, Logged log e) → ∀ e ∈ g.resume.entries, Logged log e

variable {h g k : Hub} {c : Connection} {j : Nat}

theorem Hub.Leads.of_connections (hr : g.resume = h.resume)
    (hc : Connections.Leads (Answers log) h.connections g.connections) : h.Leads log g :=
  ⟨hc, by rw [hr]; exact fun h => h⟩

theorem Hub.Leads.of_eq (hr : g.resume = h.resume) (hc : g.connections = h.connections) :
    h.Leads log g := .of_connections hr (.of_opened (by rw [hc]))

theorem Hub.Leads.refl (h : Hub) : h.Leads log h := .of_eq rfl rfl

theorem Hub.Leads.trans (hg : h.Leads log g) (gk : g.Leads log k) : h.Leads log k :=
  ⟨hg.connections.trans gk.connections, fun hl => gk.kept (hg.kept hl)⟩

namespace Socket

variable {s s' : Socket} {m : Moment} {own : Bool}

theorem leads_push (hj : h.connections.opened[j]? = some c) (hf : Answers log c.userId f) :
    h.Leads log (push h j f) := by
  unfold push
  split
  · rename_i t ht
    refine .of_connections rfl (Connections.leads_send ht fun c' hc' => ?_)
    rw [hj, Option.some.injEq] at hc'
    exact hc' ▸ hf
  · exact .refl h

theorem leads_handle (hj : h.connections.opened[j]? = some c) (f : Frame)
    (hl : ∀ e ∈ h.resume.entries, Logged log e)
    (ha : ∀ call, f = .request call → (⟨c.userId, call,
      h.router.answer h.reports c.userId call.method call.params, own⟩ : Answered) ∈ log) :
    h.Leads log (handle m j c.userId h f) := by
  cases f with
  | request call =>
    have hgiven := ha call rfl
    let outcome := h.router.answer h.reports c.userId call.method call.params
    refine .trans (g := { h with resume := h.resume.record m.clock c.userId call outcome }) ?_ ?_
    · refine ⟨.refl _, fun hl e he => ?_⟩
      rcases Resume.mem_record he with he | rfl
      · exact hl e he
      · exact ⟨_, hgiven, rfl, rfl, rfl⟩
    · exact leads_push hj ⟨_, hgiven, rfl, rfl⟩
  | resume ids =>
    refine .trans (g := { h with resume := (h.resume.resolve m.clock c.userId ids).2 }) ?_ ?_
    · exact ⟨.refl _, fun hl e he => hl e (Resume.mem_prune he)⟩
    · refine leads_push hj fun r hr hc => ?_
      obtain ⟨e, he, hu, _, hreply⟩ := Resume.resolve_completed hr hc
      obtain ⟨a, ha, hau, hac, hao⟩ := hl e he
      exact ⟨a, ha, hau.trans hu, by rw [hreply, hac, hao]⟩
  | response reply => exact .of_connections rfl (Connections.leads_resolve _ _ _)
  | fireAndForget method payload =>
    simp only [handle]
    split <;> exact .of_eq rfl rfl
  | sessionEvent session event data =>
    simp only [handle]
    split
    · exact .of_eq rfl rfl
    · exact .refl h
  | heartbeat ts => exact .of_eq rfl rfl
  | _ => exact .refl h

theorem leads_leave (s : Socket) (j : Nat) (c : Connection) (ending : Ending) (h : Hub) :
    h.Leads log (s.leave j c ending h).2 := by
  refine .of_connections rfl ?_
  exact ((Connections.leads_unregister h.connections c.userId c.id).trans
    (Connections.leads_failPending _ j)).trans (Connections.leads_close _ j)

/-- A socket speaks for a user, as far as it has come. -/
def Stage.IsOf (user : String) (h : Hub) : Stage → Prop
  | .admitting c => c.userId = user
  | .greeting j | .live j _ | .leaving j _ _ =>
    ∃ c, h.connections.opened[j]? = some c ∧ c.userId = user
  | _ => True

/-- A socket on which only fit frames come speaks for a user, or will once it is admitted. -/
structure IsOf (fit : Frame → Prop) (user : String) (h : Hub) (s : Socket) : Prop where
  stage : s.stage.IsOf user h
  inbox : ∀ t f, .text t ∈ s.inbox → Frame.parse t = .ok f → fit f

/-- Whoever is told apart by fit frames is the user. -/
def Tells (fit : Frame → Prop) (user : String) : Prop := ∀ c, fit (.auth c) → c.userId = user

theorem Stage.IsOf.leads {stage : Stage} (h' : h.Leads log g) (hs : stage.IsOf user h) :
    stage.IsOf user g := by
  have keep {j : Nat} : (∃ c, h.connections.opened[j]? = some c ∧ c.userId = user) →
      ∃ c, g.connections.opened[j]? = some c ∧ c.userId = user := by
    rintro ⟨c, hc, hu⟩
    obtain ⟨d, hd, hdu, _⟩ := h'.connections.kept j c hc
    exact ⟨d, hd, hdu.trans hu⟩
  cases stage with
  | greeting j => exact keep hs
  | live j deadline => exact keep hs
  | leaving j current ending => exact keep hs
  | _ => exact hs

/-- What a socket's move does to the socket and to what the machines are told. -/
structure Goes (log : List Answered) (s : Socket) (h : Hub) (s' : Socket) (h' : Hub) : Prop where
  hub : h.Leads log h'
  inbox : s'.inbox ⊆ s.inbox
  written : ∀ f ∈ s'.written, f ∈ s.written ∨ ∃ e, f = .error e
  stage : ∀ fit user, Tells fit user → s.IsOf fit user h → s'.stage.IsOf user h'

variable {fit : Frame → Prop}

theorem Goes.isOf (hg : Goes log s h s' g) (ht : Tells fit user) (hs : s.IsOf fit user h) :
    s'.IsOf fit user g :=
  ⟨hg.stage fit user ht hs, fun t f hm => hs.inbox t f (hg.inbox hm)⟩

theorem IsOf.leads (hs : s.IsOf fit user h) (hg : h.Leads log g) : s.IsOf fit user g :=
  ⟨hs.stage.leads hg, hs.inbox⟩

/-- What was answered, by which router, on which connection. -/
theorem answered_cases {a : Answered} (ha : s.answered? own h = some a) :
    a.own = own ∧ h.router.answer h.reports a.user a.call.method a.call.params = a.outcome := by
  unfold answered? at ha
  split at ha
  · obtain ⟨c, _, ha⟩ := Option.bind_eq_some_iff.mp ha
    split at ha
    · cases ha
    · split at ha
      · cases ha
        exact ⟨rfl, rfl⟩
      · cases ha
  · cases ha

/-- An answer on a socket of a user is an answer to a fit call of that user. -/
theorem IsOf.answered {a : Answered} (hs : s.IsOf fit user h) (ha : s.answered? own h = some a) :
    a.user = user ∧ fit (.request a.call) := by
  have hstage := hs.stage
  unfold answered? at ha
  split at ha
  · rename_i k deadline t rest hst hi
    obtain ⟨c, hc, ha⟩ := Option.bind_eq_some_iff.mp ha
    rw [hst] at hstage
    obtain ⟨d, hd, hu⟩ := hstage
    obtain rfl := Option.some.inj (hc.symm.trans hd)
    split at ha
    · cases ha
    · split at ha
      · rename_i call hp
        cases ha
        exact ⟨hu, hs.inbox t _ (by simp [hi]) hp⟩
      · cases ha
  · cases ha

theorem goes_reject (e : Error) (rest : List Arrival) (hr : rest ⊆ s.inbox) (hg : h.Leads log g) :
    Goes log s h ({ s with inbox := rest }.reject e) g := by
  refine ⟨hg, hr, fun f hf => ?_, fun _ _ _ _ => trivial⟩
  rcases List.mem_append.mp hf with hf | hf
  · exact .inl hf
  · exact .inr ⟨e.fault, List.mem_singleton.mp hf⟩

theorem goes_expect {t : String} {rest : List Arrival} (hi : s.inbox = .text t :: rest) (h : Hub) :
    Goes log s h ({ s with inbox := rest }.expect t) h := by
  have hr : rest ⊆ s.inbox := hi ▸ List.subset_cons_self _ _
  unfold expect
  split
  · exact goes_reject _ rest hr (.refl h)
  · rename_i c hc
    refine ⟨.refl h, hr, fun f hf => .inl hf, fun fit user ht hs => ?_⟩
    exact ht c (hs.inbox t _ (by simp [hi]) hc)
  · exact goes_reject _ rest hr (.refl h)

theorem authenticate_eq (h : Hub) (m : Moment) (c : Credentials) :
    (h.authenticate m c).2.resume = h.resume ∧ (h.authenticate m c).2.connections = h.connections := by
  unfold Hub.authenticate
  split
  · exact ⟨rfl, rfl⟩
  · dsimp only
    split <;> exact ⟨rfl, rfl⟩

/-- A machine is admitted on a connection of the user it said it belongs to. -/
theorem goes_enrol (s : Socket) (m : Moment) (c : Credentials) (hs : s.stage = .admitting c)
    (h : Hub) : Goes log s h (s.enrol m c h).1 (s.enrol m c h).2 := by
  obtain ⟨hr, hc⟩ := authenticate_eq h m c
  unfold enrol
  split
  · rename_i e g hg
    rw [hg] at hr hc
    exact goes_reject e s.inbox (List.Subset.refl _) (.of_eq hr hc)
  · rename_i g hg
    rw [hg] at hr hc
    let connected := g.connections.connect ("conn-" ++ m.fresh) c.userId c.orgId
    let registered := connected.register g.connections.opened.length
    have hconnect : Connections.Leads (Answers log) g.connections connected :=
      Connections.leads_connect _ _ _ _
    have hregister : Connections.Leads (Answers log) connected registered :=
      Connections.leads_register _ _
    refine ⟨.of_connections hr ?_, List.Subset.refl _, fun f hf => .inl hf, fun _ user _ hu => ?_⟩
    · rw [← hc]
      exact hconnect.trans hregister
    · obtain ⟨d, hd, hdu, _⟩ := hregister.kept g.connections.opened.length _
        (by simp [connected, Connections.connect]; rfl)
      have huser := hu.stage
      rw [hs] at huser
      exact ⟨d, hd, hdu.trans huser⟩

theorem goes_greet (s : Socket) (m : Moment) (hs : s.stage = .greeting j)
    (hj : h.connections.opened[j]? = some c) :
    Goes log s h (s.greet m j c h).1 (s.greet m j c h).2 := by
  have hp : h.Leads log (h.perform (Vm.Work.markConnected m.vm.now c.userId)).2 := .of_eq rfl rfl
  have hg : h.Leads log (s.greet m j c h).2 := hp.trans (leads_push (c := c) hj trivial)
  refine ⟨hg, List.Subset.refl _, fun f hf => .inl hf, fun _ user _ hu => ?_⟩
  have := hu.stage
  rw [hs] at this
  exact Stage.IsOf.leads hg (show (Stage.greeting j).IsOf user h from this)

theorem goes_leave (rest : List Arrival) (hr : rest ⊆ s.inbox) {deadline : Nat}
    (hs : s.stage = .live j deadline) (c : Connection) (ending : Ending) (h : Hub) :
    Goes log s h ({ s with inbox := rest }.leave j c ending h).1
      ({ s with inbox := rest }.leave j c ending h).2 := by
  have hg : h.Leads log ({ s with inbox := rest }.leave j c ending h).2 := leads_leave _ j c ending h
  refine ⟨hg, hr, fun f hf => .inl hf, fun _ user _ hu => ?_⟩
  have := hu.stage
  rw [hs] at this
  exact Stage.IsOf.leads hg (show (Stage.greeting j).IsOf user h from this)

theorem goes_hear {t : String} {rest : List Arrival} (hi : s.inbox = .text t :: rest)
    {deadline : Nat} (hs : s.stage = .live j deadline)
    (hj : h.connections.opened[j]? = some c) (hc : c.closing = false)
    (hl : ∀ e ∈ h.resume.entries, Logged log e)
    (ha : ∀ a, s.answered? own h = some a → a ∈ log) :
    Goes log s h ({ s with inbox := rest }.hear m j deadline c.userId t h).1
      ({ s with inbox := rest }.hear m j deadline c.userId t h).2 := by
  have hr : rest ⊆ s.inbox := hi ▸ List.subset_cons_self _ _
  have stage {g : Hub} {d : Nat} (hg : h.Leads log g) (fit : Frame → Prop) (user : String)
      (_ : Tells fit user) (hu : s.IsOf fit user h) : (Stage.live j d).IsOf user g := by
    have := hu.stage
    rw [hs] at this
    exact Stage.IsOf.leads hg (show (Stage.greeting j).IsOf user h from this)
  unfold hear
  split
  · refine ⟨.refl h, hr, fun f hf => .inl hf, fun _ user _ hu => ?_⟩
    change s.stage.IsOf user h
    exact hu.stage
  · rename_i f hf
    have hg : h.Leads log (handle m j c.userId h f) := by
      refine leads_handle hj f hl fun call hcall => ha ⟨_, _, _, own⟩ ?_
      subst hcall
      simp [answered?, hs, hi, hj, hc, hf]
    exact ⟨hg, hr, fun f hf => .inl hf, stage hg⟩

/-- A message that is passed over. -/
theorem goes_skip {rest : List Arrival} (hr : rest ⊆ s.inbox) (h : Hub) :
    Goes log s h { s with inbox := rest } h :=
  ⟨.refl h, hr, fun _ hf => .inl hf, fun _ _ _ hu => hu.stage⟩

theorem goes_end (stage : Stage) (hs : ∀ user, stage.IsOf user g) (hg : h.Leads log g)
    (shut : Bool) : Goes log s h { s with stage := stage, shut := shut } g :=
  ⟨hg, List.Subset.refl _, fun _ hf => .inl hf, fun _ user _ _ => hs user⟩

theorem Goes.of_some {x : Socket × Hub} (hx : Goes log s h x.1 x.2) (he : some x = some (s', g)) :
    Goes log s h s' g := by
  rw [Option.some.injEq] at he
  rw [he] at hx
  exact hx

theorem goes_attend {deadline : Nat} (hs : s.stage = .live j deadline)
    (hj : h.connections.opened[j]? = some c) (hn : s.attend m j deadline c h = some (s', g))
    (hl : ∀ e ∈ h.resume.entries, Logged log e)
    (ha : ∀ a, s.answered? own h = some a → a ∈ log) : Goes log s h s' g := by
  unfold attend at hn
  by_cases hc : c.closing = true
  · rw [if_pos hc] at hn
    exact Goes.of_some (goes_leave s.inbox (List.Subset.refl _) hs c .clean h) hn
  rw [if_neg hc] at hn
  cases hi : s.inbox with
  | nil =>
    simp only [hi] at hn
    split at hn
    · exact Goes.of_some (goes_leave s.inbox (List.Subset.refl _) hs c .timeout h) hn
    · cases hn
  | cons x rest =>
    have hr : rest ⊆ s.inbox := hi ▸ List.subset_cons_self _ _
    cases x with
    | text t =>
      simp only [hi] at hn
      exact Goes.of_some (goes_hear hi hs hj (Bool.eq_false_iff.mpr hc) hl ha) hn
    | other =>
      simp only [hi] at hn
      exact Goes.of_some (x := ({ s with inbox := rest }, h)) (goes_skip hr h) hn
    | close =>
      simp only [hi] at hn
      exact Goes.of_some (goes_leave s.inbox (List.Subset.refl _) hs c .clean h) hn
    | lost =>
      simp only [hi] at hn
      exact Goes.of_some (goes_leave s.inbox (List.Subset.refl _) hs c .clean h) hn

/-- What a move of a socket does, where the call that it answers is among those answered. -/
theorem goes_next (hn : s.next m h = some (s', g)) (hl : ∀ e ∈ h.resume.entries, Logged log e)
    (ha : ∀ a, s.answered? own h = some a → a ∈ log) : Goes log s h s' g := by
  unfold next at hn
  cases hs : s.stage with
  | expecting deadline =>
    simp only [hs] at hn
    cases hi : s.inbox with
    | nil =>
      simp only [hi] at hn
      split at hn
      · exact Goes.of_some (x := (s.reject noCredentials, h))
          (goes_reject _ s.inbox (List.Subset.refl _) (.refl h)) hn
      · cases hn
    | cons x rest =>
      have hr : rest ⊆ s.inbox := hi ▸ List.subset_cons_self _ _
      cases x with
      | text t =>
        simp only [hi] at hn
        exact Goes.of_some (x := ({ s with inbox := rest }.expect t, h)) (goes_expect hi h) hn
      | other =>
        simp only [hi] at hn
        exact Goes.of_some (x := ({ s with inbox := rest }, h)) (goes_skip hr h) (by rw [hs]; exact hn)
      | close =>
        simp only [hi] at hn
        exact Goes.of_some (x := (s.forsake, h))
          (goes_end (.ended .rejected) (fun _ => trivial) (.refl h) true) hn
      | lost =>
        simp only [hi] at hn
        exact Goes.of_some (x := (s.forsake, h))
          (goes_end (.ended .rejected) (fun _ => trivial) (.refl h) true) hn
  | admitting c =>
    simp only [hs] at hn
    exact Goes.of_some (goes_enrol s m c hs h) hn
  | greeting j =>
    simp only [hs] at hn
    obtain ⟨c, hj, hn⟩ := Option.map_eq_some_iff.mp hn
    exact Goes.of_some (goes_greet s m hs hj) (congrArg some hn)
  | live j deadline =>
    simp only [hs] at hn
    obtain ⟨c, hj, hn⟩ := Option.bind_eq_some_iff.mp hn
    exact goes_attend hs hj hn hl ha
  | leaving j current ending =>
    simp only [hs] at hn
    obtain ⟨c, _, hn⟩ := Option.bind_eq_some_iff.mp hn
    split at hn
    · refine Goes.of_some (x := ({ s with stage := .ended ending }, _)) ?_ hn
      refine goes_end (.ended ending) (fun _ => trivial) ?_ s.shut
      split
      · exact .of_eq rfl rfl
      · exact .refl h
    · cases hn
  | ended ending =>
    simp only [hs] at hn
    cases hn

/-- The writer writes what was queued on the socket's connection. -/
theorem write_cases (hn : s.write h = some (s', g)) :
    h.Leads log g ∧ s'.inbox = s.inbox ∧ s'.stage = s.stage ∧
      ∀ f ∈ s'.written, f ∈ s.written ∨
        ∃ j c, s.connection? = some j ∧ h.connections.opened[j]? = some c ∧ f ∈ c.outbox := by
  unfold write at hn
  split at hn
  · cases hn
  · obtain ⟨j, hj, hn⟩ := Option.bind_eq_some_iff.mp hn
    obtain ⟨c, hc, hn⟩ := Option.bind_eq_some_iff.mp hn
    split at hn
    · rename_i f rest hout
      cases hn
      refine ⟨.of_connections rfl (Connections.leads_change _ _ fun d hd => ⟨rfl, fun x hx => ?_⟩),
        rfl, rfl, fun x hx => ?_⟩
      · rw [hc, Option.some.injEq] at hd
        subst hd
        exact .inl (hout ▸ List.mem_cons_of_mem f hx)
      · rcases List.mem_append.mp hx with hx | hx
        · exact .inl hx
        · rw [List.mem_singleton.mp hx]
          exact .inr ⟨j, c, hj, hc, hout ▸ List.mem_cons_self⟩
    · split at hn
      · cases hn
        exact ⟨.of_connections rfl (Connections.leads_keep rfl fun _ => ⟨rfl, List.nil_subset _⟩),
          rfl, rfl, fun x hx => .inl hx⟩
      · cases hn

end Socket

end Fleet.Control
