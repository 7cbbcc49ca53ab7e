import Fleet.Machine.Client
import Fleet.Proofs.Frame.Carried

/-!
The calls of a client. They stay in their order with what they ask, a call that has ended keeps its
outcome, and what a call ends with is what the client heard of it or that its time was up.
-/

namespace Fleet.Machine

/-- One thing that happens to a client. -/
inductive Act where
  | request (call : Call) (now : Nat)
  | expire (n : Nat)
  | report (method : String) (payload : Json)
  | tell (session : String) (e : Event)
  | answer (id : String) (outcome : Except Fault Json)
  | dialed (now : Nat) (reached : Except String Unit)
  | next (now : Nat) (wall : Int)
  | write
  | lose
  | stop

namespace Client

/-- What cannot be done now is not done. -/
def take (c : Client) : Act → Client
  | .request call now => c.request call now
  | .expire n => c.expire n
  | .report method payload => (c.report method payload).toOption.getD c
  | .tell session e => (c.tell session e).toOption.getD c
  | .answer id outcome => c.answer id outcome
  | .dialed now reached => c.dialed now reached
  | .next now wall => (c.next now wall).getD c
  | .write => c.write.getD c
  | .lose => c.lose
  | .stop => { c with stopping := true }

/-- The frames that go out to the control plane with it. -/
def posts (c : Client) : Act → List Frame
  | .dialed _ (.ok ()) =>
    match c.stage with
    | .dialing _ => [.auth c.credentials]
    | _ => []
  | .write => c.queue.take 1
  | _ => []

def arrive (c : Client) (x : Arrival) : Client := { c with inbox := c.inbox ++ [x] }

/-- A frame that a client may queue: a request is one of its calls. -/
def Sends (c : Client) : Frame → Prop
  | .request call => ∃ o ∈ c.outgoing, o.call = call
  | .auth _ => False
  | _ => True

/-- Calls are where they were, those that ended as they ended. -/
structure Onward (c d : Client) : Prop where
  settings : d.settings = c.settings
  calls : ∀ (n : Nat) o, c.outgoing[n]? = some o → ∃ o', d.outgoing[n]? = some o' ∧ o'.call = o.call ∧
    ∀ x, o.outcome? = some x → o'.outcome? = some x

/-- Nothing happens to the calls. -/
structure Steady (c d : Client) : Prop where
  settings : d.settings = c.settings
  outgoing : d.outgoing = c.outgoing
  pending : d.pending = c.pending
  inbox : d.inbox ⊆ c.inbox
  queue : ∀ f ∈ d.queue, f ∈ c.queue ∨ c.Sends f

/-- What a frame says of calls is right. -/
def Heard (just : String → Except Error Json → Prop) : Frame → Prop
  | .response r => just r.id r.outcome
  | .resumeResponse results =>
    ∀ r ∈ results, r.status = .completed → just r.requestId r.reply.outcome
  | _ => True

/-- Whatever the client knows of its calls is right. -/
structure Sound (just : String → Except Error Json → Prop) (c : Client) : Prop where
  pending : ∀ q ∈ c.pending, ∃ o, c.outgoing[q.2]? = some o ∧ o.call.id = q.1
  queue : ∀ f ∈ c.queue, c.Sends f
  inbox : ∀ t f, .text t ∈ c.inbox → Frame.parse t = .ok f → Heard just f
  ended : ∀ o ∈ c.outgoing, ∀ x, o.outcome? = some x → just o.call.id x

variable {c d e : Client} {just : String → Except Error Json → Prop} {f : Frame}

theorem Onward.refl (c : Client) : c.Onward c := ⟨rfl, fun _ o ho => ⟨o, ho, rfl, fun _ => id⟩⟩

theorem Onward.trans (h : c.Onward d) (h' : d.Onward e) : c.Onward e := by
  refine ⟨h'.settings.trans h.settings, fun n o ho => ?_⟩
  obtain ⟨o₁, h₁, hc₁, hx₁⟩ := h.calls n o ho
  obtain ⟨o₂, h₂, hc₂, hx₂⟩ := h'.calls n o₁ h₁
  exact ⟨o₂, h₂, hc₂.trans hc₁, fun x hx => hx₂ x (hx₁ x hx)⟩

theorem Onward.mem (h : c.Onward d) {o : Outgoing} (ho : o ∈ c.outgoing) :
    ∃ o' ∈ d.outgoing, o'.call = o.call := by
  obtain ⟨n, hn⟩ := List.getElem?_of_mem ho
  obtain ⟨o', hn', hcall, _⟩ := h.calls n o hn
  exact ⟨o', List.mem_of_getElem? hn', hcall⟩

theorem Onward.credentials (h : c.Onward d) : d.credentials = c.credentials := by
  unfold Client.credentials
  rw [h.settings]

theorem Onward.sends (h : c.Onward d) (hf : c.Sends f) : d.Sends f := by
  cases f with
  | request call =>
    obtain ⟨o, ho, hc⟩ := hf
    obtain ⟨o', ho', hc'⟩ := h.mem ho
    exact ⟨o', ho', hc'.trans hc⟩
  | auth body => exact hf
  | _ => trivial

theorem Steady.refl (c : Client) : c.Steady c :=
  ⟨rfl, rfl, rfl, List.Subset.refl _, fun _ => .inl⟩

theorem Steady.onward (h : c.Steady d) : c.Onward d :=
  ⟨h.settings, fun n o ho => ⟨o, by rw [h.outgoing]; exact ho, rfl, fun _ => id⟩⟩

theorem Steady.trans (h : c.Steady d) (h' : d.Steady e) : c.Steady e := by
  refine ⟨h'.settings.trans h.settings, h'.outgoing.trans h.outgoing, h'.pending.trans h.pending,
    fun _ hx => h.inbox (h'.inbox hx), fun f hf => ?_⟩
  rcases h'.queue f hf with hf | hf
  · exact h.queue f hf
  · refine .inr ?_
    cases f with
    | request call => simpa only [Sends, h.outgoing] using hf
    | auth body => exact hf
    | _ => trivial

theorem Sound.steady (hs : c.Sound just) (h : c.Steady d) : d.Sound just := by
  refine ⟨?_, fun f hf => ?_, fun t f ht => hs.inbox t f (h.inbox ht), ?_⟩
  · rw [h.pending, h.outgoing]
    exact hs.pending
  · rcases h.queue f hf with hf | hf
    · exact h.onward.sends (hs.queue f hf)
    · exact h.onward.sends hf
  · rw [h.outgoing]
    exact hs.ended

theorem Sound.mono {just' : String → Except Error Json → Prop} (h : c.Sound just)
    (hj : ∀ id x, just id x → just' id x) : c.Sound just' := by
  refine ⟨h.pending, h.queue, fun text f ht hf => ?_, fun o ho x hx => hj _ _ (h.ended o ho x hx)⟩
  have hheard := h.inbox text f ht hf
  cases f with
  | response r => exact hj _ _ hheard
  | resumeResponse rs => exact fun r hr hst => hj _ _ (hheard r hr hst)
  | _ => trivial

/-! ### Calls begin and end -/

theorem steady_send (hf : c.Sends f) (h : c.send f = some d) : c.Steady d := by
  unfold send at h
  split at h
  · cases h
    refine ⟨rfl, rfl, rfl, List.Subset.refl _, fun x hx => ?_⟩
    rcases List.mem_append.mp hx with hx | hx
    · exact .inl hx
    · exact .inr (List.mem_singleton.mp hx ▸ hf)
  · cases h

theorem steady_trySend (hf : c.Sends f) : c.Steady ((c.send f).getD c) := by
  cases h : c.send f with
  | none => exact .refl c
  | some d => exact steady_send hf h

theorem onward_enter (c : Client) (call : Call) (now : Nat) : c.Onward (c.enter call now) := by
  refine ⟨rfl, fun n o ho => ⟨o, ?_, rfl, fun _ => id⟩⟩
  rw [enter, List.getElem?_append_left (List.getElem?_eq_some_iff.mp ho).1, ho]

theorem Sound.enter (hs : c.Sound just) (call : Call) (now : Nat) :
    (c.enter call now).Sound just := by
  have hon := c.onward_enter call now
  refine ⟨fun q hq => ?_, fun f hf => hon.sends (hs.queue f hf), hs.inbox, fun o ho x hx => ?_⟩
  · rcases List.mem_append.mp hq with hq | hq
    · obtain ⟨o, ho, hid⟩ := hs.pending q hq
      obtain ⟨o', ho', hc, _⟩ := hon.calls q.2 o ho
      exact ⟨o', ho', by rw [hc, hid]⟩
    · rw [List.mem_singleton.mp hq]
      exact ⟨{ call, deadline := now + c.settings.requestTimeout }, by simp [Client.enter], rfl⟩
  · rcases List.mem_append.mp ho with ho | ho
    · exact hs.ended o ho x hx
    · rw [List.mem_singleton.mp ho] at hx
      cases hx

/-- One call gets an outcome, unless it has one. -/
theorem onward_finish (hset : d.settings = c.settings) {n : Nat} {x : Outgoing → Except Error Json}
    (hd : d.outgoing = c.outgoing.modify n fun o => o.finish (x o)) : c.Onward d := by
  refine ⟨hset, fun m o ho => ?_⟩
  by_cases hm : n = m
  · subst hm
    refine ⟨o.finish (x o), by simp [hd, ho], ?_, fun y hy => ?_⟩
    · unfold Outgoing.finish
      split <;> rfl
    · unfold Outgoing.finish
      split
      · rename_i hw
        simp [Outgoing.outcome?, hw] at hy
      · exact hy
  · exact ⟨o, by simp [hd, hm, ho], rfl, fun _ => id⟩

/-- What a call ends with has to be right for its id. -/
theorem Sound.finish (hs : c.Sound just) {n : Nat} {x : Outgoing → Except Error Json}
    (hset : d.settings = c.settings)
    (hd : d.outgoing = c.outgoing.modify n fun o => o.finish (x o)) (hp : d.pending ⊆ c.pending)
    (hq : d.queue = c.queue) (hi : d.inbox = c.inbox)
    (hj : ∀ o, c.outgoing[n]? = some o → just o.call.id (x o)) : d.Sound just := by
  have hon := onward_finish hset hd
  refine ⟨fun q hq => ?_, fun f hf => hon.sends (hs.queue f (hq ▸ hf)), hi ▸ hs.inbox,
    fun o ho y hy => ?_⟩
  · obtain ⟨o, ho, hid⟩ := hs.pending q (hp hq)
    obtain ⟨o', ho', hc, _⟩ := hon.calls q.2 o ho
    exact ⟨o', ho', by rw [hc, hid]⟩
  · obtain ⟨m, hm⟩ := List.getElem?_of_mem ho
    rw [hd, List.getElem?_modify] at hm
    obtain ⟨o₀, ho₀, he⟩ := Option.map_eq_some_iff.mp hm
    have hold := hs.ended o₀ (List.mem_of_getElem? ho₀)
    split at he
    · rename_i hnm
      subst hnm he
      cases hst : o₀.state with
      | waiting =>
        simp only [Outgoing.finish, hst, Outgoing.outcome?, Option.some.injEq] at hy ⊢
        rw [← hy]
        exact hj o₀ ho₀
      | ended z =>
        simp only [Outgoing.finish, hst] at hy ⊢
        exact hold y hy
    · subst he
      exact hold y hy

/-- What an operation leaves of the client. -/
structure Keeps (just : String → Except Error Json → Prop) (c d : Client) : Prop where
  onward : c.Onward d
  sound : c.Sound just → d.Sound just

theorem Keeps.refl (c : Client) : Keeps just c c := ⟨.refl c, id⟩

theorem Keeps.trans (h : Keeps just c d) (h' : Keeps just d e) : Keeps just c e :=
  ⟨h.onward.trans h'.onward, fun hs => h'.sound (h.sound hs)⟩

theorem Steady.keeps (h : c.Steady d) : Keeps just c d := ⟨h.onward, fun hs => hs.steady h⟩

theorem lookup_mem {ps : List (String × Nat)} {id : String} {n : Nat}
    (h : ps.lookup id = some n) : (id, n) ∈ ps := by
  induction ps with
  | nil => cases h
  | cons q rest ih =>
    obtain ⟨k, m⟩ := q
    rw [List.lookup_cons] at h
    split at h
    · rename_i he
      cases h
      rw [beq_iff_eq.mp he]
      exact List.mem_cons_self
    · exact List.mem_cons_of_mem _ (ih h)

/-- A call that waits under an id is a call with that id. -/
theorem Sound.waiting (hs : c.Sound just) {id : String} {n : Nat} {o : Outgoing}
    (h : c.pending.lookup id = some n) (ho : c.outgoing[n]? = some o) : o.call.id = id := by
  obtain ⟨o', ho', hid⟩ := hs.pending _ (lookup_mem h)
  obtain rfl := Option.some.inj (ho'.symm.trans ho)
  exact hid

theorem keeps_complete (c : Client) (r : Reply) (hj : just r.id r.outcome) :
    Keeps just c (c.complete r) := by
  unfold complete
  split
  · exact .refl c
  · rename_i n hn
    refine ⟨onward_finish (x := fun _ => r.outcome) rfl rfl, fun hs => ?_⟩
    refine hs.finish (x := fun _ => r.outcome) rfl rfl (List.filter_subset_self _) rfl rfl
      fun o ho => ?_
    rw [hs.waiting hn ho]
    exact hj

theorem keeps_expire (c : Client) (n : Nat)
    (late : ∀ id text, just id (.error (.timeout text))) : Keeps just c (c.expire n) := by
  unfold expire
  split
  · exact .refl c
  · rename_i o ho
    split
    · let x (o : Outgoing) : Except Error Json := .error (o.late c.settings.requestTimeout)
      exact ⟨onward_finish (x := x) rfl rfl, fun hs => hs.finish (x := x) rfl rfl
        (List.filter_subset_self _) rfl rfl fun _ _ => late _ _⟩
    · exact .refl c

theorem keeps_request (c : Client) (call : Call) (now : Nat) :
    Keeps just c (c.request call now) := by
  have henter : Keeps just c (c.enter call now) :=
    ⟨c.onward_enter call now, fun hs => hs.enter call now⟩
  refine henter.trans (Steady.keeps (steady_trySend ?_))
  exact ⟨{ call, deadline := now + c.settings.requestTimeout }, by simp [enter], rfl⟩

theorem steady_resend (c : Client) (id : String) : c.Steady (c.resend id) := by
  unfold resend
  cases h : c.waiting? id with
  | none => exact .refl c
  | some call =>
    obtain ⟨n, _, hn⟩ := Option.bind_eq_some_iff.mp h
    obtain ⟨o, ho, rfl⟩ := Option.map_eq_some_iff.mp hn
    exact steady_trySend ⟨o, List.mem_of_getElem? ho, rfl⟩

theorem keeps_reconcile (c : Client) (r : Resumed)
    (hj : r.status = .completed → just r.requestId r.reply.outcome) :
    Keeps just c (c.reconcile r) := by
  unfold reconcile
  split
  · rename_i hs
    exact c.keeps_complete _ (hj hs)
  · exact (c.steady_resend r.requestId).keeps

theorem keeps_handle (c : Client) (f : Frame) (hf : Heard just f) : Keeps just c (c.handle f) := by
  cases f with
  | response r => exact c.keeps_complete r hf
  | resumeResponse results =>
    change Keeps just c (results.foldl reconcile c)
    induction results generalizing c with
    | nil => exact .refl c
    | cons r rest ih =>
      exact (c.keeps_reconcile r (hf r List.mem_cons_self)).trans
        (ih _ fun q hq => hf q (List.mem_cons_of_mem _ hq))
  | request call => exact Steady.keeps ⟨rfl, rfl, rfl, List.Subset.refl _, fun _ => .inl⟩
  | _ => exact .refl c

/-! ### Attempts -/

theorem steady_finish (c : Client) (since now : Nat) (ending : AttemptEnd) :
    c.Steady (c.finish since now ending) := by
  unfold finish
  dsimp only
  split <;> exact ⟨rfl, rfl, rfl, List.nil_subset _, fun _ hf => (List.not_mem_nil hf).elim⟩

theorem steady_welcome (c : Client) (since now : Nat) (w : Welcome) :
    c.Steady (c.welcome since now w) := by
  have hconnect : c.Steady (c.connect since now w) :=
    ⟨rfl, rfl, rfl, List.Subset.refl _, fun _ => .inl⟩
  refine hconnect.trans ?_
  unfold welcome announce
  split
  · exact .refl _
  · exact steady_trySend trivial

theorem steady_expect (c : Client) (since now : Nat) (text : String) :
    c.Steady (c.expect since now text) := by
  unfold expect
  split
  · exact c.steady_finish _ _ _
  · exact c.steady_welcome _ _ _
  · exact c.steady_finish _ _ _
  · exact .refl c

theorem steady_drop (c : Client) {rest : List Arrival} (hr : rest ⊆ c.inbox) :
    c.Steady { c with inbox := rest } := ⟨rfl, rfl, rfl, hr, fun _ => .inl⟩

theorem steady_leave (c : Client) (since : Nat) (ending : AttemptEnd) :
    c.Steady (c.leave since ending) := ⟨rfl, rfl, rfl, List.Subset.refl _, fun _ => .inl⟩

theorem keeps_hear (c : Client) (text : String)
    (hf : ∀ f, Frame.parse text = .ok f → Heard just f) : Keeps just c (c.hear text) := by
  unfold hear
  split
  · exact c.keeps_handle _ (hf _ ‹_›)
  · exact .refl c

/-- A client that moves on what it has heard keeps its calls as they should be. -/
theorem keeps_next (hs : c.Sound just) (now : Nat) (wall : Int) (h : c.next now wall = some d) :
    Keeps just c d := by
  unfold next at h
  split at h
  · cases h
  · cases h
  · split at h
    · rename_i t rest hi
      cases h
      have hr : rest ⊆ c.inbox := hi ▸ List.subset_cons_self _ _
      exact ((steady_drop c hr).trans (steady_expect _ _ _ _)).keeps
    · rename_i rest hi
      cases h
      exact (steady_drop c (hi ▸ List.subset_cons_self _ _)).keeps
    · cases h
      exact (c.steady_finish _ _ _).keeps
    · cases h
      exact (c.steady_finish _ _ _).keeps
    · split at h
      · cases h
        exact (c.steady_finish _ _ _).keeps
      · cases h
  · split at h
    · cases h
      exact (c.steady_leave _ _).keeps
    · split at h
      · rename_i t rest hi
        cases h
        have hr : rest ⊆ c.inbox := hi ▸ List.subset_cons_self _ _
        exact (steady_drop c hr).keeps.trans
          (keeps_hear _ t fun f hf => hs.inbox t f (by simp [hi]) hf)
      · rename_i rest hi
        cases h
        exact (steady_drop c (hi ▸ List.subset_cons_self _ _)).keeps
      · cases h
        exact (c.steady_leave _ _).keeps
      · cases h
        exact (c.steady_leave _ _).keeps
      · split at h
        · cases h
          refine (Steady.trans ?_ (steady_trySend (f := .heartbeat (some wall)) trivial)).keeps
          exact ⟨rfl, rfl, rfl, List.Subset.refl _, fun _ => .inl⟩
        · cases h
  · split at h
    · cases h
      exact (c.steady_finish _ _ _).keeps
    · cases h
  · split at h
    · cases h
      exact Steady.keeps ⟨rfl, rfl, rfl, List.Subset.refl _, fun _ => .inl⟩
    · split at h
      · cases h
        exact Steady.keeps ⟨rfl, rfl, rfl, List.Subset.refl _, fun _ => .inl⟩
      · cases h

theorem steady_sendNow (hf : c.Sends f) : c.Steady ((c.sendNow f).toOption.getD c) := by
  unfold sendNow
  split
  · exact steady_send hf ‹_›
  · exact .refl c

theorem steady_dialed (c : Client) (now : Nat) (reached : Except String Unit) :
    c.Steady (c.dialed now reached) := by
  unfold dialed
  split
  · exact c.steady_finish _ _ _
  · exact ⟨rfl, rfl, rfl, List.nil_subset _, fun _ => .inl⟩
  · exact .refl c

theorem steady_write (c : Client) : c.Steady (c.write.getD c) := by
  unfold write
  split
  · exact .refl c
  · rename_i g rest hq
    exact ⟨rfl, rfl, rfl, List.Subset.refl _, fun f hf => .inl (hq ▸ List.mem_cons_of_mem g hf)⟩

/-- Whatever happens to a client, its calls stay as they should be. -/
theorem keeps_take (hs : c.Sound just) (late : ∀ id text, just id (.error (.timeout text)))
    (a : Act) : Keeps just c (c.take a) := by
  cases a with
  | request call now => exact c.keeps_request call now
  | expire n => exact c.keeps_expire n late
  | report method payload => exact (steady_sendNow (f := .fireAndForget method payload) trivial).keeps
  | tell session e =>
    exact (steady_sendNow (f := .sessionEvent session e.streamName e.toJson) trivial).keeps
  | answer id outcome =>
    have hserving : c.Steady { c with serving := c.serving.filter fun s => s.id ≠ id } :=
      ⟨rfl, rfl, rfl, List.Subset.refl _, fun _ => .inl⟩
    exact (hserving.trans (steady_trySend (f := .response (.ofOutcome id outcome)) trivial)).keeps
  | dialed now reached => exact (c.steady_dialed now reached).keeps
  | next now wall =>
    change Keeps just c ((c.next now wall).getD c)
    cases h : c.next now wall with
    | none => exact .refl c
    | some d => exact keeps_next hs now wall h
  | write => exact c.steady_write.keeps
  | lose => exact Steady.keeps ⟨rfl, rfl, rfl, List.Subset.refl _, fun _ hf => (List.not_mem_nil hf).elim⟩
  | stop => exact Steady.keeps ⟨rfl, rfl, rfl, List.Subset.refl _, fun _ => .inl⟩

/-- What arrives must be right. -/
theorem keeps_arrive (c : Client) (x : Arrival)
    (hx : ∀ text f, x = .text text → Frame.parse text = .ok f → Heard just f) :
    Keeps just c (c.arrive x) := by
  refine ⟨⟨rfl, fun _ o ho => ⟨o, ho, rfl, fun _ => id⟩⟩, fun hs => ?_⟩
  refine ⟨hs.pending, hs.queue, fun text f ht hf => ?_, hs.ended⟩
  rcases List.mem_append.mp ht with ht | ht
  · exact hs.inbox text f ht hf
  · exact hx text f (List.mem_singleton.mp ht).symm hf

/-- What goes out is what was queued, or says who the client is. -/
theorem Sound.posts (hs : c.Sound just) {a : Act} (hf : f ∈ c.posts a) :
    c.Sends f ∨ f = .auth c.credentials := by
  cases a with
  | dialed now reached =>
    unfold Client.posts at hf
    split at hf
    · split at hf
      · exact .inr (List.mem_singleton.mp hf)
      · exact (List.not_mem_nil hf).elim
    · cases ‹Act.dialed now reached = .write›
    · exact (List.not_mem_nil hf).elim
  | write => exact .inl (hs.queue f (List.mem_of_mem_take hf))
  | _ => exact (List.not_mem_nil hf).elim

end Client

end Fleet.Machine
