import Fleet.Proofs.Wire.Net
import Mathlib.Data.List.Nodup

/-!
What a client's calls end with. An invariant of both ends and of whatever is on the way between them:
each answer that the client can come to hear, at once or as a replay, is one that the router gave to
a call of the client's own user under that call's id.
-/

namespace Fleet

open Control (Answered Given Answers)
open Machine (Client)

variable {log more : List Answered} {user : String} {f g : Frame}

/-! ### What is read of frames -/

namespace Control

/-- An outcome is right for an id when the router gave it to a call of the user with that id. -/
def Just (log : List Answered) (user id : String) :
    Except Error Json → Prop
  | .ok v => ∃ a ∈ log, a.user = user ∧ a.call.id = id ∧ ∃ w, a.outcome = .ok w ∧ w.ReadsAs v
  | .error (.remote e) => ∃ a ∈ log, a.user = user ∧ a.call.id = id ∧ a.outcome = .error e
  | _ => True

theorem Just.mono {id : String} {x : Except Error Json} (h : Just log user id x)
    (hm : log ⊆ more) : Just more user id x := by
  unfold Just at *
  split
  · obtain ⟨a, ha, h⟩ := h
    exact ⟨a, hm ha, h⟩
  · obtain ⟨a, ha, h⟩ := h
    exact ⟨a, hm ha, h⟩
  · trivial

theorem Given.just {r r' : Reply} (h : Given log user r) (hr : r.Carries r') :
    Just log user r'.id r'.outcome := by
  obtain ⟨a, ha, hu, rfl⟩ := h
  obtain ⟨hid, hout⟩ := hr
  have haid : a.call.id = r'.id := by
    rw [hid]
    cases a.outcome <;> rfl
  cases ho : a.outcome with
  | ok w =>
    rw [ho] at hout
    cases hx : r'.outcome with
    | ok v =>
      rw [hx] at hout
      exact ⟨a, ha, hu, haid, w, ho, hout⟩
    | error e =>
      rw [hx] at hout
      exact hout.elim
  | error e =>
    rw [ho] at hout
    cases hx : r'.outcome with
    | ok v =>
      rw [hx] at hout
      exact hout.elim
    | error e' =>
      rw [hx] at hout
      cases (show Error.remote e = e' from hout)
      exact ⟨a, ha, hu, haid, ho⟩

end Control

/-- What the client reads of answers to its user is right. -/
theorem Control.Answers.heard (h : Answers log user f) (hc : f.Carries g) :
    Client.Heard (Control.Just log user) g := by
  cases g with
  | response r' =>
    cases f with
    | response r => exact Given.just h hc
    | _ => exact absurd hc.kind (by simp [Frame.kind])
  | resumeResponse rs' =>
    cases f with
    | resumeResponse rs =>
      intro r' hr' hstatus
      obtain ⟨n, hn, rfl⟩ := List.getElem_of_mem hr'
      have hc : List.Forall₂ Resumed.Carries rs rs' := hc
      have hlen : n < rs.length := hc.length_eq ▸ hn
      obtain ⟨hst, hreply⟩ := hc.get hlen hn
      exact Given.just (h rs[n] (List.getElem_mem hlen) (hst ▸ hstatus)) hreply
    | _ => exact absurd hc.kind (by simp [Frame.kind])
  | _ => trivial

namespace Machine.Client

/-- A frame that the client may have written, as it is read. -/
def Fits (c : Client) : Frame → Prop
  | .auth body => body.userId = c.settings.userId
  | .request call => ∃ o ∈ c.outgoing, o.call.Carries call
  | _ => True

variable {c d : Client}

theorem Fits.onward (h : c.Onward d) (hf : c.Fits f) : d.Fits f := by
  cases f with
  | auth body =>
    change body.userId = d.settings.userId
    rw [h.settings]
    exact hf
  | request call =>
    obtain ⟨o, ho, hc⟩ := hf
    obtain ⟨o', ho', hcall⟩ := h.mem ho
    exact ⟨o', ho', hcall ▸ hc⟩
  | _ => trivial

/-- What is read of a frame that the client wrote. -/
theorem fits_carried (hf : c.Sends f ∨ f = .auth c.credentials) (hc : f.Carries g) :
    c.Fits g := by
  cases g with
  | auth body =>
    cases f with
    | auth body' =>
      obtain rfl : body = body' := hc
      rcases hf with hf | hf
      · exact hf.elim
      · cases hf
        rfl
    | _ => exact absurd hc.kind (by simp [Frame.kind])
  | request call =>
    cases f with
    | request call' =>
      rcases hf with ⟨o, ho, rfl⟩ | hf
      · exact ⟨o, ho, hc⟩
      · cases hf
    | _ => exact absurd hc.kind (by simp [Frame.kind])
  | _ => trivial

end Machine.Client

/-! ### The invariant -/

namespace Wire.Net

open Control (Plane Just)

variable {s : Net} {e : Event} {events : List Event}

/-- Whatever the two ends know, and whatever is on the way between them, is right. -/
structure Safe (s : Net) : Prop where
  honest : Plane.Honest s.log s.plane
  links : ∀ k ∈ s.links, ∃ x, s.plane.sockets[k]? = some x ∧
    Plane.Serves s.log s.client.Fits s.client.settings.userId s.plane.hub x
  posted : ∀ f ∈ s.posted, s.client.Sends f ∨ f = .auth s.client.credentials
  own : ∀ a ∈ s.log, a.own = true →
    a.user = s.client.settings.userId ∧ s.client.Fits (.request a.call)
  client : s.client.Sound (Just s.log s.client.settings.userId)

theorem safe_start (plane : Settings.ControlPlane) (policy : Vm.Policy) (store : Vm.Store)
    (secrets : List (String × String)) (router : Control.Router) (machine : Settings.Machine)
    (reconnect : Machine.Reconnect) (now : Nat) :
    Safe (start plane policy store secrets router machine reconnect now) where
  honest := ⟨fun _ he => (List.not_mem_nil he).elim, fun _ hc => (List.not_mem_nil hc).elim⟩
  links _ hk := (List.not_mem_nil hk).elim
  posted _ hf := (List.not_mem_nil hf).elim
  own _ ha := (List.not_mem_nil ha).elim
  client := ⟨fun _ hq => (List.not_mem_nil hq).elim, fun _ hf => (List.not_mem_nil hf).elim,
    fun _ _ ht => (List.not_mem_nil ht).elim, fun _ ho => (List.not_mem_nil ho).elim⟩

theorem quiet_of_allows {t : Control.Turn} (ht : s.Allows (.turn t)) {k : Nat} (hk : k ∈ s.links)
    (text : String) : t.act ≠ .arrive k (.text text) := by
  intro he
  obtain ⟨m, act⟩ := t
  obtain rfl : act = .arrive k (.text text) := he
  exact ht hk

theorem safe_turn (hs : s.Safe) {t : Control.Turn} (ht : s.Allows (.turn t)) :
    (s.take (.turn t)).Safe := by
  have hm : s.log ⊆ s.plane.answers s.links s.log t := List.subset_append_left _ _
  refine ⟨hs.honest.step s.links t, fun k hk => ?_, hs.posted, fun a ha hown => ?_,
    hs.client.mono fun id x hx => hx.mono hm⟩
  · obtain ⟨x, hx, hserves⟩ := hs.links k hk
    exact hserves.step hx hs.honest (fun _ h => h) s.links (quiet_of_allows ht hk)
  · rcases List.mem_append.mp ha with ha | ha
    · exact hs.own a ha hown
    · obtain ⟨k, x, hx, ha⟩ := Plane.answered_cases (Option.mem_toList.mp ha)
      have hk : k ∈ s.links := by
        rw [(Control.Socket.answered_cases ha).1] at hown
        exact List.contains_iff_mem.mp hown
      obtain ⟨x', hx', hserves⟩ := hs.links k hk
      obtain rfl := Option.some.inj (hx'.symm.trans hx)
      exact hserves.toIsOf.answered ha

theorem safe_link (hs : s.Safe) (m : Control.Moment) : (s.take (.link m)).Safe := by
  refine ⟨⟨hs.honest.kept, hs.honest.queued⟩, fun k hk => ?_, hs.posted, hs.own, hs.client⟩
  rcases List.mem_append.mp hk with hk | hk
  · obtain ⟨x, hx, hserves⟩ := hs.links k hk
    refine ⟨x, ?_, hserves⟩
    exact (List.getElem?_append_left (List.getElem?_eq_some_iff.mp hx).1).trans hx
  · rw [List.mem_singleton.mp hk]
    exact ⟨_, List.getElem?_concat_length, ⟨trivial, fun _ _ ht => (List.not_mem_nil ht).elim⟩,
      fun _ hf => (List.not_mem_nil hf).elim⟩

/-- The client goes on, and knows nothing that is wrong. -/
theorem safe_client (hs : s.Safe) {c : Client} {posted : List Frame}
    (hc : Client.Keeps (Just s.log s.client.settings.userId) s.client c)
    (hp : ∀ f ∈ posted, f ∈ s.posted ∨ s.client.Sends f ∨ f = .auth s.client.credentials) :
    Safe { s with client := c, posted := posted } := by
  have hset := hc.onward.settings
  refine ⟨hs.honest, fun k hk => ?_, fun f hf => ?_, fun a ha hown => ?_, ?_⟩
  · obtain ⟨x, hx, hserves⟩ := hs.links k hk
    refine ⟨x, hx, ?_⟩
    rw [hset]
    exact hserves.fits fun f hf => hf.onward hc.onward
  · have hold : s.client.Sends f ∨ f = .auth s.client.credentials := by
      rcases hp f hf with h | h
      · exact hs.posted f h
      · exact h
    rcases hold with h | h
    · exact .inl (hc.onward.sends h)
    · exact .inr (h.trans (by rw [hc.onward.credentials]))
  · obtain ⟨hu, hf⟩ := hs.own a ha hown
    exact ⟨hu.trans (by rw [hset]), hf.onward hc.onward⟩
  · change c.Sound (Just s.log c.settings.userId)
    rw [hset]
    exact hc.sound hs.client

theorem safe_act (hs : s.Safe) (a : Machine.Act) : (s.take (.act a)).Safe := by
  refine safe_client hs (Client.keeps_take hs.client (fun _ _ => trivial) a) fun f hf => ?_
  rcases List.mem_append.mp hf with hf | hf
  · exact .inl hf
  · exact .inr (hs.client.posts hf)

theorem safe_sent (hs : s.Safe) {k : Nat} (he : s.Allows (.sent k f)) :
    (s.take (.sent k f)).Safe := by
  obtain ⟨_, hf⟩ := he
  refine ⟨⟨hs.honest.kept, hs.honest.queued⟩, fun j hj => ?_, hs.posted, hs.own, hs.client⟩
  obtain ⟨x, hx, hserves⟩ := hs.links j hj
  by_cases hk : k = j
  · subst hk
    refine ⟨{ x with inbox := x.inbox ++ [.text f.text] }, ?_, ⟨hserves.stage, fun t g ht hg => ?_⟩,
      hserves.written⟩
    · simp [take, Plane.arrive, hx]
    · rcases List.mem_append.mp ht with ht | ht
      · exact hserves.inbox t g ht hg
      · cases List.mem_singleton.mp ht
        exact Client.fits_carried (hs.posted f hf) (Frame.carried hg)
  · exact ⟨x, by simp [take, Plane.arrive, hk, hx], hserves⟩

theorem safe_heard (hs : s.Safe) {k : Nat} (he : s.Allows (.heard k f)) :
    (s.take (.heard k f)).Safe := by
  obtain ⟨hk, hf⟩ := he
  obtain ⟨x, hx, hserves⟩ := hs.links k hk
  rw [hx] at hf
  refine safe_client hs (Client.keeps_arrive _ _ fun text g ht hg => ?_) fun f hf => .inl hf
  cases ht
  exact (hserves.written f hf).heard (Frame.carried hg)

theorem safe_noise (hs : s.Safe) {x : Arrival} (he : s.Allows (.noise x)) :
    (s.take (.noise x)).Safe :=
  safe_client hs (Client.keeps_arrive _ _ fun _ _ ht => by subst ht; exact he.elim) fun _ => .inl

theorem safe_take (hs : s.Safe) (he : s.Allows e) : (s.take e).Safe := by
  cases e with
  | turn t => exact safe_turn hs he
  | link m => exact safe_link hs m
  | act a => exact safe_act hs a
  | sent k f => exact safe_sent hs he
  | heard k f => exact safe_heard hs he
  | noise x => exact safe_noise hs he

theorem safe_play (hs : s.Safe) (hf : Fair events s) : (s.play events).Safe := by
  induction events generalizing s with
  | nil => exact hs
  | cons e rest ih => exact ih (safe_take hs hf.1) hf.2

/-! ### What calls end with -/

theorem fair_append {before after : List Event} :
    Fair (before ++ after) s ↔ Fair before s ∧ Fair after (s.play before) := by
  induction before generalizing s with
  | nil => simp [Fair]
  | cons e rest ih => simp only [List.cons_append, Fair, ih, play_cons, and_assoc]

theorem onward_take (hs : s.Safe) (he : s.Allows e) : s.client.Onward (s.take e).client := by
  cases e with
  | act a => exact (Client.keeps_take hs.client (fun _ _ => trivial) a).onward
  | heard k f => exact ⟨rfl, fun _ o ho => ⟨o, ho, rfl, fun _ => id⟩⟩
  | noise x => exact ⟨rfl, fun _ o ho => ⟨o, ho, rfl, fun _ => id⟩⟩
  | _ => exact .refl s.client

/-- Over a run, calls stay, and those that ended stay ended as they did. -/
theorem onward_play (hs : s.Safe) (hf : Fair events s) :
    s.client.Onward (s.play events).client := by
  induction events generalizing s with
  | nil => exact .refl s.client
  | cons e rest ih => exact (onward_take hs hf.1).trans (ih (safe_take hs hf.1) hf.2)

/-- No two calls of the client's user have the same id, wherever they come from. -/
structure Distinct (s : Net) : Prop where
  calls : (s.client.outgoing.map fun o => o.call.id).Nodup
  others : ∀ a ∈ s.log, a.own = false → a.user = s.client.settings.userId →
    ∀ o ∈ s.client.outgoing, a.call.id ≠ o.call.id

instance (s : Net) : Decidable s.Distinct :=
  decidable_of_iff
    ((s.client.outgoing.map fun o => o.call.id).Nodup ∧
      ∀ a ∈ s.log, a.own = false → a.user = s.client.settings.userId →
        ∀ o ∈ s.client.outgoing, a.call.id ≠ o.call.id)
    ⟨fun h => ⟨h.1, h.2⟩, fun h => ⟨h.calls, h.others⟩⟩

/-- At some moment of a run the router answered the call so. -/
def Routed (s : Net) (events : List Event) (a : Answered) : Prop :=
  ∃ before, before <+: events ∧
    (s.play before).plane.hub.router.answer (s.play before).plane.hub.reports
      a.user a.call.method a.call.params = a.outcome

theorem routed_play {a : Answered} (ha : a ∈ (s.play events).log) :
    a ∈ s.log ∨ s.Routed events a := by
  induction events generalizing s with
  | nil => exact .inl ha
  | cons e rest ih =>
    rcases ih ha with hold | ⟨before, hb, hrouted⟩
    · cases e with
      | turn t =>
        rcases List.mem_append.mp hold with hold | hnew
        · exact .inl hold
        · obtain ⟨k, x, _, hx⟩ := Plane.answered_cases (Option.mem_toList.mp hnew)
          exact .inr ⟨[], List.nil_prefix, (Control.Socket.answered_cases hx).2⟩
      | _ => exact .inl hold
    · exact .inr ⟨e :: before, List.cons_prefix_cons.mpr ⟨rfl, hb⟩, hrouted⟩

/-- An answer of the user's that bears the id of a call is the answer to that call. -/
theorem Safe.answers_call (hs : s.Safe) (hd : s.Distinct) {a : Answered} {o : Machine.Outgoing}
    (ho : o ∈ s.client.outgoing) (ha : a ∈ s.log) (hu : a.user = s.client.settings.userId)
    (hid : a.call.id = o.call.id) : o.call.Carries a.call := by
  cases hown : a.own with
  | false => exact absurd hid (hd.others a ha hown hu o ho)
  | true =>
    obtain ⟨_, o', ho', hc⟩ := hs.own a ha hown
    have he : o' = o := List.inj_on_of_nodup_map hd.calls ho' ho (hc.1.symm.trans hid)
    exact he ▸ hc

/-- A call ends once. If it ends with a result or with a fault of the control plane's, the router gave
just that to a request of the client's user with the call's id, method and parameters: the parameters
and the result as their texts are read. What is replayed to any machine was given to a call of its own
user, under that call's id. -/
theorem calls_end_as_answered (plane : Settings.ControlPlane) (policy : Vm.Policy) (store : Vm.Store)
    (secrets : List (String × String)) (router : Control.Router) (machine : Settings.Machine)
    (reconnect : Machine.Reconnect) (now : Nat) (events : List Event) :
    let s := start plane policy store secrets router machine reconnect now
    let t := s.play events
    Fair events s → t.Distinct →
    (∀ before after, events = before ++ after →
      ∀ (n : Nat) o x, (s.play before).client.outgoing[n]? = some o → o.outcome? = some x →
        ∃ o', t.client.outgoing[n]? = some o' ∧ o'.call = o.call ∧ o'.outcome? = some x) ∧
    (∀ o ∈ t.client.outgoing, ∀ v, o.outcome? = some (.ok v) →
      ∃ a ∈ t.log, s.Routed events a ∧ a.user = machine.userId ∧ o.call.Carries a.call ∧
        ∃ w, a.outcome = .ok w ∧ w.ReadsAs v) ∧
    (∀ o ∈ t.client.outgoing, ∀ e, o.outcome? = some (.error (.remote e)) →
      ∃ a ∈ t.log, s.Routed events a ∧ a.user = machine.userId ∧ o.call.Carries a.call ∧
        a.outcome = .error e) ∧
    ∀ c ∈ t.plane.hub.connections.opened, ∀ results, .resumeResponse results ∈ c.outbox →
      ∀ r ∈ results, r.status = .completed →
        ∃ a ∈ t.log, s.Routed events a ∧ a.user = c.userId ∧
          r.reply = .ofOutcome a.call.id a.outcome := by
  intro s t hf hd
  have hstart : s.Safe := safe_start plane policy store secrets router machine reconnect now
  have hend : t.Safe := safe_play hstart hf
  have huser : t.client.settings.userId = machine.userId := (onward_play hstart hf).settings ▸ rfl
  have routed {a : Answered} (ha : a ∈ t.log) : s.Routed events a := by
    rcases routed_play ha with hold | hnew
    · exact (List.not_mem_nil hold).elim
    · exact hnew
  refine ⟨fun before after he n o x ho hx => ?_, fun o ho v hv => ?_, fun o ho e hx => ?_,
    fun c hc results hr r hmem hst => ?_⟩
  · subst he
    obtain ⟨hbefore, hafter⟩ := fair_append.mp hf
    obtain ⟨o', ho', hcall, hout⟩ := (onward_play (safe_play hstart hbefore) hafter).calls n o ho
    exact ⟨o', by simpa only [t, play_append] using ho', hcall, hout x hx⟩
  · obtain ⟨a, ha, hu, hid, hw⟩ := hend.client.ended o ho _ hv
    exact ⟨a, ha, routed ha, hu.trans huser, hend.answers_call hd ho ha hu hid, hw⟩
  · obtain ⟨a, ha, hu, hid, hout⟩ := hend.client.ended o ho _ hx
    exact ⟨a, ha, routed ha, hu.trans huser, hend.answers_call hd ho ha hu hid, hout⟩
  · obtain ⟨a, ha, hu, hreply⟩ := hend.honest.queued c hc _ hr r hmem hst
    exact ⟨a, ha, routed ha, hu, hreply⟩

/-! ### A call whose answer is lost -/

/-- The i-th moment brings the i-th id, ticket and row. -/
def moment (i : Nat) : Control.Moment :=
  ⟨⟨⟨0, 0⟩, 0, s!"row-{i}", s!"ticket-{i}", .ok ()⟩, i, toString i⟩

def turned (i : Nat) (a : Control.Act) : Event := .turn ⟨moment i, a⟩

/-- The client dials in on a socket and is welcomed. -/
def welcomed (i k now : Nat) : List Event :=
  [.link (moment i), .act (.dialed now (.ok ())), .sent k (.auth ⟨"alice", "", "ticket-0", none⟩)] ++
    List.replicate 3 (turned (i + 1) (.move (.socket k))) ++
    [turned i (.move (.write k)), .heard k (.init ⟨s!"conn-{i + 1}", [], 10000⟩), .act (.next now 0)]

/-- The client writes a frame, the control plane takes it up and writes the answer. -/
def handled (i k : Nat) (f : Frame) : List Event :=
  [.act .write, .sent k f, turned i (.move (.socket k)), turned i (.move (.write k))]

def search : Call := ⟨"req-1", Method.memorySearch, Json.object [("query", .str "tea")]⟩

def unknown : Call := ⟨"req-2", "no_such_method", .null⟩

def unknownMethod : Fault := ⟨Code.methodNotFound, "Unknown method 'no_such_method'"⟩

/-- Two calls are answered, but the socket breaks before the second answer arrives. The client dials
again, names the call that waits, and is given the answer again. -/
def interrupted : List Event :=
  [turned 0 (.force "alice" "")] ++ welcomed 1 0 0 ++
    [.act (.request search 0), .act (.request unknown 0)] ++
    handled 2 0 (.request search) ++ handled 3 0 (.request unknown) ++
    [.heard 0 (.response (.ok "req-1" (Json.object [("hits", .arr [])]))), .act (.next 0 0),
      .noise .lost, .act (.next 0 0), .act (.next 0 0), .act (.next 9000 0),
      turned 4 (.arrive 0 .lost), turned 4 (.move (.socket 0)), turned 4 (.move (.write 0)),
      turned 4 (.move (.socket 0))] ++
    welcomed 5 1 9000 ++ handled 6 1 (.resume ["req-2"]) ++
    [.heard 1 (.resumeResponse [⟨"req-2", .completed, none, some unknownMethod⟩]),
      .act (.next 9000 0)]

def opening : Net :=
  start {} ⟨{}, ⟨"secret", 600⟩⟩ { keeping := .arrival } [] {}
    { userId := "alice", ticket := "ticket-0" } {} 0

theorem interrupted_outcome :
    Fair interrupted opening ∧ (opening.play interrupted).Distinct ∧
    (opening.play interrupted).client.outgoing.map (fun o => (o.call, o.outcome?)) =
      [(search, some (.ok (Json.object [("hits", .arr [])]))),
        (unknown, some (.error (.remote unknownMethod)))] := by
  decide +kernel

/-- The answer that is given again is the router's to that call. -/
theorem lost_answer_is_given_again :
    Fair interrupted opening ∧ (opening.play interrupted).Distinct ∧
    ∃ a ∈ (opening.play interrupted).log, opening.Routed interrupted a ∧ a.user = "alice" ∧
      unknown.Carries a.call ∧ a.outcome = .error unknownMethod := by
  obtain ⟨fair, distinct, hcalls⟩ := interrupted_outcome
  have hmem : (unknown, some (.error (.remote unknownMethod))) ∈
      (opening.play interrupted).client.outgoing.map fun o => (o.call, o.outcome?) := by
    rw [hcalls]
    exact List.mem_cons_of_mem _ List.mem_cons_self
  obtain ⟨o, ho, he⟩ := List.mem_map.mp hmem
  obtain ⟨hcall, hout⟩ := Prod.mk.injEq .. ▸ he
  have hend := calls_end_as_answered {} ⟨{}, ⟨"secret", 600⟩⟩ { keeping := .arrival } [] {}
    { userId := "alice", ticket := "ticket-0" } {} 0 interrupted fair distinct
  exact ⟨fair, distinct, hcall ▸ hend.2.2.1 o ho unknownMethod hout⟩

end Wire.Net

end Fleet
