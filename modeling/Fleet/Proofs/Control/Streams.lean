import Fleet.Proofs.Control.Turns
import Fleet.Proofs.Feed.Relay

/-!
What the parts of a control plane do to browsers' streams: to the relay, the feeds and the routes.
Only a machine's event of a session that is routed to that machine's user brings something into a
feed.
-/

namespace Fleet.Feed

/-- A feed after a notice was offered to it; one that refuses is closed. -/
def Channel.offered (n : Notice) (c : Channel) : Channel :=
  if c.accepts then { c with queue := c.queue ++ [n] } else c.close

/-- A feed that took nothing in: what was there is left to be read, or it was abandoned. -/
def Channel.Fades (c d : Channel) : Prop :=
  (d.queue = c.queue ∧ d.abandoned = c.abandoned) ∨ (d.queue = [] ∧ d.abandoned = true)

namespace Channel

variable {c d e : Channel}

theorem Fades.refl (c : Channel) : c.Fades c := .inl ⟨rfl, rfl⟩

theorem Fades.trans (h : c.Fades d) (h' : d.Fades e) : c.Fades e := by
  rcases h' with ⟨hq, ha⟩ | h'
  · rcases h with ⟨hq', ha'⟩ | ⟨hq', ha'⟩
    · exact .inl ⟨hq.trans hq', ha.trans ha'⟩
    · exact .inr ⟨hq.trans hq', ha.trans ha'⟩
  · exact .inr h'

theorem close_fades (c : Channel) : c.Fades c.close := .inl ⟨rfl, rfl⟩

theorem abandon_fades (c : Channel) : c.Fades c.abandon := .inr ⟨rfl, rfl⟩

theorem close_close (c : Channel) : c.close.close = c.close := rfl

end Channel

end Fleet.Feed

namespace Fleet.Control

open Feed (Channel Notice Relay)

namespace Hub

variable {feeds : List (String × Channel)} {id x : String}

theorem lookup_changeFeed (id x : String) (f : Channel → Channel)
    (feeds : List (String × Channel)) :
    (changeFeed id f feeds).lookup x = (feeds.lookup x).map fun c => if x = id then f c else c := by
  induction feeds with
  | nil => rfl
  | cons q rest ih =>
    obtain ⟨k, c⟩ := q
    simp only [changeFeed, List.map_cons, List.lookup_cons] at ih ⊢
    by_cases h : x = k
    · subst h
      simp
    · have hb : (x == k) = false := by simpa using h
      rw [hb]
      exact ih

theorem keys_changeFeed (id : String) (f : Channel → Channel) (feeds : List (String × Channel)) :
    (changeFeed id f feeds).map Prod.fst = feeds.map Prod.fst := by
  simp [changeFeed, Function.comp_def]

theorem lookup_send (id x : String) (n : Notice) (feeds : List (String × Channel)) :
    (sinks.send id n feeds).2.lookup x =
      (feeds.lookup x).map fun c => if x = id then (c.send n).2 else c := by
  cases h : feeds.lookup id with
  | some c =>
    simp only [sinks, h]
    exact lookup_changeFeed id x _ feeds
  | none =>
    simp only [sinks, h]
    by_cases hx : x = id
    · subst hx
      simp [h]
    · simp [hx]

theorem send_taken (id : String) (n : Notice) (feeds : List (String × Channel)) :
    (sinks.send id n feeds).1 = ((feeds.lookup id).map Channel.accepts).getD false := by
  cases h : feeds.lookup id with
  | none => simp [sinks, h]
  | some c =>
    simp only [sinks, h, Option.map_some, Option.getD_some, Channel.send]
    split
    · rename_i ha; exact ha.symm
    · rename_i ha; simpa using ha

theorem keys_send (id : String) (n : Notice) (feeds : List (String × Channel)) :
    (sinks.send id n feeds).2.map Prod.fst = feeds.map Prod.fst := by
  cases h : feeds.lookup id with
  | none => simp [sinks, h]
  | some c =>
    simp only [sinks, h]
    exact keys_changeFeed id _ feeds

variable {cs : List Feed.Connection} {n : Notice} {r : Relay}

theorem keys_offer : (Relay.offer sinks n cs r feeds).2.2.map Prod.fst = feeds.map Prod.fst := by
  induction cs generalizing r feeds with
  | nil => rfl
  | cons c rest ih =>
    unfold Relay.offer
    have hkeys := keys_send c.sink n feeds
    split
    · rename_i s hs
      rw [hs] at hkeys
      exact ih.trans hkeys
    · rename_i s hs
      rw [hs] at hkeys
      exact ih.trans ((keys_changeFeed c.sink _ s).trans hkeys)

/-- Where every connection has a feed of its own, a notice is offered once to each of them. -/
theorem lookup_offer (hs : ∀ c ∈ cs, c.sink = c.id) (hn : (cs.map Feed.Connection.id).Nodup) :
    (Relay.offer sinks n cs r feeds).2.2.lookup x =
      (feeds.lookup x).map fun c =>
        if x ∈ cs.map Feed.Connection.id then c.offered n else c := by
  induction cs generalizing r feeds with
  | nil => simp [Relay.offer]
  | cons c rest ih =>
    rw [List.map_cons, List.nodup_cons] at hn
    have hrest {r : Relay} {s : List (String × Channel)} :
        (Relay.offer sinks n rest r s).2.2.lookup x = (s.lookup x).map fun c =>
          if x ∈ rest.map Feed.Connection.id then c.offered n else c :=
      ih (fun d hd => hs d (List.mem_cons_of_mem _ hd)) hn.2
    have hsink := hs c List.mem_cons_self
    have htaken := send_taken c.id n feeds
    have hlook := lookup_send c.id x n feeds
    unfold Relay.offer
    rw [hsink]
    split
    · rename_i s hsend
      rw [hsend] at htaken hlook
      refine hrest.trans ?_
      rw [hlook]
      by_cases hx : x = c.id
      · subst hx
        cases hc : feeds.lookup c.id with
        | none => rfl
        | some d =>
          have ha : d.accepts = true := by simpa [hc] using htaken.symm
          simp [hn.1, Channel.offered, Channel.send_of_accepts ha, ha]
      · cases feeds.lookup x <;> simp [hx]
    · rename_i s hsend
      rw [hsend] at htaken hlook
      refine hrest.trans ?_
      change ((changeFeed c.id Channel.close s).lookup x).map _ = _
      rw [lookup_changeFeed, hlook]
      by_cases hx : x = c.id
      · subst hx
        cases hc : feeds.lookup c.id with
        | none => rfl
        | some d =>
          have ha : d.accepts = false := by simpa [hc] using htaken.symm
          simp [hn.1, Channel.offered, Channel.send_of_not_accepts ha, ha]
      · cases feeds.lookup x <;> simp [hx]

theorem lookup_closeAll (hs : ∀ c ∈ cs, c.sink = c.id) :
    (cs.foldl (fun s c => sinks.close c.sink s) feeds).lookup x =
      (feeds.lookup x).map fun c => if x ∈ cs.map Feed.Connection.id then c.close else c := by
  induction cs generalizing feeds with
  | nil => simp
  | cons c rest ih =>
    rw [List.foldl_cons, ih fun d hd => hs d (List.mem_cons_of_mem _ hd)]
    rw [show sinks.close c.sink feeds = changeFeed c.id Channel.close feeds by
      rw [hs c List.mem_cons_self]; rfl]
    rw [lookup_changeFeed]
    by_cases hx : x = c.id
    · subst hx
      cases feeds.lookup c.id <;> simp [Channel.close_close]
    · cases feeds.lookup x <;> simp [hx]

theorem keys_closeAll :
    (cs.foldl (fun s c => sinks.close c.sink s) feeds).map Prod.fst = feeds.map Prod.fst := by
  induction cs generalizing feeds with
  | nil => rfl
  | cons c rest ih =>
    rw [List.foldl_cons, ih]
    exact keys_changeFeed _ _ _

/-! ### Hubs -/

/-- What browsers' streams depend on. -/
def streams (h : Hub) : Relay × List (String × Channel) × List Route := (h.relay, h.feeds, h.routes)

/-- The relay's connections each have a feed, that of their own id. -/
structure Tuned (h : Hub) : Prop where
  relay : h.relay.Sound
  sinks : ∀ c ∈ h.relay.connections, c.sink = c.id

/-- Browsers may have gone and feeds may have ended, but nothing came in. -/
structure Quiet (h g : Hub) : Prop where
  tuned : h.Tuned → g.Tuned
  keys : g.feeds.map Prod.fst = h.feeds.map Prod.fst
  connections : g.relay.connections ⊆ h.relay.connections
  fades : h.Tuned → ∀ x c, h.feeds.lookup x = some c →
    ∃ d, g.feeds.lookup x = some d ∧ c.Fades d

variable {h g k : Hub} {session : String}

theorem Quiet.of_eq (hr : g.relay = h.relay) (hf : g.feeds = h.feeds) : Quiet h g := by
  refine ⟨fun ht => ?_, by rw [hf], by rw [hr]; exact List.Subset.refl _, fun _ x c hc => ?_⟩
  · exact ⟨by rw [hr]; exact ht.relay, by rw [hr]; exact ht.sinks⟩
  · exact ⟨c, by rw [hf]; exact hc, .refl c⟩

theorem Quiet.refl (h : Hub) : Quiet h h := .of_eq rfl rfl

theorem Quiet.of_streams (he : g.streams = h.streams) : Quiet h g :=
  .of_eq (congrArg Prod.fst he) (congrArg (fun s => s.2.1) he)

theorem Quiet.trans (hg : Quiet h g) (gk : Quiet g k) : Quiet h k := by
  refine ⟨fun ht => gk.tuned (hg.tuned ht), gk.keys.trans hg.keys,
    fun _ hc => hg.connections (gk.connections hc), fun ht x c hc => ?_⟩
  obtain ⟨d, hd, hcd⟩ := hg.fades ht x c hc
  obtain ⟨e, he, hde⟩ := gk.fades (hg.tuned ht) x d hd
  exact ⟨e, he, hcd.trans hde⟩

theorem Tuned.removeAll {ids : List String} (ht : h.Tuned) (hr : g.relay = h.relay.removeAll ids) :
    g.Tuned := by
  refine ⟨by rw [hr]; exact ht.relay.removeAll ids, fun c hc => ht.sinks c ?_⟩
  exact Relay.removeAll_subset h.relay ids (hr ▸ hc)

theorem Tuned.listen (ht : h.Tuned) (id session : String) : (h.listen id session).Tuned := by
  refine ⟨ht.relay.register _, fun c hc => ?_⟩
  rcases Relay.mem_register hc with rfl | ⟨hc, _⟩
  · rfl
  · exact ht.sinks c hc

theorem quiet_unlisten (h : Hub) (id : String) : Quiet h (h.unlisten id) := by
  have hremove : (h.unlisten id).relay = h.relay.removeAll [id] := rfl
  refine ⟨fun ht => ht.removeAll hremove, keys_changeFeed _ _ _,
    fun c hc => (Relay.mem_remove hc).1, fun _ x c hc => ?_⟩
  refine ⟨if x = id then c.abandon else c, ?_, ?_⟩
  · change (changeFeed id Channel.abandon h.feeds).lookup x = _
    rw [lookup_changeFeed, hc]
    rfl
  · split
    · exact c.abandon_fades
    · exact .refl c

theorem quiet_closeFeeds (h : Hub) (session : String) : Quiet h (h.closeFeeds session) := by
  have hr := Relay.closeSession_relay Hub.sinks h.relay session h.feeds
  refine ⟨fun ht => ht.removeAll hr, keys_closeAll, ?_, fun ht x c hc => ?_⟩
  · change (Relay.closeSession Hub.sinks h.relay session h.feeds).2.1.connections ⊆ _
    rw [hr]
    exact Relay.removeAll_subset _ _
  · have hsinks : ∀ d ∈ h.relay.targets session, d.sink = d.id :=
      fun d hd => ht.sinks d ((ht.relay.mem_targets).mp hd).1
    have hl : (h.closeFeeds session).feeds.lookup x = _ := lookup_closeAll hsinks
    rw [hc] at hl
    refine ⟨_, hl, ?_⟩
    split
    · exact c.close_fades
    · exact .refl c

/-- What a notice does to the feeds: each one that listens to its session takes it once. -/
theorem lookup_forward (ht : h.Tuned) (session : String) (n : Notice) (x : String) :
    (h.forward session n).feeds.lookup x = (h.feeds.lookup x).map fun c =>
      if x ∈ (h.relay.targets session).map Feed.Connection.id then c.offered n else c :=
  lookup_offer (fun d hd => ht.sinks d ((ht.relay.mem_targets).mp hd).1)
    (ht.relay.targets_nodup session)

theorem keys_forward (h : Hub) (session : String) (n : Notice) :
    (h.forward session n).feeds.map Prod.fst = h.feeds.map Prod.fst := keys_offer

theorem Tuned.forward (ht : h.Tuned) (session : String) (n : Notice) :
    (h.forward session n).Tuned ∧
      (h.forward session n).relay.connections ⊆ h.relay.connections := by
  obtain ⟨ids, hr⟩ := Relay.offer_relay (k := Hub.sinks) (n := n) (h.relay.targets session)
    h.relay h.feeds
  refine ⟨ht.removeAll hr, ?_⟩
  change (Relay.offer Hub.sinks n (h.relay.targets session) h.relay h.feeds).2.1.connections ⊆ _
  rw [hr]
  exact Relay.removeAll_subset _ _

theorem readFeed_eq {n : Notice} (h : g.readFeed id = some (n, k)) :
    ∃ c rest, g.feeds.lookup id = some c ∧ c.queue = n :: rest ∧
      k = { g with feeds := changeFeed id (fun _ => { c with queue := rest }) g.feeds } := by
  obtain ⟨c, hc, hread⟩ := Option.bind_eq_some_iff.mp h
  obtain ⟨⟨m, d⟩, hm, he⟩ := Option.map_eq_some_iff.mp hread
  cases he
  unfold Channel.read? at hm
  split at hm
  · cases hm
  · rename_i n rest hq
    cases hm
    exact ⟨c, rest, hc, hq, rfl⟩

theorem authenticate_streams (h : Hub) (m : Moment) (c : Credentials) :
    (h.authenticate m c).2.streams = h.streams := by
  unfold authenticate
  split
  · rfl
  · dsimp only
    split <;> rfl

end Hub

open Hub

/-- An event that a machine sent for a session, and whom the session belonged to when it was heard. -/
structure Sent where
  sender : String
  session : String
  notice : Notice
  owner : Option String
  deriving DecidableEq

/-- The event that a socket's next move takes up. -/
def Socket.event? (s : Socket) (h : Hub) : Option Sent :=
  match s.stage, s.inbox with
  | .live k _, .text t :: _ =>
    h.connections.opened[k]?.bind fun c =>
      if c.closing then none
      else match Frame.parse t with
        | .ok (.sessionEvent session event data) =>
          some ⟨c.userId, session, ⟨event, data⟩, h.owner? session⟩
        | _ => none
  | _, _ => none

namespace Socket

variable {s s' : Socket} {m : Moment} {h h' : Hub} {e : Sent}

theorem push_streams (h : Hub) (k : Nat) (f : Frame) : (push h k f).streams = h.streams := by
  unfold push
  split <;> rfl

theorem handle_streams (m : Moment) (k : Nat) (user : String) (h : Hub) (f : Frame) :
    (handle m k user h f).streams = h.streams ∨
      ∃ session event data, f = .sessionEvent session event data ∧ h.owner? session = some user ∧
        handle m k user h f = h.forward session ⟨event, data⟩ := by
  cases f with
  | request call => exact .inl (push_streams _ _ _)
  | resume ids => exact .inl (push_streams _ _ _)
  | fireAndForget method payload =>
    cases hr : h.reports.handle user method payload with
    | ok r => exact .inl (by simp only [handle, hr]; rfl)
    | error e => exact .inl (by simp only [handle, hr])
  | sessionEvent session event data =>
    by_cases ho : h.owner? session = some user
    · exact .inr ⟨session, event, data, rfl, ho, by simp [handle, ho]⟩
    · exact .inl (by simp [handle, ho])
  | _ => exact .inl rfl

theorem enrol_streams (s : Socket) (m : Moment) (c : Credentials) (h : Hub) :
    (s.enrol m c h).2.streams = h.streams := by
  have ha := authenticate_streams h m c
  unfold enrol
  split
  · rename_i he; rw [he] at ha; exact ha
  · rename_i he; rw [he] at ha; exact ha

theorem greet_streams (s : Socket) (m : Moment) (k : Nat) (c : Connection) (h : Hub) :
    (s.greet m k c h).2.streams = h.streams := push_streams _ _ _

theorem leave_streams (s : Socket) (k : Nat) (c : Connection) (ending : Ending) (h : Hub) :
    (s.leave k c ending h).2.streams = h.streams := rfl

/-- A live socket relays what it hears, if it is an event of a session of the machine's user. -/
theorem attend_streams {k deadline : Nat} {c : Connection} (hs : s.stage = .live k deadline)
    (hk : h.connections.opened[k]? = some c) (hn : s.attend m k deadline c h = some (s', h')) :
    h'.streams = h.streams ∨ ∃ e, s.event? h = some e ∧ e.owner = some e.sender ∧
      h' = h.forward e.session e.notice := by
  unfold attend at hn
  by_cases hc : c.closing = true
  · rw [if_pos hc] at hn
    cases hn
    exact .inl (leave_streams s k c .clean h)
  rw [if_neg hc] at hn
  cases hi : s.inbox with
  | nil =>
    simp only [hi] at hn
    split at hn
    · cases hn
      exact .inl (leave_streams s k c .timeout h)
    · cases hn
  | cons x rest =>
    cases x with
    | other => simp only [hi] at hn; cases hn; exact .inl rfl
    | close => simp only [hi] at hn; cases hn; exact .inl (leave_streams s k c .clean h)
    | lost => simp only [hi] at hn; cases hn; exact .inl (leave_streams s k c .clean h)
    | text t =>
      simp only [hi] at hn
      unfold hear at hn
      cases hp : Frame.parse t with
      | error e => simp only [hp] at hn; cases hn; exact .inl rfl
      | ok f =>
        simp only [hp] at hn
        cases hn
        rcases handle_streams m k c.userId h f with hf | ⟨session, event, data, rfl, ho, hf⟩
        · exact .inl hf
        · refine .inr ⟨⟨c.userId, session, ⟨event, data⟩, h.owner? session⟩, ?_, ho, hf⟩
          simp [event?, hs, hi, hk, hc, hp]

/-- What a socket's move does to streams: nothing, or it relays an event of the session's owner. -/
theorem next_streams (hn : s.next m h = some (s', h')) :
    h'.streams = h.streams ∨ ∃ e, s.event? h = some e ∧ e.owner = some e.sender ∧
      h' = h.forward e.session e.notice := by
  unfold next at hn
  cases hs : s.stage with
  | expecting deadline =>
    simp only [hs] at hn
    refine .inl ?_
    split at hn
    · cases hn; rfl
    · cases hn; rfl
    · cases hn; rfl
    · cases hn; rfl
    · split at hn
      · cases hn; rfl
      · cases hn
  | admitting c =>
    simp only [hs] at hn
    have he : h' = (s.enrol m c h).2 := congrArg Prod.snd (Option.some.inj hn).symm
    exact .inl (he ▸ enrol_streams s m c h)
  | greeting k =>
    simp only [hs] at hn
    obtain ⟨c, _, hc⟩ := Option.map_eq_some_iff.mp hn
    cases hc
    exact .inl (greet_streams s m k c h)
  | live k deadline =>
    simp only [hs] at hn
    obtain ⟨c, hk, hn⟩ := Option.bind_eq_some_iff.mp hn
    exact attend_streams hs hk hn
  | leaving k current ending =>
    simp only [hs] at hn
    obtain ⟨c, _, hn⟩ := Option.bind_eq_some_iff.mp hn
    split at hn
    · cases hn
      refine .inl ?_
      cases current <;> rfl
    · cases hn
  | ended ending => simp [hs] at hn

theorem write_streams (hn : s.write h = some (s', h')) : h'.streams = h.streams := by
  unfold write at hn
  split at hn
  · cases hn
  · obtain ⟨k, _, hn⟩ := Option.bind_eq_some_iff.mp hn
    obtain ⟨c, _, hn⟩ := Option.bind_eq_some_iff.mp hn
    split at hn
    · cases hn; rfl
    · split at hn
      · cases hn; rfl
      · cases hn

end Socket

end Fleet.Control
