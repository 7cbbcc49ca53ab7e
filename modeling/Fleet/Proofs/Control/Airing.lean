import Fleet.Proofs.Control.Streams
import Fleet.Proofs.Feed.Fanout
import Fleet.Event

/-!
What a browser's feed is sent: the notices of its session, until one of them is terminal or the
session's feeds are closed. What was read of a feed and what waits in it is what was sent, as long as
the browser is served.
-/

namespace Fleet.Control

open Feed (Channel Notice Relay)

/-! ### What is sent -/

/-- What is sent to the feeds of a session at once. -/
inductive Airing where
  | silence
  | notice (session : String) (n : Notice)
  | close (session : String)
  deriving DecidableEq

/-- What a feed was sent since it was there, until its session's feeds were closed. -/
structure Tape where
  said : List Notice := []
  closed : Bool := false
  deriving DecidableEq

/-- Notices up to the first terminal one, and that one. -/
def upToTerminal : List Notice → List Notice
  | [] => []
  | n :: rest => if isTerminalName n.event then [n] else n :: upToTerminal rest

def Tape.hear (session : String) (t : Tape) : Airing → Tape
  | .silence => t
  | .notice s n => if s = session ∧ t.closed = false then { t with said := t.said ++ [n] } else t
  | .close s => if s = session then { t with closed := true } else t

/-- Whether nothing more is to come of what is sent. -/
def Tape.isDone (t : Tape) : Bool := t.closed || t.said.any fun n => isTerminalName n.event

/-- None of the notices is terminal. -/
def Unended (l : List Notice) : Prop := ∀ n ∈ l, isTerminalName n.event = false

variable {a b : List Notice} {n : Notice}

theorem upToTerminal_prefix (l : List Notice) : upToTerminal l <+: l := by
  induction l with
  | nil => exact List.prefix_rfl
  | cons n rest ih =>
    unfold upToTerminal
    split
    · exact ⟨rest, rfl⟩
    · exact (List.prefix_cons_inj n).mpr ih

theorem upToTerminal_append (ha : Unended a) (b : List Notice) :
    upToTerminal (a ++ b) = a ++ upToTerminal b := by
  induction a with
  | nil => rfl
  | cons n rest ih =>
    have hn : isTerminalName n.event = false := ha n List.mem_cons_self
    rw [List.cons_append, upToTerminal, hn, if_neg Bool.false_ne_true,
      ih fun x hx => ha x (List.mem_cons_of_mem _ hx), List.cons_append]

theorem upToTerminal_of_unended (ha : Unended a) : upToTerminal a = a := by
  simpa [upToTerminal] using upToTerminal_append ha []

/-- What comes after a terminal notice does not matter. -/
theorem upToTerminal_of_terminal (ha : a.any fun n => isTerminalName n.event) (b : List Notice) :
    upToTerminal (a ++ b) = upToTerminal a := by
  induction a with
  | nil => cases ha
  | cons n rest ih =>
    rw [List.cons_append, upToTerminal, upToTerminal]
    split
    · rfl
    · rename_i hn
      rw [List.any_cons, Bool.or_eq_true] at ha
      rw [ih (ha.resolve_left hn)]

theorem upToTerminal_grows (a b : List Notice) : upToTerminal a <+: upToTerminal (a ++ b) := by
  by_cases ha : a.any fun n => isTerminalName n.event
  · simp only [upToTerminal_of_terminal ha b, List.prefix_refl]
  · have hu : Unended a := by simpa [Unended] using ha
    rw [upToTerminal_append hu, upToTerminal_of_unended hu]
    exact List.prefix_append _ _

namespace Tape

variable {t : Tape} {session : String}

theorem hear_grows (t : Tape) (session : String) (a : Airing) :
    upToTerminal t.said <+: upToTerminal (t.hear session a).said := by
  cases a with
  | silence => exact List.prefix_rfl
  | notice s n =>
    simp only [hear]
    split
    · exact upToTerminal_grows t.said [n]
    · exact List.prefix_rfl
  | close s =>
    simp only [hear]
    split <;> exact List.prefix_rfl

/-- When nothing more was to come, nothing more comes. -/
theorem hear_done (hd : t.isDone = true) (session : String) (a : Airing) :
    upToTerminal (t.hear session a).said = upToTerminal t.said ∧ (t.hear session a).isDone = true := by
  cases a with
  | silence => exact ⟨rfl, hd⟩
  | notice s n =>
    simp only [hear]
    split
    · rename_i hs
      have hany : t.said.any (fun n => isTerminalName n.event) = true := by
        rwa [isDone, hs.2, Bool.false_or] at hd
      exact ⟨upToTerminal_of_terminal hany [n], by simp [isDone, hany]⟩
    · exact ⟨rfl, hd⟩
  | close s =>
    simp only [hear]
    split
    · exact ⟨rfl, rfl⟩
    · exact ⟨rfl, hd⟩

theorem closed_hear (t : Tape) (session : String) (a : Airing) :
    (t.hear session a).closed = (t.closed || decide (a = .close session)) := by
  cases a with
  | silence => simp [hear]
  | notice s n =>
    simp only [hear]
    split <;> simp
  | close s =>
    simp only [hear]
    by_cases hs : s = session <;> simp [hs]

end Tape

/-! ### The relay and the feeds -/

namespace Hub

/-- What feeds depend on. -/
def air (h : Hub) : Relay × List (String × Channel) := (h.relay, h.feeds)

def aired (h : Hub) : Airing → Hub
  | .silence => h
  | .notice session n => h.forward session n
  | .close session => h.closeFeeds session

/-- Whether the feed of this id takes notices. -/
def takes (feeds : List (String × Channel)) (id : String) : Bool :=
  ((feeds.lookup id).map Channel.accepts).getD false

variable {h g : Hub} {feeds : List (String × Channel)} {cs : List Feed.Connection} {r : Relay}
  {d : Feed.Connection} {id x session : String}

theorem Tuned.of_relay (ht : h.Tuned) (hr : g.relay = h.relay) : g.Tuned :=
  ⟨hr ▸ ht.relay, hr ▸ ht.sinks⟩

theorem Tuned.aired (ht : h.Tuned) (a : Airing) : (h.aired a).Tuned := by
  cases a with
  | silence => exact ht
  | notice session n => exact (ht.forward session n).1
  | close session => exact (quiet_closeFeeds h session).tuned ht

theorem keys_aired (h : Hub) (a : Airing) : (h.aired a).feeds.map Prod.fst = h.feeds.map Prod.fst := by
  cases a with
  | silence => rfl
  | notice session n => exact keys_forward h session n
  | close session => exact keys_closeAll

/-- The connections whose feeds refuse a notice go, and no others. -/
theorem offer_leaves (hs : ∀ c ∈ cs, c.sink = c.id) (hn : (cs.map Feed.Connection.id).Nodup) :
    (Relay.offer sinks n cs r feeds).2.1 =
      r.removeAll ((cs.filter fun c => !takes feeds c.id).map Feed.Connection.id) := by
  induction cs generalizing r feeds with
  | nil => rfl
  | cons c rest ih =>
    rw [List.map_cons, List.nodup_cons] at hn
    have htaken := send_taken c.id n feeds
    -- the feeds of the others answer as before
    have hrest {s : List (String × Channel)} {r : Relay}
        (hl : ∀ x, x ≠ c.id → s.lookup x = feeds.lookup x) :
        (Relay.offer sinks n rest r s).2.1 =
          r.removeAll ((rest.filter fun c => !takes feeds c.id).map Feed.Connection.id) := by
      rw [ih (fun d hd => hs d (List.mem_cons_of_mem _ hd)) hn.2]
      congr 2
      refine List.filter_congr fun d hd => ?_
      have hne : d.id ≠ c.id := fun he => hn.1 (List.mem_map.mpr ⟨d, hd, he⟩)
      rw [takes, takes, hl _ hne]
    have hlook (x : String) (hx : x ≠ c.id) :
        (sinks.send c.id n feeds).2.lookup x = feeds.lookup x := by
      rw [lookup_send]
      simp [hx]
    unfold Relay.offer
    rw [hs c List.mem_cons_self]
    split
    · rename_i s hsend
      rw [hsend] at htaken hlook
      have hc : takes feeds c.id = true := htaken.symm
      rw [List.filter_cons_of_neg (by simp [hc])]
      exact hrest hlook
    · rename_i s hsend
      rw [hsend] at htaken hlook
      have hc : takes feeds c.id = false := htaken.symm
      rw [List.filter_cons_of_pos (by simp [hc])]
      refine hrest fun x hx => ?_
      change (changeFeed c.id Channel.close s).lookup x = _
      rw [lookup_changeFeed, hlook x hx]
      simp [hx]

theorem mem_forward (ht : h.Tuned) : d ∈ (h.forward session n).relay.connections ↔
    d ∈ h.relay.connections ∧ (d.session = session → takes h.feeds d.id = true) := by
  change d ∈ (Relay.offer sinks n (h.relay.targets session) h.relay h.feeds).2.1.connections ↔ _
  rw [offer_leaves (fun c hc => ht.sinks c (ht.relay.mem_targets.mp hc).1)
    (ht.relay.targets_nodup session), Relay.connections_removeAll, List.mem_filter]
  refine and_congr_right fun hd => ?_
  have hrefused : d.id ∈ ((h.relay.targets session).filter fun c => !takes h.feeds c.id).map
      Feed.Connection.id ↔ d.session = session ∧ takes h.feeds d.id = false := by
    simp only [List.mem_map, List.mem_filter, ht.relay.mem_targets, Bool.not_eq_true']
    constructor
    · rintro ⟨c, ⟨⟨hc, hcs⟩, hct⟩, hid⟩
      rw [← ht.relay.eq_of_id hc hd hid]
      exact ⟨hcs, hct⟩
    · rintro ⟨hds, hdt⟩
      exact ⟨d, ⟨⟨hd, hds⟩, hdt⟩, rfl⟩
  simp [hrefused, imp_iff_not_or]

theorem mem_closeFeeds (ht : h.Tuned) : d ∈ (h.closeFeeds session).relay.connections ↔
    d ∈ h.relay.connections ∧ d.session ≠ session := by
  change d ∈ (Relay.closeSession sinks h.relay session h.feeds).2.1.connections ↔ _
  rw [(ht.relay.closed sinks session h.feeds).left, List.mem_filter, decide_eq_true_eq]

theorem lookup_closeFeeds (ht : h.Tuned) : (h.closeFeeds session).feeds.lookup x =
    (h.feeds.lookup x).map fun c =>
      if x ∈ (h.relay.targets session).map Feed.Connection.id then c.close else c :=
  lookup_closeAll fun _ hd => ht.sinks _ (ht.relay.mem_targets.mp hd).1

theorem mem_unlisten : d ∈ (h.unlisten id).relay.connections ↔ d ∈ h.relay.connections ∧ d.id ≠ id := by
  change d ∈ (h.relay.remove id).connections ↔ _
  rw [Relay.connections_remove, List.mem_filter, bne_iff_ne]

theorem mem_listen : d ∈ (h.listen id session).relay.connections ↔
    d = ⟨id, session, id⟩ ∨ d ∈ h.relay.connections ∧ d.id ≠ id := by
  change d ∈ (h.relay.remove id).connections ++ [⟨id, session, id⟩] ↔ _
  rw [List.mem_append, Relay.connections_remove, List.mem_filter, bne_iff_ne, List.mem_singleton, or_comm]

/-! ### One feed -/

/-- Whether the relay has a connection of this id. -/
def IsOn (h : Hub) (id : String) : Prop := ∃ d ∈ h.relay.connections, d.id = id

/-- The relay's connection of this id, if it has one, listens to the session. -/
def Listens (h : Hub) (id session : String) : Prop :=
  ∀ d ∈ h.relay.connections, d.id = id → d.session = session

/-- A feed listens while its connection does. -/
theorem Listens.target_iff {s : String} (hl : h.Listens id session) (ht : h.Tuned) :
    id ∈ (h.relay.targets s).map Feed.Connection.id ↔ h.IsOn id ∧ s = session := by
  rw [List.mem_map]
  constructor
  · rintro ⟨d, htarget, hid⟩
    obtain ⟨hd, rfl⟩ := ht.relay.mem_targets.mp htarget
    exact ⟨⟨d, hd, hid⟩, hl d hd hid⟩
  · rintro ⟨⟨d, hd, hid⟩, rfl⟩
    exact ⟨d, ht.relay.mem_targets.mpr ⟨hd, hl d hd hid⟩, hid⟩

theorem Listens.aired (hl : h.Listens id session) (ht : h.Tuned) (a : Airing) :
    (h.aired a).Listens id session := by
  intro d hd hid
  cases a with
  | silence => exact hl d hd hid
  | notice s n => exact hl d ((mem_forward ht).mp hd).1 hid
  | close s => exact hl d ((mem_closeFeeds ht).mp hd).1 hid

/-- A connection stays when a notice is sent, unless its feed refuses it. -/
theorem Listens.isOn_forward {s : String} (hl : h.Listens id session) (ht : h.Tuned) :
    (h.forward s n).IsOn id ↔ h.IsOn id ∧ (s = session → takes h.feeds id = true) := by
  constructor
  · rintro ⟨d, hd, rfl⟩
    obtain ⟨hd, htakes⟩ := (mem_forward ht).mp hd
    exact ⟨⟨d, hd, rfl⟩, fun hs => htakes ((hl d hd rfl).trans hs.symm)⟩
  · rintro ⟨⟨d, hd, rfl⟩, htakes⟩
    exact ⟨d, (mem_forward ht).mpr ⟨hd, fun hs => htakes (hs.symm.trans (hl d hd rfl))⟩, rfl⟩

theorem Listens.isOn_closeFeeds {s : String} (hl : h.Listens id session) (ht : h.Tuned) :
    (h.closeFeeds s).IsOn id ↔ h.IsOn id ∧ s ≠ session := by
  constructor
  · rintro ⟨d, hd, rfl⟩
    obtain ⟨hd, hs⟩ := (mem_closeFeeds ht).mp hd
    exact ⟨⟨d, hd, rfl⟩, fun he => hs ((hl d hd rfl).trans he.symm)⟩
  · rintro ⟨⟨d, hd, rfl⟩, hs⟩
    exact ⟨d, (mem_closeFeeds ht).mpr ⟨hd, fun he => hs (he.symm.trans (hl d hd rfl))⟩, rfl⟩

end Hub

/-! ### One visit -/

namespace Visit

/-- Whether the browser is still to be told of its feed: it is there, was not refused, and has not come
to the feed's end. -/
def isServed (v : Visit) : Bool :=
  v.present && !v.feedEnded && match v.stage with
    | .ended (.error _) => false
    | _ => true

/-- Where a browser's feed stands, given what it was sent. -/
structure Follows (h : Hub) (v : Visit) (id : String) (t : Tape) : Prop where
  listens : h.Listens id v.errand.sessionId
  on : h.IsOn id ↔ v.isServed = true ∧ t.closed = false
  served : v.isServed = true → ∃ c, h.feeds.lookup id = some c ∧ c.abandoned = false ∧
    c.closed = t.closed ∧ v.received ++ c.queue = t.said ∧ Unended v.received
  yielded : v.received <+: upToTerminal t.said
  ended : v.feedEnded = true → v.received = upToTerminal t.said ∧ t.isDone = true
  answered : v.feedEnded = true → v.stage.outcome? ≠ none

variable {h g : Hub} {v w : Visit} {id : String} {t : Tape} {c : Channel}

theorem Follows.served_aired (hf : v.Follows h id t) (ht : h.Tuned) (a : Airing)
    (hv : v.isServed = true) : ∃ c, (h.aired a).feeds.lookup id = some c ∧ c.abandoned = false ∧
      c.closed = (t.hear v.errand.sessionId a).closed ∧
      v.received ++ c.queue = (t.hear v.errand.sessionId a).said ∧ Unended v.received := by
  obtain ⟨c, hc, habandoned, hclosed, hsaid, hun⟩ := hf.served hv
  have hon : h.IsOn id ↔ t.closed = false := by rw [hf.on]; simp [hv]
  cases a with
  | silence => exact ⟨c, hc, habandoned, hclosed, hsaid, hun⟩
  | notice s n =>
    have hl : (h.forward s n).feeds.lookup id = _ := Hub.lookup_forward ht s n id
    simp only [hf.listens.target_iff ht, hon, hc, Option.map_some] at hl
    by_cases hs : t.closed = false ∧ s = v.errand.sessionId
    · have haccepts : c.accepts = true := by simp [Channel.accepts, habandoned, hclosed, hs.1]
      rw [if_pos hs, Channel.offered, if_pos haccepts] at hl
      refine ⟨_, hl, habandoned, ?_, ?_, hun⟩
      · rw [Tape.closed_hear]
        simpa using hclosed
      · rw [Tape.hear, if_pos hs.symm, ← hsaid, List.append_assoc]
    · rw [if_neg hs] at hl
      rw [Tape.hear, if_neg fun he => hs he.symm]
      exact ⟨c, hl, habandoned, hclosed, hsaid, hun⟩
  | close s =>
    have hl : (h.closeFeeds s).feeds.lookup id = _ := Hub.lookup_closeFeeds ht
    simp only [hf.listens.target_iff ht, hon, hc, Option.map_some] at hl
    by_cases hs : s = v.errand.sessionId
    · rw [Tape.hear, if_pos hs]
      refine ⟨_, hl, ?_, ?_, ?_, hun⟩
      · split <;> exact habandoned
      · split
        · rfl
        · rename_i hover
          simpa [hs, hclosed] using hover
      · split <;> exact hsaid
    · rw [if_neg fun he => hs he.2] at hl
      rw [Tape.hear, if_neg hs]
      exact ⟨c, hl, habandoned, hclosed, hsaid, hun⟩

/-- What is sent reaches the feed of a browser that is served, and no other browser's stream. -/
theorem Follows.aired (hf : v.Follows h id t) (ht : h.Tuned) (a : Airing) :
    v.Follows (h.aired a) id (t.hear v.errand.sessionId a) := by
  refine ⟨hf.listens.aired ht a, ?_, hf.served_aired ht a, hf.yielded.trans (t.hear_grows _ a),
    fun he => ?_, hf.answered⟩
  · rw [Tape.closed_hear]
    cases a with
    | silence => simpa [Hub.aired] using hf.on
    | notice s n =>
      rw [show h.aired (.notice s n) = h.forward s n from rfl, hf.listens.isOn_forward ht, hf.on]
      refine ⟨fun hon => by simpa using hon.1, fun hon => ?_⟩
      have hon : v.isServed = true ∧ t.closed = false := by simpa using hon
      obtain ⟨c, hc, habandoned, hclosed, _⟩ := hf.served hon.1
      exact ⟨hon, fun _ => by simp [Hub.takes, hc, Channel.accepts, habandoned, hclosed, hon.2]⟩
    | close s =>
      rw [show h.aired (.close s) = h.closeFeeds s from rfl, hf.listens.isOn_closeFeeds ht, hf.on]
      simp [and_assoc]
  · obtain ⟨hreceived, hdone⟩ := hf.ended he
    obtain ⟨hsaid, hdone'⟩ := Tape.hear_done hdone v.errand.sessionId a
    exact ⟨hreceived.trans hsaid.symm, hdone'⟩

/-- A visit follows its feed where its connection and its feed are as they were. -/
theorem Follows.same (hf : v.Follows h id t)
    (hc : ∀ d, d.id = id → (d ∈ g.relay.connections ↔ d ∈ h.relay.connections))
    (hl : g.feeds.lookup id = h.feeds.lookup id) (errand : w.errand = v.errand)
    (received : w.received = v.received) (served : w.isServed = v.isServed)
    (ended : w.feedEnded = v.feedEnded) (answered : w.feedEnded = true → w.stage.outcome? ≠ none) :
    w.Follows g id t := by
  have hon : g.IsOn id ↔ h.IsOn id :=
    exists_congr fun d => and_congr_left fun hd => hc d hd
  refine ⟨fun d hd hid => ?_, ?_, ?_, ?_, ?_, answered⟩
  · rw [errand]
    exact hf.listens d ((hc d hid).mp hd) hid
  · rw [hon, served]
    exact hf.on
  · rw [served, hl, received]
    exact hf.served
  · rw [received]
    exact hf.yielded
  · rw [ended, received]
    exact hf.ended

theorem Follows.of_air (hf : v.Follows h id t) (air : g.air = h.air) : v.Follows g id t := by
  obtain ⟨hr, hfeeds⟩ := Prod.mk.injEq .. ▸ air
  exact hf.same (fun d _ => by rw [hr]) (by rw [hfeeds]) rfl rfl rfl rfl hf.answered

/-- What is done with the feed of another browser is nothing to this one. -/
theorem Follows.others_unlisten {other : String} (hf : v.Follows h id t) (hne : other ≠ id) :
    v.Follows (h.unlisten other) id t := by
  refine hf.same (fun d hd => ?_) ?_ rfl rfl rfl rfl hf.answered
  · rw [Hub.mem_unlisten]
    exact and_iff_left fun he => hne (he.symm.trans hd)
  · change (Hub.changeFeed other Channel.abandon h.feeds).lookup id = _
    rw [Hub.lookup_changeFeed]
    simp [Ne.symm hne]

theorem Follows.others_change {other : String} (hf : v.Follows h id t) (hne : other ≠ id)
    (f : Channel → Channel) :
    v.Follows { h with feeds := Hub.changeFeed other f h.feeds } id t := by
  refine hf.same (fun d _ => Iff.rfl) ?_ rfl rfl rfl rfl hf.answered
  change (Hub.changeFeed other f h.feeds).lookup id = _
  rw [Hub.lookup_changeFeed]
  simp [Ne.symm hne]

theorem Follows.others_listen {other : String} (hf : v.Follows h id t) (hne : other ≠ id)
    (session : String) : v.Follows (h.listen other session) id t := by
  refine hf.same (fun d hd => ?_) ?_ rfl rfl rfl rfl hf.answered
  · rw [Hub.mem_listen]
    constructor
    · rintro (rfl | ⟨hmem, _⟩)
      · exact absurd hd hne
      · exact hmem
    · exact fun hmem => .inr ⟨hmem, fun he => hne (he.symm.trans hd)⟩
  · have hb : (id == other) = false := by simpa using Ne.symm hne
    simp [Hub.listen, List.lookup_append, List.lookup_cons, hb]

/-- A new feed has been sent nothing. -/
theorem follows_listen (hfresh : h.feeds.lookup id = none) (hv : v.isServed = true)
    (received : v.received = []) (ended : v.feedEnded = false) :
    v.Follows (h.listen id v.errand.sessionId) id {} := by
  refine ⟨fun d hd hid => ?_, ?_, fun _ => ⟨{}, ?_, rfl, rfl, by rw [received]; rfl, ?_⟩, ?_, ?_, ?_⟩
  · rcases Hub.mem_listen.mp hd with rfl | ⟨_, hne⟩
    · rfl
    · exact absurd hid hne
  · simp only [hv, true_and, iff_true]
    exact ⟨_, Hub.mem_listen.mpr (.inl rfl), rfl⟩
  · simp [Hub.listen, List.lookup_append, hfresh]
  · rw [received]
    exact nofun
  · rw [received]
    exact List.nil_prefix
  · rw [ended]
    exact nofun
  · rw [ended]
    exact nofun

/-- A browser that is no longer served, for whatever reason, has no connection left. -/
theorem follows_unlisten (h : Hub) (served : w.isServed = false)
    (yielded : w.received <+: upToTerminal t.said)
    (ended : w.feedEnded = true → w.received = upToTerminal t.said ∧ t.isDone = true)
    (answered : w.feedEnded = true → w.stage.outcome? ≠ none) : w.Follows (h.unlisten id) id t := by
  refine ⟨fun d hd hid => ?_, ?_, fun hw => ?_, yielded, ended, answered⟩
  · exact absurd hid (Hub.mem_unlisten.mp hd).2
  · simp only [served, Bool.false_eq_true, false_and, iff_false]
    rintro ⟨d, hd, hid⟩
    exact (Hub.mem_unlisten.mp hd).2 hid
  · rw [served] at hw
    cases hw

end Visit

end Fleet.Control
