import Fleet.Proofs.Control.Visits
import Fleet.Proofs.Tables

/-!
Whose events a browser's stream yields. The feed of a message is there before anyone has asked whose
the session is, and it stays when the session changes hands. So a stream yields events of another
user's machine exactly when it took them in while the session was routed to that user.
-/

namespace Fleet.Feed.Channel

/-- What was read and what waits is what the feed took in, or its beginning once it was abandoned. -/
structure Carries (c : Channel) (received taken : List Notice) : Prop where
  start : received ++ c.queue <+: taken
  whole : c.abandoned = false → received ++ c.queue = taken

variable {c d : Channel} {received heard rest : List Notice} {n : Notice}

theorem Carries.fades (h : c.Carries received heard) (hd : c.Fades d) : d.Carries received heard := by
  rcases hd with ⟨hq, ha⟩ | ⟨hq, ha⟩
  · exact ⟨hq ▸ h.start, fun hn => hq ▸ h.whole (ha ▸ hn)⟩
  · refine ⟨?_, fun hn => ?_⟩
    · rw [hq, List.append_nil]
      exact (List.prefix_append received c.queue).trans h.start
    · rw [ha] at hn
      cases hn

theorem Carries.read (h : c.Carries received heard) (hq : c.queue = n :: rest) :
    ({ c with queue := rest } : Channel).Carries (received ++ [n]) heard := by
  have he : received ++ [n] ++ rest = received ++ c.queue := by simp [hq]
  exact ⟨he ▸ h.start, fun hn => he ▸ h.whole hn⟩

theorem Carries.taken (h : c.Carries received heard) (ha : c.accepts = true) :
    (c.offered n).Carries received (heard ++ [n]) := by
  have hn : c.abandoned = false := by
    simp only [accepts, Bool.and_eq_true, Bool.not_eq_true'] at ha
    exact ha.2
  have he : received ++ (c.queue ++ [n]) = heard ++ [n] := by
    rw [← List.append_assoc, h.whole hn]
  simp only [offered, ha, ↓reduceIte]
  exact ⟨he ▸ List.prefix_rfl, fun _ => he⟩

theorem Fades.length_le (h : c.Fades d) : d.queue.length ≤ c.queue.length := by
  rcases h with ⟨hq, _⟩ | ⟨hq, _⟩ <;> simp [hq]

end Fleet.Feed.Channel

namespace Fleet.Control

open Hub
open Feed (Channel Notice Relay)

/-- What was seen of one visit: the events that its feed took in, and the users whom its session
belonged to. -/
structure Account where
  taken : List Sent := []
  owners : List String := []
  deriving DecidableEq

namespace Plane

/-- What waits in a visit's feed. -/
def queued (p : Plane) (v : Visit) : List Notice :=
  ((v.feed.bind fun id => p.hub.feeds.lookup id).map Channel.queue).getD []

end Plane

/-- An event that is heard while a feed grows is what the feed took in. -/
def Account.note (a : Account) (v : Visit) (p q : Plane) (e : Option Sent) : Account where
  taken := if (p.queued v).length < (q.queued v).length then a.taken ++ e.toList else a.taken
  owners := a.owners ++ (q.hub.owner? v.errand.sessionId).toList

namespace Plane

/-- What is seen of a visit, from its beginning, over a run. -/
def account (n : Nat) : List Turn → Plane → Account → Account
  | [], _, a => a
  | t :: rest, p, a =>
    account n rest (p.take t)
      (match (p.take t).visits[n]? with
        | some v => a.note v p (p.take t) (p.event? t.act)
        | none => a)

/-- Each visit that has a feed has one of its own. -/
structure Wired (p : Plane) : Prop where
  tuned : p.hub.Tuned
  keys : p.hub.feeds.map Prod.fst = p.visits.filterMap Visit.feed
  distinct : (p.visits.filterMap Visit.feed).Nodup

variable {p q : Plane} {t : Turn} {turns : List Turn} {n : Nat} {v w : Visit} {a : Account}
  {id : String}

theorem Still.feeds (h : Still p q) :
    q.visits.filterMap Visit.feed = p.visits.filterMap Visit.feed := by
  have : ∀ {xs ys : List Visit}, List.Forall₂ (fun v w => v.Onward w q.hub) xs ys →
      ys.filterMap Visit.feed = xs.filterMap Visit.feed := by
    intro xs ys hf
    induction hf with
    | nil => rfl
    | cons hv _ ih => simp only [List.filterMap_cons, hv.feed, ih]
  exact this h.visits

/-- The feeds that there are after a turn: those from before, and perhaps that of a new visit. -/
theorem Stir.feeds (h : Stir p t q) : q.visits.filterMap Visit.feed = p.visits.filterMap Visit.feed ∨
    q.visits.filterMap Visit.feed = p.visits.filterMap Visit.feed ++ [feedId t] := by
  cases h with
  | still h => exact .inl h.feeds
  | relayed e heard owned hub visits => exact .inl (by rw [visits])
  | read n v id c x rest o there feed stage found queue hub last visits silent =>
    exact .inl (by rw [visits]; exact filterMap_set there rfl)
  | came v received visits out hub =>
    rw [visits, List.filterMap_append]
    rcases hub with ⟨hf, _⟩ | ⟨hf, _⟩
    · exact .inl (by simp [hf])
    · exact .inr (by simp [hf])

theorem Stir.length_le (h : Stir p t q) : p.visits.length ≤ q.visits.length := by
  cases h with
  | still h => exact Nat.le_of_eq h.visits.length_eq
  | relayed e heard owned hub visits => exact Nat.le_of_eq (congrArg List.length visits).symm
  | read n v id c x rest o there feed stage found queue hub last visits silent => simp [visits]
  | came v received visits out hub => simp [visits]

theorem length_le_play (turns : List Turn) (p : Plane) :
    p.visits.length ≤ (play turns p).visits.length := by
  induction turns generalizing p with
  | nil => exact Nat.le_refl _
  | cons t rest ih => exact Nat.le_trans (stir_take p t).length_le (ih _)

theorem Wired.step (hw : p.Wired) (h : Stir p t q) (hn : feedId t ∉ p.visits.filterMap Visit.feed) :
    q.Wired := by
  cases h with
  | still h =>
    exact ⟨h.hub.tuned hw.tuned, by rw [h.hub.keys, h.feeds, hw.keys], by rw [h.feeds]; exact hw.distinct⟩
  | relayed e heard owned hub visits =>
    refine ⟨hub ▸ (hw.tuned.forward e.session e.notice).1, ?_, by rw [visits]; exact hw.distinct⟩
    rw [hub, visits, keys_forward, hw.keys]
  | read n v id c x rest o there feed stage found queue hub last visits silent =>
    have hv : q.visits.filterMap Visit.feed = p.visits.filterMap Visit.feed := by
      rw [visits]
      exact filterMap_set there rfl
    refine ⟨hub.tuned ⟨hw.tuned.relay, hw.tuned.sinks⟩, ?_, by rw [hv]; exact hw.distinct⟩
    rw [hub.keys, hv, ← hw.keys]
    exact keys_changeFeed id (fun _ => { c with queue := rest }) p.hub.feeds
  | came v received visits out hub =>
    rcases hub with ⟨hf, hub⟩ | ⟨hf, _, hub⟩
    · have hv : q.visits.filterMap Visit.feed = p.visits.filterMap Visit.feed := by
        simp [visits, hf]
      exact ⟨hub.tuned hw.tuned, by rw [hub.keys, hv, hw.keys], by rw [hv]; exact hw.distinct⟩
    · have hv : q.visits.filterMap Visit.feed = p.visits.filterMap Visit.feed ++ [feedId t] := by
        simp [visits, hf]
      refine ⟨hub.tuned (hw.tuned.listen _ _), ?_, ?_⟩
      · rw [hub.keys, hv, ← hw.keys]
        simp [Hub.listen]
      · rw [hv]
        refine List.nodup_append.mpr ⟨hw.distinct, List.nodup_singleton _, ?_⟩
        intro x hx y hy hxy
        rw [List.mem_singleton] at hy
        exact hn (hy ▸ hxy ▸ hx)

/-- The turns to come bring registrations that are new. -/
structure Ahead (turns : List Turn) (p : Plane) : Prop where
  wired : p.Wired
  unused : ∀ t ∈ turns, feedId t ∉ p.visits.filterMap Visit.feed
  distinct : (turns.map Turn.fresh).Nodup

theorem Ahead.step (ha : Ahead (t :: turns) p) : Ahead turns (p.take t) := by
  have hs := stir_take p t
  have hd := List.nodup_cons.mp (List.map_cons ▸ ha.distinct)
  refine ⟨ha.wired.step hs (ha.unused t List.mem_cons_self), fun u hu hm => ?_, hd.2⟩
  have hold := ha.unused u (List.mem_cons_of_mem _ hu)
  rcases hs.feeds with he | he
  · exact hold (he ▸ hm)
  · rw [he, List.mem_append, List.mem_singleton] at hm
    rcases hm with hm | hm
    · exact hold hm
    · exact hd.1 (List.mem_map.mpr ⟨u, hu, (String.append_right_inj "sse-").mp hm⟩)

theorem wired_start (settings : Settings.ControlPlane) (policy : Vm.Policy) (store : Vm.Store)
    (secrets : List (String × String)) (router : Router) :
    (start settings policy store secrets router).Wired :=
  ⟨⟨Relay.Sound.empty, fun _ h => (List.not_mem_nil h).elim⟩, rfl, List.nodup_nil⟩

/-- What an account says of a visit. -/
structure Told (p : Plane) (v : Visit) (a : Account) : Prop where
  /-- The user whom the session belongs to now is among those it belonged to. -/
  owners : ∀ u, p.hub.owner? v.errand.sessionId = some u → u ∈ a.owners
  owned : ∀ e ∈ a.taken, e.owner = some e.sender ∧ e.sender ∈ a.owners
  /-- Where a message went out, the session was its user's. -/
  out : v.feed.isSome = true → v.stage.isOut = true → v.errand.userId ∈ a.owners
  message : v.feed.isSome = true → ∃ org request, v.errand.ask = .message org request
  deaf : v.feed = none → v.received = []
  ended : v.received ≠ [] → ∃ o, v.stage = .ended (.ok o)
  listens : ∀ id, v.feed = some id → ∀ c ∈ p.hub.relay.connections, c.id = id →
    c.session = v.errand.sessionId
  carries : ∀ id, v.feed = some id → ∃ c, p.hub.feeds.lookup id = some c ∧
    c.Carries v.received (a.taken.map Sent.notice)

theorem queued_eq {c : Channel} (hf : v.feed = some id) (hc : p.hub.feeds.lookup id = some c) :
    p.queued v = c.queue := by simp [queued, hf, hc]

theorem note_owner (a : Account) (e : Option Sent) {u : String}
    (h : q.hub.owner? v.errand.sessionId = some u) : u ∈ (a.note v p q e).owners := by
  simp [Account.note, h]

theorem note_owners (a : Account) (e : Option Sent) {u : String} (h : u ∈ a.owners) :
    u ∈ (a.note v p q e).owners := List.mem_append_left _ h

/-- Nothing is noted as taken where the feed did not grow. -/
theorem note_taken (a : Account) (e : Option Sent) (h : ∀ id, v.feed = some id →
    ∃ c d, p.hub.feeds.lookup id = some c ∧ q.hub.feeds.lookup id = some d ∧
      d.queue.length ≤ c.queue.length) : (a.note v p q e).taken = a.taken := by
  cases hf : v.feed with
  | none => simp [Account.note, queued, hf]
  | some id =>
    obtain ⟨c, d, hc, hd, hle⟩ := h id hf
    simp [Account.note, queued_eq hf hc, queued_eq hf hd, Nat.not_lt.mpr hle]

/-- The feed of a visit took nothing in. -/
structure Spared (p q : Plane) (v : Visit) : Prop where
  connections : ∀ id, v.feed = some id → ∀ c ∈ q.hub.relay.connections, c.id = id →
    c ∈ p.hub.relay.connections
  fades : ∀ id c, v.feed = some id → p.hub.feeds.lookup id = some c →
    ∃ d, q.hub.feeds.lookup id = some d ∧ c.Fades d

theorem Told.onward (h : Told p v a) (hs : Spared p q v) (hv : v.Onward w q.hub)
    (e : Option Sent) : Told q w (a.note w p q e) := by
  have htaken : (a.note w p q e).taken = a.taken := by
    refine note_taken a e fun id hf => ?_
    obtain ⟨c, hc, _⟩ := h.carries id (hv.feed ▸ hf)
    obtain ⟨d, hd, hcd⟩ := hs.fades id c (hv.feed ▸ hf) hc
    exact ⟨c, d, hc, hd, hcd.length_le⟩
  refine ⟨fun u hu => note_owner a e hu, ?_, ?_, ?_, ?_, ?_, ?_, ?_⟩
  · intro x hx
    rw [htaken] at hx
    exact ⟨(h.owned x hx).1, note_owners a e (h.owned x hx).2⟩
  · intro hf hout
    rw [hv.feed] at hf
    obtain ⟨org, request, ha⟩ := h.message hf
    rw [hv.errand]
    rcases hv.out org request ha hout with hout | ho
    · exact note_owners a e (h.out hf hout)
    · exact note_owner a e (by rw [hv.errand]; exact ho)
  · rw [hv.feed, hv.errand]
    exact h.message
  · rw [hv.feed, hv.received]
    exact h.deaf
  · rw [hv.received]
    intro hr
    obtain ⟨o, ho⟩ := h.ended hr
    exact ⟨o, (hv.ended _ ho).trans ho⟩
  · intro id hf c hc he
    rw [hv.feed] at hf
    rw [hv.errand]
    exact h.listens id hf c (hs.connections id hf c hc he) he
  · intro id hf
    rw [hv.feed] at hf
    obtain ⟨c, hc, hcar⟩ := h.carries id hf
    obtain ⟨d, hd, hcd⟩ := hs.fades id c hf hc
    rw [htaken, hv.received]
    exact ⟨d, hd, hcar.fades hcd⟩

/-- The owner that an event was heard under is that of the session then. -/
theorem event?_owner {act : Act} {e : Sent} (h : p.event? act = some e) :
    e.owner = p.hub.owner? e.session := by
  unfold event? at h
  split at h
  · obtain ⟨s, _, h⟩ := Option.bind_eq_some_iff.mp h
    unfold Socket.event? at h
    split at h
    · obtain ⟨c, _, h⟩ := Option.bind_eq_some_iff.mp h
      split at h
      · cases h
      · split at h
        · cases h
          rfl
        · cases h
    · cases h
  · cases h

theorem Told.relayed (h : Told p v a) (hw : p.Wired) {e : Sent} {act : Act}
    (heard : p.event? act = some e) (owned : e.owner = some e.sender)
    (hub : q.hub = p.hub.forward e.session e.notice) :
    Told q v (a.note v p q (some e)) := by
  have hfeed {id : String} (hf : v.feed = some id) : ∃ c d, p.hub.feeds.lookup id = some c ∧
      q.hub.feeds.lookup id = some d ∧
      ((e.session = v.errand.sessionId ∧ c.accepts = true ∧ d = c.offered e.notice) ∨
        c.Fades d) := by
    obtain ⟨c, hc, _⟩ := h.carries id hf
    have hl := lookup_forward hw.tuned e.session e.notice id
    rw [← hub, hc, Option.map_some] at hl
    refine ⟨c, _, hc, hl, ?_⟩
    split
    · rename_i hm
      cases ha : c.accepts with
      | true =>
        obtain ⟨d, hd, he⟩ := List.mem_map.mp hm
        obtain ⟨hd, hs⟩ := hw.tuned.relay.mem_targets.mp hd
        exact .inl ⟨hs.symm.trans (h.listens id hf d hd he), rfl, rfl⟩
      | false =>
        refine .inr ?_
        simp only [Channel.offered, ha, Bool.false_eq_true, ↓reduceIte]
        exact c.close_fades
    · exact .inr (.refl c)
  have hgrew {id : String} (hf : v.feed = some id) {c d : Channel}
      (hc : p.hub.feeds.lookup id = some c) (hd : q.hub.feeds.lookup id = some d)
      (ha : c.accepts = true) (he : d = c.offered e.notice) :
      (a.note v p q (some e)).taken = a.taken ++ [e] := by
    subst he
    simp [Account.note, queued_eq hf hc, queued_eq hf hd, Channel.offered, ha]
  refine ⟨fun u hu => note_owner a _ hu, ?_, fun hf ho => note_owners a _ (h.out hf ho), h.message,
    h.deaf, h.ended, ?_, ?_⟩
  · intro x hx
    have hold : x ∈ a.taken → x.owner = some x.sender ∧ x.sender ∈ (a.note v p q (some e)).owners :=
      fun hx => ⟨(h.owned x hx).1, note_owners a _ (h.owned x hx).2⟩
    cases hf : v.feed with
    | none =>
      rw [note_taken a _ fun id hid => by rw [hf] at hid; cases hid] at hx
      exact hold hx
    | some id =>
      obtain ⟨c, d, hc, hd, ⟨hs, ha, he⟩ | hfade⟩ := hfeed hf
      · rw [hgrew hf hc hd ha he, List.mem_append, List.mem_singleton] at hx
        rcases hx with hx | rfl
        · exact hold hx
        · refine ⟨owned, note_owners a _ (h.owners _ ?_)⟩
          rw [← hs, ← event?_owner heard, owned]
      · rw [note_taken a _ fun i hi => by
          rw [hf, Option.some.injEq] at hi
          exact hi ▸ ⟨c, d, hc, hd, hfade.length_le⟩] at hx
        exact hold hx
  · intro id hf c hc
    rw [hub] at hc
    exact h.listens id hf c ((hw.tuned.forward e.session e.notice).2 hc)
  · intro id hf
    obtain ⟨c', hc', hcar⟩ := h.carries id hf
    obtain ⟨c, d, hc, hd, hcase⟩ := hfeed hf
    rw [Option.some.inj (hc'.symm.trans hc)] at hcar
    refine ⟨d, hd, ?_⟩
    rcases hcase with ⟨_, ha, he⟩ | hfade
    · rw [hgrew hf hc hd ha he, he, List.map_append]
      exact hcar.taken ha
    · rw [note_taken a _ fun i hi => by
        rw [hf, Option.some.injEq] at hi
        exact hi ▸ ⟨c, d, hc, hd, hfade.length_le⟩]
      exact hcar.fades hfade

/-- The browser of the visit takes the oldest notice out of its feed. -/
theorem Told.read (h : Told p v a) (hw : p.Wired) {c : Channel} {x : Notice} {rest : List Notice}
    (feed : v.feed = some id) (stage : ∃ o, v.stage = .ended (.ok o))
    (found : p.hub.feeds.lookup id = some c) (queue : c.queue = x :: rest)
    (hub : Quiet { p.hub with
      feeds := changeFeed id (fun _ => { c with queue := rest }) p.hub.feeds } q.hub)
    (hw' : w = { v with received := v.received ++ [x], feedEnded := w.feedEnded }) :
    Told q w (a.note w p q none) := by
  have htaken : (a.note w p q none).taken = a.taken := by simp [Account.note]
  have hf : w.feed = v.feed := by rw [hw']
  have he : w.errand = v.errand := by rw [hw']
  have hs : w.stage = v.stage := by rw [hw']
  have hr : w.received = v.received ++ [x] := by rw [hw']
  refine ⟨fun u hu => note_owner a none hu, ?_, ?_, ?_, ?_, ?_, ?_, ?_⟩
  · intro e hx
    rw [htaken] at hx
    exact ⟨(h.owned e hx).1, note_owners a none (h.owned e hx).2⟩
  · rw [hf, hs, he]
    exact fun hv ho => note_owners a none (h.out hv ho)
  · rw [hf, he]
    exact h.message
  · rw [hf, feed]
    intro hn
    cases hn
  · rw [hs]
    exact fun _ => stage
  · rw [hf, he]
    exact fun i hi d hd => h.listens i hi d (hub.connections hd)
  · intro i hi
    rw [hf, feed, Option.some.injEq] at hi
    subst hi
    obtain ⟨c', hc', hcar⟩ := h.carries id feed
    rw [Option.some.inj (hc'.symm.trans found)] at hcar
    have hl := lookup_changeFeed id id (fun _ => { c with queue := rest }) p.hub.feeds
    rw [found, Option.map_some, if_pos rfl] at hl
    obtain ⟨d, hd, hcd⟩ := hub.fades ⟨hw.tuned.relay, hw.tuned.sinks⟩ id _ hl
    rw [htaken, hr]
    exact ⟨d, hd, (hcar.read queue).fades hcd⟩

/-- A new visit has taken nothing in and received nothing. -/
theorem Told.came (hw : p.Wired) (hn : feedId t ∉ p.visits.filterMap Visit.feed)
    (received : v.received = [])
    (out : ∀ org request, v.errand.ask = .message org request → v.stage.isOut = false)
    (hub : (v.feed = none ∧ Quiet p.hub q.hub) ∨
      (v.feed = some (feedId t) ∧ (∃ org request, v.errand.ask = .message org request) ∧
        Quiet (p.hub.listen (feedId t) v.errand.sessionId) q.hub)) (e : Option Sent) :
    Told q v (({} : Account).note v p q e) := by
  rcases hub with ⟨hf, hub⟩ | ⟨hf, ⟨org, request, ha⟩, hub⟩
  · have htaken : (({} : Account).note v p q e).taken = [] :=
      note_taken _ e fun id hid => by rw [hf] at hid; cases hid
    refine ⟨fun u hu => note_owner _ e hu, ?_, ?_, ?_, fun _ => received, ?_, ?_, ?_⟩
    · intro x hx
      rw [htaken] at hx
      cases hx
    · simp [hf]
    · simp [hf]
    · exact fun hr => absurd received hr
    · simp [hf]
    · simp [hf]
  · have hfresh : p.hub.feeds.lookup (feedId t) = none :=
      Relay.lookup_of_fresh (by rw [hw.keys]; exact hn)
    have hnew : (p.hub.listen (feedId t) v.errand.sessionId).feeds.lookup (feedId t) =
        some {} := by
      simp [Hub.listen, List.lookup_append, hfresh]
    obtain ⟨d, hd, hcd⟩ := hub.fades (hw.tuned.listen _ _) _ _ hnew
    have htaken : (({} : Account).note v p q e).taken = [] := by
      have hle := hcd.length_le
      have hq : (p.queued v).length = 0 := by simp [queued, hf, hfresh]
      have hlt : ¬ (p.queued v).length < (q.queued v).length := by
        rw [hq, queued_eq hf hd]
        exact Nat.not_lt.mpr hle
      simp only [Account.note, hlt, ↓reduceIte]
    refine ⟨fun u hu => note_owner _ e hu, ?_, ?_, fun _ => ⟨org, request, ha⟩, fun _ => received,
      ?_, ?_, ?_⟩
    · intro x hx
      rw [htaken] at hx
      cases hx
    · intro _ ho
      rw [out org request ha] at ho
      cases ho
    · exact fun hr => absurd received hr
    · intro id hid c hc he
      rw [hf, Option.some.injEq] at hid
      rcases Relay.mem_register (hub.connections hc) with rfl | ⟨_, hne⟩
      · rfl
      · exact absurd (he.trans hid.symm) hne
    · intro id hid
      rw [hf, Option.some.injEq] at hid
      subst hid
      rw [htaken, received]
      have hempty : ({} : Channel).Carries [] [] := ⟨List.prefix_rfl, fun _ => rfl⟩
      exact ⟨d, hd, hempty.fades hcd⟩

/-- A feed that belongs to a visit belongs to no other. -/
theorem Wired.feed_unique (hw : p.Wired) {m : Nat} (hv : p.visits[n]? = some v)
    (hm : p.visits[m]? = some w) (hf : v.feed = some id) (hg : w.feed = some id) : m = n :=
  place_unique hw.distinct hm hv hg hf

theorem Still.spared (hs : Still p q) (hw : p.Wired) (v : Visit) : Spared p q v :=
  ⟨fun _ _ _ hc _ => hs.hub.connections hc, fun id c _ hc => hs.hub.fades hw.tuned id c hc⟩

/-- The visits that there are after a turn, and what can be said of them. -/
theorem Told.step (hw : p.Wired) (hs : Stir p t q)
    (hn : feedId t ∉ p.visits.filterMap Visit.feed) (hw' : q.visits[n]? = some w)
    (told : ∀ v, p.visits[n]? = some v → Told p v a) (blank : p.visits[n]? = none → a = {}) :
    Told q w (a.note w p q (p.event? t.act)) := by
  cases hs with
  | still h =>
    have hlen := h.visits.length_eq
    obtain ⟨hlt, hget⟩ := List.getElem?_eq_some_iff.mp hw'
    have hv := List.getElem?_eq_getElem (l := p.visits) (i := n) (hlen ▸ hlt)
    have hon := h.visits.get (hlen ▸ hlt) hlt
    simp only [List.get_eq_getElem, hget] at hon
    exact (told _ hv).onward (h.spared hw _) hon _
  | relayed e heard owned hub visits =>
    rw [heard]
    exact (told w (visits ▸ hw')).relayed hw heard owned hub
  | read m v id c x rest o there feed stage found queue hub last visits silent =>
    rw [visits] at hw'
    by_cases hm : m = n
    · subst hm
      rw [List.getElem?_set_self (List.getElem?_eq_some_iff.mp there).1, Option.some.injEq] at hw'
      subst hw'
      rw [silent]
      exact (told v there).read hw feed ⟨o, stage⟩ found queue hub rfl
    · rw [List.getElem?_set_ne hm] at hw'
      refine (told w hw').onward ⟨fun _ _ d hd _ => hub.connections hd, fun i d hf hd => ?_⟩
        (.refl w _) _
      have hne : i ≠ id := fun he => hm (hw.feed_unique hw' there (he ▸ hf) feed)
      refine hub.fades ⟨hw.tuned.relay, hw.tuned.sinks⟩ i d ?_
      rw [lookup_changeFeed, hd]
      simp [hne]
  | came v received visits out hub =>
    rw [visits] at hw'
    rcases Nat.lt_or_ge n p.visits.length with hlt | hge
    · rw [List.getElem?_append_left hlt] at hw'
      refine (told w hw').onward ⟨fun id hf c hc he => ?_, fun id c hf hc => ?_⟩ (.refl w _) _
      · rcases hub with ⟨_, hub⟩ | ⟨_, _, hub⟩
        · exact hub.connections hc
        · rcases Relay.mem_register (hub.connections hc) with rfl | ⟨hc, _⟩
          · exact absurd (List.mem_filterMap.mpr ⟨w, List.mem_of_getElem? hw', hf⟩) (he ▸ hn)
          · exact hc
      · rcases hub with ⟨_, hub⟩ | ⟨_, _, hub⟩
        · exact hub.fades hw.tuned id c hc
        · refine hub.fades (hw.tuned.listen _ _) id c ?_
          simp [Hub.listen, List.lookup_append, hc]
    · rw [List.getElem?_append_right hge] at hw'
      obtain rfl := List.mem_singleton.mp (List.mem_of_getElem? hw')
      rw [blank (List.getElem?_eq_none hge)]
      exact Told.came hw hn received out hub _

/-- The account of a visit is right after a run, if it was right before. -/
theorem told_account (ha : Ahead turns p) (told : ∀ v, p.visits[n]? = some v → Told p v a)
    (blank : p.visits[n]? = none → a = {}) (hv : (play turns p).visits[n]? = some v) :
    Told (play turns p) v (account n turns p a) := by
  induction turns generalizing p a with
  | nil => exact told v hv
  | cons t rest ih =>
    have hs := stir_take p t
    have hn := ha.unused t List.mem_cons_self
    refine ih ha.step (fun w hw => ?_) (fun hnone => ?_) hv
    · rw [hw]
      exact Told.step ha.wired hs hn hw told blank
    · rw [hnone]
      refine blank (List.getElem?_eq_none ?_)
      exact Nat.le_trans hs.length_le (List.getElem?_eq_none_iff.mp hnone)

/-- A stream yields what its feed took in, in that order. It yields only events of its own user's
machine exactly when each of them came while the session was routed to that user, and so it does
whenever the session was not routed to two users since the browser asked. -/
theorem stream_is_isolated_iff (settings : Settings.ControlPlane) (policy : Vm.Policy)
    (store : Vm.Store) (secrets : List (String × String)) (router : Router) (turns : List Turn)
    (fresh : (turns.map Turn.fresh).Nodup) (n : Nat) (v : Visit)
    (there : (play turns (start settings policy store secrets router)).visits[n]? = some v) :
    let seen := account n turns (start settings policy store secrets router) {}
    let shown := seen.taken.take v.received.length
    v.received = shown.map Sent.notice ∧
    ((∀ e ∈ shown, e.sender = v.errand.userId) ↔
      ∀ e ∈ shown, e.owner = some v.errand.userId) ∧
    ((∀ u ∈ seen.owners, ∀ u' ∈ seen.owners, u = u') → ∀ e ∈ shown, e.sender = v.errand.userId) := by
  intro seen shown
  have ha : Ahead turns (start settings policy store secrets router) :=
    ⟨wired_start settings policy store secrets router, fun _ _ => List.not_mem_nil, fresh⟩
  have told : Told _ v seen :=
    told_account ha (fun _ h => by cases h) (fun _ => rfl) there
  have hshown {e : Sent} (he : e ∈ shown) := told.owned e (List.mem_of_mem_take he)
  refine ⟨?_, ⟨fun h e he => ?_, fun h e he => ?_⟩, fun h e he => ?_⟩
  · cases hf : v.feed with
    | none => simp [shown, told.deaf hf]
    | some id =>
      obtain ⟨c, _, hc⟩ := told.carries id hf
      have hp := (List.prefix_append v.received c.queue).trans hc.start
      rw [List.map_take]
      exact List.prefix_iff_eq_take.mp hp
  · rw [(hshown he).1, h e he]
  · have := (hshown he).1.symm.trans (h e he)
    exact Option.some.inj this
  · have hne : v.received ≠ [] := by
      intro hr
      simp [shown, hr] at he
    obtain ⟨o, ho⟩ := told.ended hne
    have hfeed : v.feed.isSome = true := by
      cases hf : v.feed with
      | none => exact absurd (told.deaf hf) hne
      | some id => rfl
    exact h _ (hshown he).2 _ (told.out hfeed (by rw [ho]; rfl))

/-! ### A session that changes hands -/

/-- The i-th turn of a run brings the i-th id, ticket and row. -/
def numbered (acts : List Act) : List Turn :=
  acts.zipIdx.map fun (a, i) =>
    ⟨⟨⟨⟨0, 0⟩, 0, s!"row-{i}", s!"ticket-{i}", .ok ()⟩, i, toString i⟩, a⟩

/-- A machine dials in and is admitted. -/
def admission (k : Nat) (user ticket : String) : List Act :=
  [.accept, .arrive k (.text (Frame.auth ⟨user, "", ticket, none⟩).text),
    .move (.socket k), .move (.socket k), .move (.socket k)]

/-- A machine answers the call that an errand waits for, and the errand goes on. -/
def answered (k : Nat) (id : String) (n : Nat) : List Act :=
  [.arrive k (.text (Frame.response (.ok id .null)).text), .move (.socket k), .move (.errand n)]

/-- Two users ask for one new session. The second one's machine is the first to answer and sends an
event; then the first one's machine answers as well. -/
def crossing : List Turn :=
  let ask (user : String) : Act := .visit ⟨user, "s", .message "" { message := "hi" }⟩
  numbered ([.force "alice" "", .force "bob" ""] ++
    admission 0 "alice" "ticket-0" ++ admission 1 "bob" "ticket-1" ++
    [ask "alice", .move (.errand 0), ask "bob", .move (.errand 1)] ++
    answered 1 "req-15" 1 ++ answered 1 "req-18" 1 ++
    [.arrive 1 (.text (Frame.sessionEvent "s" "text" (.str "of bob")).text), .move (.socket 1)] ++
    answered 0 "req-13" 0 ++ answered 0 "req-26" 0 ++ [.move (.feed 0), .move (.feed 1)])

def opening : Plane := start {} ⟨{}, ⟨"secret", 600⟩⟩ { keeping := .arrival } [] {}

def sentByBob : Sent := ⟨"bob", "s", ⟨"text", .str "of bob"⟩, some "bob"⟩

/-- Both feeds took in the one event, and both streams yield it. -/
theorem crossing_outcome :
    (crossing.map Turn.fresh).Nodup ∧
    (play crossing opening).visits.map (fun v => (v.errand.userId, v.received)) =
      [("alice", [sentByBob.notice]), ("bob", [sentByBob.notice])] ∧
    (account 0 crossing opening {}).taken = [sentByBob] ∧
    (account 1 crossing opening {}).taken = [sentByBob] := by
  decide +kernel

/-- The second user's stream yields its own event: the session was routed to its user then. -/
theorem second_stream_is_isolated :
    ∃ v, (play crossing opening).visits[1]? = some v ∧ v.errand.userId = "bob" ∧
      v.received = [sentByBob.notice] ∧
      ∀ e ∈ (account 1 crossing opening {}).taken.take v.received.length, e.sender = "bob" := by
  obtain ⟨fresh, hvisits, _, htaken⟩ := crossing_outcome
  have hv : ((play crossing opening).visits[1]?.map fun v => (v.errand.userId, v.received)) =
      some ("bob", [sentByBob.notice]) := by
    rw [← List.getElem?_map, hvisits]
    rfl
  obtain ⟨v, there, h⟩ := Option.map_eq_some_iff.mp hv
  obtain ⟨huser, hreceived⟩ := Prod.mk.injEq .. ▸ h
  have hiff := stream_is_isolated_iff {} ⟨{}, ⟨"secret", 600⟩⟩ { keeping := .arrival } [] {} crossing
    fresh 1 v there
  refine ⟨v, there, huser, hreceived, huser ▸ hiff.2.1.mpr fun e he => ?_⟩
  have he : e ∈ (account 1 crossing opening {}).taken := List.mem_of_mem_take he
  rw [htaken, List.mem_singleton] at he
  rw [he, huser]
  rfl

/-- The first user's stream yields the event of the second user's machine. -/
theorem first_stream_yields_an_event_of_the_second :
    (crossing.map Turn.fresh).Nodup ∧
    ((play crossing opening).visits[0]?.map fun v => (v.errand.userId, v.received)) =
      some ("alice", [sentByBob.notice]) ∧
    (account 0 crossing opening {}).taken = [sentByBob] ∧ sentByBob.sender = "bob" := by
  obtain ⟨fresh, hvisits, htaken, _⟩ := crossing_outcome
  refine ⟨fresh, ?_, htaken, rfl⟩
  rw [← List.getElem?_map, hvisits]
  rfl

end Plane

end Fleet.Control
