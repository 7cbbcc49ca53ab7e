import Fleet.Proofs.Control.Errands
import Fleet.Proofs.Control.Streams

/-!
What one turn does to the browsers' visits and their feeds. There are four kinds: nothing comes in
anywhere; an event of a session's owner is relayed; a browser reads its feed; a browser comes.
-/

namespace Fleet.Control

open Hub
open Feed (Channel Notice Relay)

variable {e : Errand} {h g : Hub}

/-- A request brings nothing into a feed. -/
theorem Errand.Part.quiet (hp : e.Part h g) : Quiet h g := by
  cases hp with
  | stop =>
    have hd : Quiet h (h.dropRoute e.sessionId) := .of_eq rfl rfl
    exact hd.trans (quiet_closeFeeds _ e.sessionId)
  | _ => exact .of_eq rfl rfl

theorem Errand.Course.quiet (hc : e.Course h g) : Quiet h g := by
  induction hc with
  | refl => exact .refl h
  | tail _ hp ih => exact ih.trans hp.quiet

/-- The same visit a turn later, when it read nothing. -/
structure Visit.Onward (v w : Visit) (h : Hub) : Prop where
  errand : w.errand = v.errand
  feed : w.feed = v.feed
  received : w.received = v.received
  ended : ∀ o, v.stage = .ended o → w.stage = v.stage
  out : ∀ org request, v.errand.ask = .message org request → w.stage.isOut = true →
    v.stage.isOut = true ∨ h.owner? v.errand.sessionId = some v.errand.userId

theorem Visit.Onward.refl (v : Visit) (h : Hub) : v.Onward v h :=
  ⟨rfl, rfl, rfl, fun _ _ => rfl, fun _ _ _ => .inl⟩

namespace Plane

variable {p q : Plane} {t : Turn} {m : Moment} {n : Nat} {v w : Visit}

/-- Nothing comes into a feed, and no visit comes or reads. -/
structure Still (p q : Plane) : Prop where
  hub : Quiet p.hub q.hub
  visits : List.Forall₂ (fun v w => v.Onward w q.hub) p.visits q.visits

/-- The event that a turn brings before the control plane. -/
def event? (p : Plane) : Act → Option Sent
  | .move (.socket k) => p.sockets[k]?.bind fun s => s.event? p.hub
  | _ => none

/-- The registration of a new visit's feed. -/
def feedId (t : Turn) : String := "sse-" ++ t.fresh

/-- What a turn does to visits and feeds. -/
inductive Stir (p : Plane) (t : Turn) (q : Plane) : Prop
  | still (h : Still p q)
  | relayed (e : Sent) (heard : p.event? t.act = some e) (owned : e.owner = some e.sender)
      (hub : q.hub = p.hub.forward e.session e.notice) (visits : q.visits = p.visits)
  | read (n : Nat) (v : Visit) (id : String) (c : Channel) (x : Notice) (rest : List Notice)
      (o : Json) (there : p.visits[n]? = some v) (feed : v.feed = some id)
      (stage : v.stage = .ended (.ok o)) (found : p.hub.feeds.lookup id = some c)
      (queue : c.queue = x :: rest)
      (hub : Quiet { p.hub with
        feeds := changeFeed id (fun _ => { c with queue := rest }) p.hub.feeds } q.hub)
      (last : Bool)
      (visits : q.visits = p.visits.set n { v with received := v.received ++ [x], feedEnded := last })
      (silent : p.event? t.act = none)
  | came (v : Visit) (received : v.received = [])
      (visits : q.visits = p.visits ++ [v])
      (out : ∀ org request, v.errand.ask = .message org request → v.stage.isOut = false)
      (hub : (v.feed = none ∧ Quiet p.hub q.hub) ∨
        (v.feed = some (feedId t) ∧ (∃ org request, v.errand.ask = .message org request) ∧
          Quiet (p.hub.listen (feedId t) v.errand.sessionId) q.hub))

theorem forall₂_set {α : Type} {R : α → α → Prop} {l : List α} {n : Nat} {a b : α}
    (hr : ∀ x, R x x) (hn : l[n]? = some a) (hab : R a b) : List.Forall₂ R l (l.set n b) := by
  induction l generalizing n with
  | nil => cases hn
  | cons x rest ih =>
    cases n with
    | zero =>
      rw [List.getElem?_cons_zero, Option.some.injEq] at hn
      subst hn
      exact .cons hab (List.forall₂_same.mpr fun y _ => hr y)
    | succ n => exact .cons (hr x) (ih (by simpa using hn))

theorem Still.of_hub (hub : Quiet p.hub q.hub) (visits : q.visits = p.visits) : Still p q :=
  ⟨hub, by rw [visits]; exact List.forall₂_same.mpr fun v _ => .refl v _⟩

theorem Still.refl (p : Plane) : Still p p := .of_hub (.refl _) rfl

theorem still_setVisit (there : p.visits[n]? = some v) {h : Hub} (hub : Quiet p.hub h)
    (hv : v.Onward w h) : Still p (p.setVisit n w h) :=
  ⟨hub, forall₂_set (fun v => .refl v h) there hv⟩

theorem quiet_settle (v : Visit) (h : Hub) : Quiet h (settle v h) := by
  unfold settle
  split
  · exact quiet_unlisten h _
  · exact .refl h

theorem still_moveErrand (h : p.moveErrand m n = some q) : Still p q := by
  obtain ⟨v, hv, h⟩ := Option.bind_eq_some_iff.mp h
  split at h
  · obtain ⟨⟨stage, hub⟩, hn, rfl⟩ := Option.map_eq_some_iff.mp h
    refine still_setVisit hv ((v.errand.course_next hn).quiet.trans (quiet_settle _ _)) ?_
    refine ⟨rfl, rfl, rfl, fun o ho => ?_, fun org request ha hout => ?_⟩
    · rw [ho] at hn
      cases hn
    · rcases v.errand.next_isOut ha hn hout with h | h
      · exact .inl h
      · refine .inr ?_
        rw [owner?, route?, settle_routes]
        exact h
  · cases h

/-- A feed gives its oldest notice, or it is over and its browser is let go. -/
theorem stir_moveFeed (h : p.moveFeed n = some q) (ht : t.act = .move (.feed n)) : Stir p t q := by
  obtain ⟨v, hv, h⟩ := Option.bind_eq_some_iff.mp h
  obtain ⟨id, hid, h⟩ := Option.bind_eq_some_iff.mp h
  split at h
  · rename_i hl
    split at h
    · rename_i x hub hread
      obtain ⟨c, rest, hc, hq, rfl⟩ := readFeed_eq hread
      obtain ⟨o, ho⟩ : ∃ o, v.stage = .ended (.ok o) := by
        unfold Visit.listens at hl
        split at hl
        · exact ⟨_, ‹_›⟩
        · simp at hl
      have silent : p.event? t.act = none := by rw [ht]; rfl
      split at h
      · cases h
        exact .read n v id c x rest o hv hid ho hc hq (quiet_unlisten _ id) true rfl silent
      · cases h
        exact .read n v id c x rest o hv hid ho hc hq (.refl _) v.feedEnded rfl silent
    · split at h
      · cases h
        exact .still (still_setVisit hv (quiet_unlisten _ id)
          ⟨rfl, rfl, rfl, fun _ _ => rfl, fun _ _ _ => .inl⟩)
      · cases h
  · cases h

theorem stir_move (x : Move) (h : p.move m x = some q) (ht : t.act = .move x) : Stir p t q := by
  cases x with
  | socket k =>
    obtain ⟨s, hs, h⟩ := Option.bind_eq_some_iff.mp h
    obtain ⟨⟨s', hub⟩, hn, rfl⟩ := Option.map_eq_some_iff.mp h
    rcases Socket.next_streams hn with he | ⟨e, he, ho, hf⟩
    · exact .still (.of_hub (.of_streams he) rfl)
    · refine .relayed e ?_ ho hf rfl
      rw [ht]
      simpa [event?, hs] using he
  | write k =>
    obtain ⟨s, hs, h⟩ := Option.bind_eq_some_iff.mp h
    obtain ⟨⟨s', hub⟩, hn, rfl⟩ := Option.map_eq_some_iff.mp h
    exact .still (.of_hub (.of_streams (Socket.write_streams hn)) rfl)
  | errand n => exact .still (still_moveErrand h)
  | feed n => exact stir_moveFeed h ht
  | expire c =>
    simp only [move] at h
    split at h
    · cases h
      exact .still (.of_hub (.of_eq rfl rfl) rfl)
    · cases h

theorem stir_visit (p : Plane) (t : Turn) (e : Errand) : Stir p t (p.visit t.moment e) := by
  unfold visit
  cases ha : e.ask with
  | message org request =>
    dsimp only
    refine .came _ rfl rfl (fun _ _ h => e.begin_message h) (.inr ⟨rfl, ⟨org, request, ha⟩, ?_⟩)
    exact (e.course_begin _ _).quiet.trans (quiet_settle _ _)
  | cancel =>
    dsimp only
    refine .came _ rfl rfl (fun _ _ h => ?_) (.inl ⟨rfl, ?_⟩)
    · cases ha.symm.trans h
    · exact (e.course_begin _ _).quiet.trans (quiet_settle _ _)
  | stop =>
    dsimp only
    refine .came _ rfl rfl (fun _ _ h => ?_) (.inl ⟨rfl, ?_⟩)
    · cases ha.symm.trans h
    · exact (e.course_begin _ _).quiet.trans (quiet_settle _ _)

theorem still_abandon (p : Plane) (n : Nat) : Still p (p.abandon n) := by
  unfold abandon
  split
  · exact .refl p
  · rename_i v hv
    split
    · have desert (q : Nat) :
          Quiet p.hub { p.hub with connections := p.hub.connections.desert q } := .of_eq rfl rfl
      refine ⟨?_, ?_⟩
      · cases v.stage.call? with
        | none =>
          cases v.feed with
          | none => exact .of_eq rfl rfl
          | some id => exact quiet_unlisten _ id
        | some q =>
          cases v.feed with
          | none => exact desert q
          | some id => exact (desert q).trans (quiet_unlisten _ id)
      · dsimp only
        rw [List.modify_eq_set_getElem?, hv]
        exact forall₂_set (fun v => .refl v _) hv ⟨rfl, rfl, rfl, fun _ _ => rfl, fun _ _ _ => .inl⟩
    · exact .refl p

/-- Every turn is of one of the four kinds. -/
theorem stir_take (p : Plane) (t : Turn) : Stir p t (p.take t) := by
  unfold take
  split
  · rename_i x hx
    cases h : p.move t.moment x with
    | none => exact .still (.refl p)
    | some q => exact stir_move x h hx
  · exact .still (.of_hub (.of_eq rfl rfl) rfl)
  · exact .still (.of_hub (.of_eq rfl rfl) rfl)
  · exact stir_visit p t _
  · exact .still (still_abandon p _)
  · exact .still (.of_hub (.of_eq rfl rfl) rfl)
  · refine .still (.of_hub ?_ rfl)
    unfold Hub.sweep
    split <;> exact .of_eq rfl rfl

end Plane

end Fleet.Control
