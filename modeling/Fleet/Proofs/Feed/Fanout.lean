import Fleet.Proofs.Feed.Relay
import Mathlib.Data.List.Perm.Basic

/-!
What a relay does to the sinks of its connections. Whatever is done with it and however the sinks
answer, its two lists agree; a notice is offered once to each connection of its session, those that
refuse it are closed and forgotten, and closing a session closes and forgets its connections.
-/

namespace Fleet.Feed

/-- What was asked of a sink. -/
inductive Ask where
  | send (sink : String) (n : Notice) (taken : Bool)
  | close (sink : String)
  deriving DecidableEq

variable {σ : Type}

/-- Sinks that also keep a record of what was asked of them. -/
def Sinks.recorded (k : Sinks σ) : Sinks (σ × List Ask) where
  send id n s := ((k.send id n s.1).1, (k.send id n s.1).2, s.2 ++ [.send id n (k.send id n s.1).1])
  close id s := (k.close id s.1, s.2 ++ [.close id])

namespace Relay

variable {k : Sinks σ} {r : Relay} {c : Connection} {id session : String} {n : Notice} {s : σ}
  {m : List (String × List String)}

/-! ### Sessions without connections -/

/-- No session is kept without an id. -/
def Filled (m : List (String × List String)) : Prop := ∀ q ∈ m, q.2 ≠ []

theorem Filled.attach (h : Filled m) (session id : String) : Filled (attach session id m) := by
  induction m with
  | nil =>
    intro q hq
    obtain rfl := List.mem_singleton.mp hq
    exact List.cons_ne_nil _ _
  | cons q rest ih =>
    obtain ⟨name, ids⟩ := q
    have hrest : Filled rest := fun q hq => h q (List.mem_cons_of_mem _ hq)
    unfold Relay.attach
    intro q hq
    split at hq
    · rcases List.mem_cons.mp hq with rfl | hq
      · dsimp only
        split
        · exact h _ List.mem_cons_self
        · simp
      · exact hrest q hq
    · rcases List.mem_cons.mp hq with rfl | hq
      · exact h _ List.mem_cons_self
      · exact ih hrest q hq

theorem Filled.detach (h : Filled m) (session id : String) : Filled (detach session id m) := by
  induction m with
  | nil => exact h
  | cons q rest ih =>
    obtain ⟨name, ids⟩ := q
    have hrest : Filled rest := fun q hq => h q (List.mem_cons_of_mem _ hq)
    unfold Relay.detach
    dsimp only
    split
    · split
      · exact hrest
      · rename_i hleft
        intro q hq
        rcases List.mem_cons.mp hq with rfl | hq
        · simpa using hleft
        · exact hrest q hq
    · intro q hq
      rcases List.mem_cons.mp hq with rfl | hq
      · exact h _ List.mem_cons_self
      · exact ih hrest q hq

theorem Filled.remove (h : Filled r.sessions) (id : String) : Filled (r.remove id).sessions := by
  unfold Relay.remove
  split
  · exact h
  · exact h.detach _ _

theorem Filled.removeAll (h : Filled r.sessions) (ids : List String) :
    Filled (r.removeAll ids).sessions := by
  induction ids generalizing r with
  | nil => exact h
  | cons id rest ih => exact ih (h.remove id)

/-! ### What is left -/

theorem connections_remove (r : Relay) (id : String) :
    (r.remove id).connections = r.connections.filter fun c => c.id != id := by
  unfold remove
  split
  · rename_i hnone
    refine (List.filter_eq_self.mpr fun c hc => ?_).symm
    simpa using List.find?_eq_none.mp hnone c hc
  · rfl

theorem connections_removeAll (r : Relay) (ids : List String) :
    (r.removeAll ids).connections = r.connections.filter fun c => c.id ∉ ids := by
  induction ids generalizing r with
  | nil => simp [removeAll]
  | cons id rest ih =>
    change ((r.remove id).removeAll rest).connections = _
    rw [ih, connections_remove, List.filter_filter]
    apply List.filter_congr
    intro c _
    by_cases hc : c.id = id <;> simp [hc]

/-- A session's targets are its connections. -/
theorem Sound.targets_perm (h : r.Sound) (session : String) :
    (r.targets session).Perm (r.connections.filter fun c => c.session = session) := by
  refine (List.perm_ext_iff_of_nodup ?_ ?_).mpr fun c => ?_
  · exact (h.targets_nodup session).of_map _
  · exact (h.connections.of_map _).filter _
  · rw [h.mem_targets, List.mem_filter, decide_eq_true_eq]

/-! ### Offers -/

/-- What is asked of a connection's sink when a notice is offered to it. -/
def asked (n : Notice) : Connection × Bool → List Ask
  | (c, true) => [.send c.sink n true]
  | (c, false) => [.send c.sink n false, .close c.sink]

/-- The ids of the connections that refused. -/
def refused (answers : List (Connection × Bool)) : List String :=
  (answers.filter fun a => !a.2).map fun a => a.1.id

/-- Each connection is asked once, in turn, and closed if it refuses. -/
theorem offer_answers (k : Sinks σ) (n : Notice) (cs : List Connection) (r : Relay) (s : σ)
    (log : List Ask) : ∃ answers : List (Connection × Bool),
    answers.map Prod.fst = cs ∧
    (offer k.recorded n cs r (s, log)).2.2.2 = log ++ answers.flatMap (asked n) ∧
    (offer k n cs r s).1 = answers.countP Prod.snd ∧
    (offer k n cs r s).2.1 = r.removeAll (refused answers) := by
  induction cs generalizing r s log with
  | nil => exact ⟨[], rfl, by simp [offer], rfl, rfl⟩
  | cons c rest ih =>
    unfold offer
    cases hsend : k.send c.sink n s with
    | mk taken t =>
      cases taken with
      | true =>
        obtain ⟨answers, hcs, hlog, htaken, hleft⟩ := ih r t (log ++ [.send c.sink n true])
        refine ⟨(c, true) :: answers, by rw [List.map_cons, hcs], ?_, ?_, ?_⟩
        · simp only [Sinks.recorded, hsend]
          rw [List.flatMap_cons, ← List.append_assoc]
          exact hlog
        · simp [htaken]
        · simpa [refused] using hleft
      | false =>
        obtain ⟨answers, hcs, hlog, htaken, hleft⟩ := ih (r.remove c.id) (k.close c.sink t)
          (log ++ [.send c.sink n false, .close c.sink])
        refine ⟨(c, false) :: answers, by rw [List.map_cons, hcs], ?_, ?_, ?_⟩
        · simp only [Sinks.recorded, hsend, List.append_assoc, List.cons_append, List.nil_append]
          rw [List.flatMap_cons, ← List.append_assoc]
          exact hlog
        · simp [htaken]
        · rw [hleft]
          rfl

/-- An outcome without the record of what was asked. -/
def plain (x : Nat × Relay × σ × List Ask) : Nat × Relay × σ := (x.1, x.2.1, x.2.2.1)

/-- To keep a record changes nothing. -/
theorem offer_recorded (k : Sinks σ) (n : Notice) (cs : List Connection) (r : Relay) (s : σ)
    (log : List Ask) : plain (offer k.recorded n cs r (s, log)) = offer k n cs r s := by
  induction cs generalizing r s log with
  | nil => rfl
  | cons c rest ih =>
    unfold offer
    cases hsend : k.send c.sink n s with
    | mk taken t =>
      cases taken with
      | true =>
        simp only [Sinks.recorded, hsend]
        exact congrArg (fun x => (x.1 + 1, x.2)) (ih r t _)
      | false =>
        simp only [Sinks.recorded, hsend, List.append_assoc, List.cons_append, List.nil_append]
        exact ih (r.remove c.id) (k.close c.sink t) _

theorem closeAll_recorded (k : Sinks σ) (cs : List Connection) (s : σ) (log : List Ask) :
    cs.foldl (fun s c => k.recorded.close c.sink s) (s, log) =
      (cs.foldl (fun s c => k.close c.sink s) s, log ++ cs.map fun c => .close c.sink) := by
  induction cs generalizing s log with
  | nil => simp
  | cons c rest ih =>
    rw [List.foldl_cons, List.foldl_cons, List.map_cons]
    simp only [Sinks.recorded] at ih ⊢
    rw [ih, List.append_assoc, List.singleton_append]

/-! ### What is done with a relay -/

/-- One thing that is done. The sinks may also change by themselves. -/
inductive Deed (σ : Type) where
  | register (c : Connection)
  | unregister (id : String)
  | forward (session : String) (n : Notice)
  | close (session : String)
  | stir (change : σ → σ)

def take (k : Sinks σ) (x : Relay × σ) : Deed σ → Relay × σ
  | .register c => (x.1.register c, x.2)
  | .unregister id => ((x.1.unregister id).2, x.2)
  | .forward session n => (x.1.forward k session n x.2).2
  | .close session => (closeSession k x.1 session x.2).2
  | .stir change => (x.1, change x.2)

def play (k : Sinks σ) (deeds : List (Deed σ)) (x : Relay × σ) : Relay × σ := deeds.foldl (take k) x

/-- The two lists of a relay agree, and no session is kept without a connection. -/
structure Kept (r : Relay) : Prop where
  sound : r.Sound
  filled : Filled r.sessions

theorem Kept.register (h : r.Kept) (c : Connection) : (r.register c).Kept :=
  ⟨h.sound.register c, (h.filled.remove c.id).attach _ _⟩

theorem Kept.removeAll (h : r.Kept) (ids : List String) : (r.removeAll ids).Kept :=
  ⟨h.sound.removeAll ids, h.filled.removeAll ids⟩

theorem Kept.take (h : r.Kept) (k : Sinks σ) (s : σ) (d : Deed σ) : (take k (r, s) d).1.Kept := by
  cases d with
  | register c => exact h.register c
  | unregister id => exact h.removeAll [id]
  | forward session n =>
    obtain ⟨ids, hr⟩ := offer_relay (k := k) (n := n) (r.targets session) r s
    change (offer k n (r.targets session) r s).2.1.Kept
    rw [hr]
    exact h.removeAll ids
  | close session =>
    change (closeSession k r session s).2.1.Kept
    rw [closeSession_relay]
    exact h.removeAll _
  | stir change => exact h

theorem Kept.play (k : Sinks σ) (deeds : List (Deed σ)) (x : Relay × σ) (h : x.1.Kept) :
    (play k deeds x).1.Kept := by
  induction deeds generalizing x with
  | nil => exact h
  | cons d rest ih => exact ih _ (h.take k x.2 d)

/-! ### What each deed does -/

/-- A notice was offered once to each connection of its session and to no other. The answers are
theirs; who refused was closed, once, and forgotten. -/
structure Forwarded (k : Sinks σ) (r : Relay) (session : String) (n : Notice) (s : σ)
    (answers : List (Connection × Bool)) : Prop where
  connections : (answers.map Prod.fst).Perm (r.connections.filter fun c => c.session = session)
  asks : (r.forward k.recorded session n (s, [])).2.2.2 = answers.flatMap (asked n)
  taken : (r.forward k session n s).1 = answers.countP Prod.snd
  left : (r.forward k session n s).2.1.connections = r.connections.filter fun c => (c, false) ∉ answers
  recorded : plain (r.forward k.recorded session n (s, [])) = r.forward k session n s

theorem Sound.forwarded (h : r.Sound) (k : Sinks σ) (session : String) (n : Notice) (s : σ) :
    ∃ answers, Forwarded k r session n s answers := by
  obtain ⟨answers, hcs, hlog, htaken, hleft⟩ := offer_answers k n (r.targets session) r s []
  refine ⟨answers, ⟨hcs ▸ h.targets_perm session, hlog, htaken, ?_, ?_⟩⟩
  · change (offer k n (r.targets session) r s).2.1.connections = _
    rw [hleft, connections_removeAll]
    apply List.filter_congr
    intro c hc
    -- an id tells its connection, so whose id refused has refused
    have hiff : c.id ∈ refused answers ↔ (c, false) ∈ answers := by
      simp only [refused, List.mem_map, List.mem_filter, Bool.not_eq_true']
      constructor
      · rintro ⟨⟨d, taken⟩, ⟨hd, rfl⟩, hid⟩
        have hmem : d ∈ r.targets session := hcs ▸ List.mem_map.mpr ⟨_, hd, rfl⟩
        rw [h.eq_of_id hc (h.mem_targets.mp hmem).1 hid.symm]
        exact hd
      · exact fun hmem => ⟨_, ⟨hmem, rfl⟩, rfl⟩
    simp [hiff]
  · exact offer_recorded k n (r.targets session) r s []

/-- The connections of a session were closed, each once, and forgotten, and no others. -/
structure Closed (k : Sinks σ) (r : Relay) (session : String) (s : σ) : Prop where
  asks : (closeSession k.recorded r session (s, [])).2.2.2.Perm
    ((r.connections.filter fun c => c.session = session).map fun c => .close c.sink)
  gone : (closeSession k r session s).1 = (r.connections.filter fun c => c.session = session).length
  left : (closeSession k r session s).2.1.connections =
    r.connections.filter fun c => c.session ≠ session
  recorded : plain (closeSession k.recorded r session (s, [])) = closeSession k r session s

theorem Sound.closed (h : r.Sound) (k : Sinks σ) (session : String) (s : σ) :
    Closed k r session s := by
  have hperm := h.targets_perm session
  have hrun := closeAll_recorded k (r.targets session) s []
  refine ⟨?_, hperm.length_eq, ?_, ?_⟩
  · change ((r.targets session).foldl (fun s c => k.recorded.close c.sink s) (s, [])).2.Perm _
    rw [hrun, List.nil_append]
    exact hperm.map _
  · rw [closeSession_relay, connections_removeAll]
    apply List.filter_congr
    intro c hc
    have hiff : c.id ∈ (r.targets session).map Connection.id ↔ c.session = session := by
      rw [h.targets_ids, h.mem_ids]
      constructor
      · rintro ⟨d, hd, hid, hs⟩
        exact h.eq_of_id hd hc hid ▸ hs
      · exact fun hs => ⟨c, hc, rfl, hs⟩
    simp [hiff]
  · unfold closeSession plain
    dsimp only
    rw [hrun]

/-- After a registration an id belongs to its new session alone, and the others stay. -/
theorem Sound.registered (h : r.Sound) (c : Connection) :
    (r.register c).connections = (r.connections.filter fun d => d.id != c.id) ++ [c] ∧
    ∀ session, c.id ∈ (r.register c).ids session ↔ session = c.session := by
  refine ⟨congrArg (· ++ [c]) (connections_remove r c.id), fun session => ?_⟩
  have hc : c ∈ (r.register c).connections := List.mem_append_right _ (List.mem_singleton.mpr rfl)
  rw [(h.register c).mem_ids]
  constructor
  · rintro ⟨d, hd, hid, hs⟩
    rw [← hs, (h.register c).eq_of_id hd hc hid]
  · exact fun hs => ⟨c, hc, rfl, hs.symm⟩

theorem Sound.mem_ids_iff (h : r.Sound) (session id : String) :
    id ∈ r.ids session ↔ ∃ c, r.find? id = some c ∧ c.session = session := by
  rw [h.mem_ids]
  constructor
  · rintro ⟨c, hc, rfl, hs⟩
    exact ⟨c, h.find?_eq hc, hs⟩
  · rintro ⟨c, hf, hs⟩
    obtain ⟨hc, hid⟩ := mem_of_find? hf
    exact ⟨c, hc, hid, hs⟩

/-- After whatever was done with a relay, its lists agree, and each thing that is done next asks what
it should of the sinks and leaves the connections that it should. -/
theorem listeners_are_served_once (k : Sinks σ) (deeds : List (Deed σ)) (s : σ) :
    let r := (play k deeds ({}, s)).1
    let t := (play k deeds ({}, s)).2
    (∀ session id, id ∈ r.ids session ↔ ∃ c, r.find? id = some c ∧ c.session = session) ∧
    ((r.sessions.map Prod.fst).Nodup ∧ (∀ session, (r.ids session).Nodup) ∧ Filled r.sessions) ∧
    (∀ session n, ∃ answers, Forwarded k r session n t answers) ∧
    (∀ session, Closed k r session t) ∧
    (∀ c : Connection,
      (r.register c).connections = (r.connections.filter fun d => d.id != c.id) ++ [c] ∧
      ∀ session, c.id ∈ (r.register c).ids session ↔ session = c.session) ∧
    ∀ id, (r.unregister id).1 = (r.connections.map Connection.id).contains id ∧
      (r.unregister id).2.connections = r.connections.filter fun d => d.id != id := by
  intro r t
  have hkept : r.Kept := .play k deeds ({}, s) ⟨.empty, fun _ h => (List.not_mem_nil h).elim⟩
  have h := hkept.sound
  refine ⟨h.mem_ids_iff, ⟨h.sessions, h.distinct, hkept.filled⟩, fun session n =>
    h.forwarded k session n t, fun session => h.closed k session t, h.registered, fun id =>
    ⟨?_, connections_remove r id⟩⟩
  rw [Bool.eq_iff_iff, List.contains_iff_mem, List.mem_map]
  simp [unregister, find?]

end Relay

end Fleet.Feed
