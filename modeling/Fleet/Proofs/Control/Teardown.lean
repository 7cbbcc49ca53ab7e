import Fleet.Proofs.Control.Isolation
import Fleet.Proofs.Control.Machines
import Fleet.Proofs.Tables
import Mathlib.Data.List.Induction

/-!
What the end of one connection does to its user's row. Whether the connection was current is found
when it is taken off, and the row is marked when its writer has finished; a machine that is admitted
in between is current, and the row is marked all the same.
-/

namespace Fleet.Control

/-! ### Whose connection is current -/

namespace Connections

variable {s : Connections} {c : Connection} {k j : Nat} {user u id : String}

theorem opened_connect (s : Connections) (id user org : String) :
    (s.connect id user org).opened[s.opened.length]? = some { id := id, userId := user, orgId := org } := by
  simp [connect]

theorem current_failPending (s : Connections) (k : Nat) :
    (s.failPending k).2.current = s.current := by
  unfold failPending
  split <;> rfl

theorem current_register (hc : s.opened[k]? = some c) : (s.register k).current =
    (c.userId, k) :: s.current.filter fun x => x.1 ≠ c.userId := by
  simp only [register, hc]
  split
  · rfl
  · exact current_failPending _ _

theorem lookup_register (hc : s.opened[k]? = some c)
    (hl : (s.register k).current.lookup u = some j) : s.current.lookup u = some j ∨ j = k := by
  rw [current_register hc, List.lookup_cons] at hl
  split at hl
  · exact .inr (Option.some.inj hl).symm
  · rw [lookup_filter_ne] at hl
    split at hl
    · cases hl
    · exact .inl hl

theorem lookup_unregister (hl : (s.unregister user id).2.current.lookup u = some j) :
    s.current.lookup u = some j := by
  unfold unregister at hl
  split at hl
  · rw [lookup_filter_ne] at hl
    split at hl
    · cases hl
    · exact hl
  · exact hl

/-- A connection that was its user's current one leaves the user without one. -/
theorem unregister_leaves_none (h : (s.unregister user id).1 = true) :
    (s.unregister user id).2.current.lookup user = none := by
  unfold unregister at h ⊢
  split
  · rw [lookup_filter_ne, if_pos rfl]
  · rename_i hne
    rw [if_neg hne] at h
    cases h

end Connections

/-- A connection is current because it was, or because it has just opened. -/
theorem Socket.Went.current {s s' : Socket} {h g : Hub} (hw : s.Went h s' g) {u : String} {j : Nat}
    (hl : g.connections.current.lookup u = some j) :
    h.connections.current.lookup u = some j ∨
      j = h.connections.opened.length ∧ s.stage.isNew = true := by
  cases hw with
  | apart line line' new connections => exact .inl (connections ▸ hl)
  | enrolled id user org new stage written connections =>
    rw [connections] at hl
    exact (Connections.lookup_register (Connections.opened_connect _ _ _ _) hl).imp_right fun he => ⟨he, new⟩
  | greeted greets found stage written connections =>
    rw [connections, (push_same h _ _).2.1] at hl
    exact .inl hl
  | lived lives stage written current gains => exact .inl (current ▸ hl)
  | left lives found stage written connections =>
    rw [connections] at hl
    change ((Connections.unregister _ _ _).2.failPending _).2.current.lookup u = some j at hl
    rw [Connections.current_failPending] at hl
    exact .inl (Connections.lookup_unregister hl)
  | finished leaves stage connections => exact .inl (connections ▸ hl)

namespace Plane

variable {p q o : Plane} {t : Turn} {turns : List Turn} {k j : Nat} {was : Bool} {ending : Ending}

theorem Went.current (hw : Went p t q) {u : String} {i : Nat}
    (hl : q.hub.connections.current.lookup u = some i) :
    p.hub.connections.current.lookup u = some i ∨ i = p.hub.connections.opened.length := by
  cases hw with
  | socket act there next went given => exact (went.current hl).imp_right And.left
  | write there write wrote => exact .inl (wrote.current ▸ hl)
  | beside sockets hub => exact .inl (hub.aside.current ▸ hl)

theorem Went.length_le (hw : Went p t q) :
    p.hub.connections.opened.length ≤ q.hub.connections.opened.length := by
  cases hw with
  | socket act there next went given => exact went.gains.length_le
  | write there write wrote => exact Nat.le_of_eq wrote.length.symm
  | beside sockets hub => exact hub.aside.gains.choose_spec.length_le

theorem length_play (turns : List Turn) (p : Plane) :
    p.hub.connections.opened.length ≤ (play turns p).hub.connections.opened.length := by
  induction turns generalizing p with
  | nil => exact Nat.le_refl _
  | cons t rest ih => exact Nat.le_trans (went_take p t).length_le (ih _)

/-- A connection stays and keeps its user. -/
theorem Went.kept (hw : Went p t q) {c : Connection}
    (hc : p.hub.connections.opened[j]? = some c) :
    ∃ d, q.hub.connections.opened[j]? = some d ∧ d.userId = c.userId := by
  have gains {own : Option Nat} {more : List (Nat × Call)}
      (hg : Connections.Gains own more p.hub.connections q.hub.connections) :
      ∃ d, q.hub.connections.opened[j]? = some d ∧ d.userId = c.userId := by
    obtain ⟨d, hd, _, hu, _⟩ := hg.kept j c hc
    exact ⟨d, hd, hu⟩
  cases hw with
  | socket act there next went given => exact gains went.gains
  | @write k i s s' g there write wrote =>
    by_cases hj : j = i
    · subst hj
      obtain ⟨c', d, hc', hd, _, hu⟩ := wrote.found
      obtain rfl := Option.some.inj (hc.symm.trans hc')
      exact ⟨d, hd, hu⟩
    · exact ⟨c, (wrote.others j hj).trans hc, rfl⟩
  | beside sockets hub => exact gains hub.aside.gains.choose_spec

/-- A socket has taken its connection off and has not marked the row. -/
def Leaves (p : Plane) (k j : Nat) (current : Bool) (ending : Ending) : Prop :=
  ∃ s, p.sockets[k]? = some s ∧ s.stage = .leaving j current ending

/-- A socket that leaves did so before the turn, or it has just taken its connection off. -/
theorem Went.leaves (hw : Went p t q) (hl : q.Leaves k j was ending) :
    p.Leaves k j was ending ∨ ∃ c, p.hub.connections.opened[j]? = some c ∧
      (was = true → q.hub.connections.current.lookup c.userId = none) := by
  obtain ⟨s', hs', hstage⟩ := hl
  cases hw with
  | @socket i s r g act there next went given =>
    by_cases hi : i = k
    · subst hi
      rw [setSocket_self there, Option.some.injEq] at hs'
      subst hs'
      change r.stage = .leaving j was ending at hstage
      cases went with
      | apart line line' new connections => simp [Socket.line?, hstage] at line'
      | left lives found stage written connections =>
        rw [hstage, Socket.Stage.leaving.injEq] at stage
        obtain ⟨rfl, hcurrent, rfl⟩ := stage
        refine .inr ⟨_, found, fun htrue => ?_⟩
        change g.connections.current.lookup _ = none
        rw [connections]
        change ((Connections.unregister _ _ _).2.failPending _).2.current.lookup _ = none
        rw [Connections.current_failPending]
        exact Connections.unregister_leaves_none (hcurrent ▸ htrue)
      | enrolled id user org new stage written connections => cases hstage.symm.trans stage
      | greeted greets found stage written connections => cases hstage.symm.trans stage
      | lived lives stage written current gains => cases hstage.symm.trans stage
      | finished leaves stage connections => cases hstage.symm.trans stage
    · rw [setSocket_ne hi] at hs'
      exact .inl ⟨s', hs', hstage⟩
  | @write i j' s r g there write wrote =>
    by_cases hi : i = k
    · subst hi
      rw [setSocket_self there, Option.some.injEq] at hs'
      subst hs'
      exact .inl ⟨s, there, wrote.stage.symm.trans hstage⟩
    · rw [setSocket_ne hi] at hs'
      exact .inl ⟨s', hs', hstage⟩
  | beside sockets hub =>
    cases sockets k s' hs' with
    | old there stage written => exact .inl ⟨_, there, stage.symm.trans hstage⟩
    | new absent stage written =>
      rw [hstage] at stage
      cases stage

/-- The machine on connection `i` was admitted after a socket took connection `j` off. -/
def AdmittedSince (o : Plane) (turns : List Turn) (k j : Nat) (current : Bool) (ending : Ending)
    (i : Nat) : Prop :=
  ∃ before after, turns = before ++ after ∧ (play before o).Leaves k j current ending ∧
    j < (play before o).hub.connections.opened.length ∧
    (play before o).hub.connections.opened.length ≤ i

/-- Whoever is current while a socket leaves whose connection was current came after that. -/
theorem admittedSince_play (hnone : o.sockets = []) (turns : List Turn)
    (hl : (play turns o).Leaves k j true ending) :
    ∃ c, (play turns o).hub.connections.opened[j]? = some c ∧
      ∃ before after, turns = before ++ after ∧ (play before o).Leaves k j true ending ∧
        j < (play before o).hub.connections.opened.length ∧
        ∀ i, (play turns o).hub.connections.current.lookup c.userId = some i →
          (play before o).hub.connections.opened.length ≤ i := by
  induction turns using List.reverseRecOn with
  | nil =>
    obtain ⟨s, hs, _⟩ := hl
    simp [hnone] at hs
  | append_singleton turns t ih =>
    have hw := went_take (play turns o) t
    rw [← play_concat] at hw
    rcases hw.leaves hl with hold | ⟨c, hc, hgone⟩
    · obtain ⟨c, hc, before, after, rfl, hbefore, hlt, hsince⟩ := ih hold
      obtain ⟨d, hd, hu⟩ := hw.kept hc
      refine ⟨d, hd, before, after ++ [t], by simp, hbefore, hlt, fun i hi => ?_⟩
      rcases hw.current hi with hi | rfl
      · exact hsince i (hu ▸ hi)
      · rw [play_append]
        exact length_play after _
    · obtain ⟨d, hd, hu⟩ := hw.kept hc
      refine ⟨d, hd, turns ++ [t], [], by simp, hl, (List.getElem?_eq_some_iff.mp hd).1, ?_⟩
      intro i hi
      rw [hu, hgone rfl] at hi
      cases hi

/-- The last move of a socket marks the row if its connection was current when it was taken off. -/
theorem machines_teardown {s : Socket} {c : Connection} (act : t.act = .move (.socket k))
    (there : p.sockets[k]? = some s) (stage : s.stage = .leaving j was ending) (shut : s.shut = true)
    (found : p.hub.connections.opened[j]? = some c) :
    (p.take t).hub.machines = if was = true then
      (Vm.Work.markDisconnected t.moment.vm.now c.userId p.hub.machines).2 else p.hub.machines := by
  simp only [take, act, move, there, Socket.next, stage, found, shut, Option.bind_some,
    Option.map_some, ↓reduceIte, Option.getD_some, setSocket]
  split <;> rfl

/-- While a newer connection of its user is current, the teardown of a connection takes the user's
row exactly when that is ready, its own connection was current when it was taken off, and the newer
one was admitted between that and the mark. -/
theorem teardown_demotes_newer_iff (settings : Settings.ControlPlane) (policy : Vm.Policy)
    (keeping : Vm.Keeping) (secrets : List (String × String)) (router : Router) (early : List Turn)
    (fresh : (early.map fun t => t.moment.vm.freshId).Nodup) (t : Turn) (k j i : Nat) (s : Socket)
    (c : Connection) (was : Bool) (ending : Ending) (act : t.act = .move (.socket k)) :
    let o := start settings policy { keeping := keeping } secrets router
    let p := play early o
    (there : p.sockets[k]? = some s) → (stage : s.stage = .leaving j was ending) →
    (shut : s.shut = true) → (found : p.hub.connections.opened[j]? = some c) →
    (newer : p.hub.connections.current.lookup c.userId = some i) →
    (p.hub.machines.Loses (p.take t).hub.machines c.userId ↔
      was = true ∧ (∃ r, p.hub.machines.live? c.userId = some r ∧ r.status = .ready) ∧
        AdmittedSince o early k j was ending i) := by
  intro o p there stage shut found newer
  have hlone : p.hub.machines.Lone :=
    lone_play (.vacant keeping) (fun _ _ => List.not_mem_nil) fresh
  rw [machines_teardown act there stage shut found]
  cases was with
  | false =>
    refine ⟨fun h => absurd h (Vm.World.not_loses hlone.distinct rfl), fun h => ?_⟩
    cases h.1
  | true =>
    have hsince : AdmittedSince o early k j true ending i := by
      obtain ⟨d, hd, before, after, he, hleaves, hlt, hle⟩ :=
        admittedSince_play rfl early ⟨s, there, stage⟩
      obtain rfl := Option.some.inj (hd.symm.trans found)
      exact ⟨before, after, he, hleaves, hlt, hle i newer⟩
    refine (hlone.loses_iff t.moment.vm.now c.userId).trans ?_
    exact ⟨fun h => ⟨rfl, h, hsince⟩, fun h => h.2.1⟩

/-! ### A machine that comes back too soon -/

/-- Alice's machine connects, and what follows brings a second one up and lets the first one go. -/
def returning (between : List Act) : List Turn :=
  numbered ([.force "alice" ""] ++ admission 0 "alice" "ticket-0" ++ between)

/-- The second machine is admitted before the first one goes. -/
def afterwards : List Turn :=
  returning ([.force "alice" ""] ++ admission 1 "alice" "ticket-6" ++
    [.move (.socket 0), .move (.write 0), .move (.write 0)])

/-- The second machine is admitted after the first one has gone, and before its row is marked. -/
def meanwhile : List Turn :=
  returning ([.arrive 0 .close, .move (.socket 0), .force "alice" ""] ++ admission 1 "alice" "ticket-8" ++
    [.move (.write 0), .move (.write 0)])

def teardown : Turn := ⟨⟨⟨⟨0, 0⟩, 0, "row", "ticket", .ok ()⟩, 100, "100"⟩, .move (.socket 0)⟩

/-- The first socket and its connection's user, and whose connection is alice's current one. -/
def parting (p : Plane) : Option (Socket.Stage × Bool × String) × Option Nat :=
  (p.sockets[0]?.bind fun s => p.hub.connections.opened[0]?.map fun c => (s.stage, s.shut, c.userId),
    p.hub.connections.current.lookup "alice")

/-- A machine that was replaced before it went does not take the row of the one that replaced it. -/
theorem replaced_teardown_spares_newer :
    (afterwards.map fun t => t.moment.vm.freshId).Nodup ∧
    parting (play afterwards opening) = (some (.leaving 0 false .clean, true, "alice"), some 1) ∧
    ¬ (play afterwards opening).hub.machines.Loses
      ((play afterwards opening).take teardown).hub.machines "alice" := by
  unfold opening
  have fresh : (afterwards.map fun t => t.moment.vm.freshId).Nodup := by decide +kernel
  have hparting : parting (play afterwards (start {} ⟨{}, ⟨"secret", 600⟩⟩ { keeping := .arrival } [] {})) =
      (some (.leaving 0 false .clean, true, "alice"), some 1) := by decide +kernel
  refine ⟨fresh, hparting, fun hloses => ?_⟩
  rw [parting, Prod.mk.injEq] at hparting
  obtain ⟨hleft, newer⟩ := hparting
  obtain ⟨s, there, h⟩ := Option.bind_eq_some_iff.mp hleft
  obtain ⟨c, found, h⟩ := Option.map_eq_some_iff.mp h
  simp only [Prod.mk.injEq] at h
  obtain ⟨stage, shut, huser⟩ := h
  have hiff := teardown_demotes_newer_iff {} ⟨{}, ⟨"secret", 600⟩⟩ .arrival [] {} afterwards fresh
    teardown 0 0 1 s c false .clean rfl there stage shut found (huser ▸ newer)
  rw [huser] at hiff
  cases (hiff.mp hloses).1

/-- A machine that had gone takes the row of the one that was admitted meanwhile. -/
theorem late_teardown_demotes_newer :
    (meanwhile.map fun t => t.moment.vm.freshId).Nodup ∧
    parting (play meanwhile opening) = (some (.leaving 0 true .clean, true, "alice"), some 1) ∧
    (play meanwhile opening).hub.machines.Loses
      ((play meanwhile opening).take teardown).hub.machines "alice" ∧
    ((play meanwhile opening).take teardown).hub.connections.current.lookup "alice" = some 1 := by
  decide +kernel

end Plane

end Fleet.Control
