import Fleet.Proofs.Control.Errands
import Fleet.Proofs.Tables

/-!
Where a browser's request is after a turn: where it was, one move on, or just come. While it waits,
everything else may move.
-/

namespace Fleet.Control

/-- The same request at the same stage, whatever its feed has given since. -/
def Visit.Same (v w : Visit) : Prop := w.errand = v.errand ∧ w.stage = v.stage

theorem Visit.Same.refl (v : Visit) : v.Same v := ⟨rfl, rfl⟩

namespace Plane

variable {p q : Plane} {t : Turn} {m : Moment} {n k : Nat} {v w : Visit}

theorem moveErrand_eq (there : p.visits[n]? = some v) (here : v.present = true) (m : Moment) :
    p.moveErrand m n = (v.errand.next m p.hub v.stage).map fun x =>
      p.setVisit n { v with stage := x.1 } (settle { v with stage := x.1 } x.2) := by
  simp [moveErrand, there, here]

/-- How a visit has come to where it is after a turn. -/
inductive Comes (p : Plane) (t : Turn) (n : Nat) (w : Visit) : Prop
  | stays (v : Visit) (there : p.visits[n]? = some v) (same : v.Same w)
  | goesOn (v : Visit) (h : Hub) (there : p.visits[n]? = some v) (errand : w.errand = v.errand)
      (next : v.errand.next t.moment p.hub v.stage = some (w.stage, h))
  | arrives (h : Hub) (act : t.act = .visit w.errand) (last : n = p.visits.length)
      (routes : h.routes = p.hub.routes) (connections : h.connections = p.hub.connections)
      (stage : w.stage = (w.errand.begin t.moment h).1)

theorem Comes.of_visits (hv : q.visits = p.visits) (hw : q.visits[n]? = some w) : Comes p t n w :=
  .stays w (hv ▸ hw) (.refl w)

theorem Comes.of_set {x : Visit} (there : p.visits[k]? = some v)
    (hx : (p.visits.set k w)[n]? = some x) (hv : v.Same w) : Comes p t n x := by
  rcases getElem?_set_cases there hx with ⟨rfl, rfl⟩ | ⟨-, hx⟩
  · exact .stays v there hv
  · exact .stays x hx (.refl x)

theorem comes_moveErrand (hm : p.moveErrand t.moment k = some q) (hw : q.visits[n]? = some w) :
    Comes p t n w := by
  obtain ⟨v, there, hm⟩ := Option.bind_eq_some_iff.mp hm
  split at hm
  · obtain ⟨⟨stage, h⟩, hn, rfl⟩ := Option.map_eq_some_iff.mp hm
    rcases getElem?_set_cases there hw with ⟨rfl, rfl⟩ | ⟨-, hx⟩
    · exact .goesOn v h there rfl hn
    · exact .stays w hx (.refl w)
  · cases hm

theorem comes_moveFeed (hm : p.moveFeed k = some q) (hw : q.visits[n]? = some w) : Comes p t n w := by
  obtain ⟨v, there, hm⟩ := Option.bind_eq_some_iff.mp hm
  obtain ⟨id, -, hm⟩ := Option.bind_eq_some_iff.mp hm
  repeat' split at hm
  all_goals cases hm
  all_goals exact .of_set there hw ⟨rfl, rfl⟩

theorem comes_move {x : Move} (hm : p.move t.moment x = some q) (hw : q.visits[n]? = some w) :
    Comes p t n w := by
  cases x with
  | socket k =>
    obtain ⟨s, -, hm⟩ := Option.bind_eq_some_iff.mp hm
    obtain ⟨y, -, rfl⟩ := Option.map_eq_some_iff.mp hm
    exact .of_visits rfl hw
  | write k =>
    obtain ⟨s, -, hm⟩ := Option.bind_eq_some_iff.mp hm
    obtain ⟨y, -, rfl⟩ := Option.map_eq_some_iff.mp hm
    exact .of_visits rfl hw
  | errand k => exact comes_moveErrand hm hw
  | feed k => exact comes_moveFeed hm hw
  | expire c =>
    simp only [move] at hm
    split at hm <;> cases hm
    exact .of_visits rfl hw

theorem comes_visit {e : Errand} (act : t.act = .visit e)
    (hw : (p.visit t.moment e).visits[n]? = some w) : Comes p t n w := by
  rw [visit] at hw
  rcases Nat.lt_or_ge n p.visits.length with hlt | hge
  · rw [List.getElem?_append_left hlt] at hw
    exact .stays w hw (.refl w)
  · rw [List.getElem?_append_right hge] at hw
    have hlast : n = p.visits.length := by
      have := (List.getElem?_eq_some_iff.mp hw).1
      rw [List.length_singleton] at this
      omega
    obtain rfl := List.mem_singleton.mp (List.mem_of_getElem? hw)
    refine .arrives _ act hlast ?_ ?_ rfl
    · cases e.ask <;> rfl
    · cases e.ask <;> rfl

theorem comes_abandon (hw : (p.abandon k).visits[n]? = some w) : Comes p t n w := by
  unfold abandon at hw
  split at hw
  · exact .of_visits rfl hw
  · rename_i v there
    split at hw
    · dsimp only at hw
      rw [List.modify_eq_set_getElem?, there] at hw
      exact .of_set there hw ⟨rfl, rfl⟩
    · exact .of_visits rfl hw

theorem comes_take (hw : (p.take t).visits[n]? = some w) : Comes p t n w := by
  unfold take at hw
  split at hw
  · rename_i x _
    cases hm : p.move t.moment x with
    | none =>
      rw [hm] at hw
      exact .of_visits rfl hw
    | some q =>
      rw [hm] at hw
      exact comes_move hm hw
  · exact .of_visits rfl hw
  · exact .of_visits rfl hw
  · exact comes_visit ‹_› hw
  · exact comes_abandon hw
  · exact .of_visits rfl hw
  · exact .of_visits rfl hw

end Plane

end Fleet.Control
