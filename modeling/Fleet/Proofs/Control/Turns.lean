import Fleet.Control.Plane

/-!
Runs of a whole control plane: what happens inside it and what reaches it from outside, in any order.
-/

namespace Fleet.Control

/-- One thing that happens: a move of the plane's own, or something from outside. -/
inductive Act where
  | move (x : Move)
  | accept
  | arrive (k : Nat) (x : Arrival)
  | visit (e : Errand)
  | abandon (n : Nat)
  /-- A bootstrap is forced from outside of any session. -/
  | force (user org : String)
  | sweep (timeoutMs : Nat)
  deriving Repr

structure Turn where
  moment : Moment
  act : Act

namespace Turn

def fresh (t : Turn) : String := t.moment.fresh

end Turn

namespace Plane

/-- A control plane that nobody has reached yet. -/
def start (settings : Settings.ControlPlane) (policy : Vm.Policy) (store : Vm.Store)
    (secrets : List (String × String)) (router : Router) : Plane where
  hub := { Hub.start settings policy store with secrets := secrets, router := router }

/-- A move that cannot be made now does nothing. -/
def take (p : Plane) (t : Turn) : Plane :=
  match t.act with
  | .move x => (p.move t.moment x).getD p
  | .accept => p.accept t.moment
  | .arrive k x => p.arrive k x
  | .visit e => p.visit t.moment e
  | .abandon n => p.abandon n
  | .force user org =>
    { p with hub := (p.hub.perform (p.hub.policy.forceRebootstrap t.moment.vm user org)).2 }
  | .sweep timeoutMs => { p with hub := p.hub.sweep t.moment timeoutMs }

def play (turns : List Turn) (p : Plane) : Plane := turns.foldl take p

@[simp] theorem play_nil (p : Plane) : play [] p = p := rfl

@[simp] theorem play_cons (t : Turn) (turns : List Turn) (p : Plane) :
    play (t :: turns) p = play turns (p.take t) := rfl

theorem play_append (early late : List Turn) (o : Plane) :
    play (early ++ late) o = play late (play early o) := List.foldl_append

theorem play_concat (turns : List Turn) (t : Turn) (o : Plane) :
    play (turns ++ [t]) o = (play turns o).take t := play_append turns [t] o

/-! ### The sockets after a move -/

variable {p q : Plane} {m : Moment} {s : Socket} {k n : Nat}

theorem setSocket_self (hs : p.sockets[k]? = some s) (x : Socket × Hub) :
    (p.setSocket k x).sockets[k]? = some x.1 := by
  simp [setSocket, (List.getElem?_eq_some_iff.mp hs).1]

theorem setSocket_ne {j : Nat} (hj : j ≠ k) (x : Socket × Hub) :
    (p.setSocket j x).sockets[k]? = p.sockets[k]? := by simp [setSocket, hj]

theorem sockets_moveErrand (hm : p.moveErrand m n = some q) : q.sockets = p.sockets := by
  obtain ⟨v, _, hm⟩ := Option.bind_eq_some_iff.mp hm
  split at hm
  · obtain ⟨x, _, rfl⟩ := Option.map_eq_some_iff.mp hm
    rfl
  · cases hm

theorem sockets_moveFeed (hm : p.moveFeed n = some q) : q.sockets = p.sockets := by
  obtain ⟨v, _, hm⟩ := Option.bind_eq_some_iff.mp hm
  obtain ⟨id, _, hm⟩ := Option.bind_eq_some_iff.mp hm
  split at hm
  · split at hm
    · split at hm <;> (cases hm; rfl)
    · split at hm
      · cases hm
        rfl
      · cases hm
  · cases hm

theorem sockets_abandon (p : Plane) (n : Nat) : (p.abandon n).sockets = p.sockets := by
  unfold abandon
  split
  · rfl
  · split <;> rfl

end Plane

end Fleet.Control
