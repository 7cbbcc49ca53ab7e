import Fleet.Proofs.Control.Replies
import Fleet.Proofs.Machine.Calls

/-!
A client and the control plane over sockets that lose, delay and repeat what is put on them. Other
machines and browsers reach the control plane as they like; the client's sockets carry only what the
client wrote.
-/

namespace Fleet.Wire

open Control (Plane Answered Moment)
open Machine (Client)

structure Net where
  plane : Plane
  client : Client
  /-- The sockets that the client has dialed. -/
  links : List Nat := []
  /-- Whatever the client has written on them. -/
  posted : List Frame := []
  /-- The calls that the router has answered. -/
  log : List Answered := []

/-- One thing that happens anywhere. -/
inductive Event where
  /-- The control plane goes on, or something other than the client reaches it. -/
  | turn (t : Control.Turn)
  /-- The client is connected by a new socket. -/
  | link (m : Moment)
  | act (a : Machine.Act)
  /-- A frame of the client comes out of one of its sockets, now or once more. -/
  | sent (k : Nat) (f : Frame)
  /-- A frame that was written on one of its sockets reaches the client, now or once more. -/
  | heard (k : Nat) (f : Frame)
  /-- The client notices that a socket is at its end, or gets what is no text. -/
  | noise (x : Arrival)

namespace Net

def take (s : Net) : Event → Net
  | .turn t => { s with plane := s.plane.take t, log := s.plane.answers s.links s.log t }
  | .link m => { s with plane := s.plane.accept m, links := s.links ++ [s.plane.sockets.length] }
  | .act a => { s with client := s.client.take a, posted := s.posted ++ s.client.posts a }
  | .sent k f => { s with plane := s.plane.arrive k (.text f.text) }
  | .heard _ f => { s with client := s.client.arrive (.text f.text) }
  | .noise x => { s with client := s.client.arrive x }

def play (events : List Event) (s : Net) : Net := events.foldl take s

@[simp] theorem play_nil (s : Net) : s.play [] = s := rfl

@[simp] theorem play_cons (s : Net) (e : Event) (events : List Event) :
    s.play (e :: events) = (s.take e).play events := rfl

theorem play_append (s : Net) (before after : List Event) :
    s.play (before ++ after) = (s.play before).play after := List.foldl_append

/-- The sockets of the client carry what was put on them, and nothing else. -/
def Allows (s : Net) : Event → Prop
  | .turn ⟨_, .arrive k (.text _)⟩ => k ∉ s.links
  | .sent k f => k ∈ s.links ∧ f ∈ s.posted
  | .heard k f => k ∈ s.links ∧ f ∈ (s.plane.sockets[k]?.map Control.Socket.written).getD []
  | .noise (.text _) => False
  | _ => True

instance (s : Net) : DecidablePred s.Allows := fun e => by
  unfold Allows
  split <;> infer_instance

/-- The sockets of the client are its own throughout a run. -/
def Fair : List Event → Net → Prop
  | [], _ => True
  | e :: events, s => s.Allows e ∧ Fair events (s.take e)

instance decidableFair : (events : List Event) → (s : Net) → Decidable (Fair events s)
  | [], _ => .isTrue trivial
  | e :: events, s => @instDecidableAnd _ _ _ (decidableFair events (s.take e))

/-- Nobody has reached anybody yet. -/
def start (plane : Settings.ControlPlane) (policy : Vm.Policy) (store : Vm.Store)
    (secrets : List (String × String)) (router : Control.Router) (machine : Settings.Machine)
    (reconnect : Machine.Reconnect) (now : Nat) : Net where
  plane := .start plane policy store secrets router
  client := .start machine reconnect now

end Net

end Fleet.Wire
