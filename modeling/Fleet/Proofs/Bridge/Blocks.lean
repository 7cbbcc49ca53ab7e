import Fleet.Proofs.Bridge.Moves
import Mathlib.Data.List.TakeWhile

/-!
The block of a turn: what it wrote, closed by how it ended. A block has one terminal message, and reports
the usage of a turn that was answered, which adds the user's message and the reply to the history.
-/

namespace Fleet.Bridge

/-- How a turn ended. -/
inductive Ending where
  | answered (reply : String)
  | cancelled
  | failed (fault : Fault)
  deriving DecidableEq, Repr

def Ending.message : Ending → Message
  | .answered _ => .done false
  | .cancelled => .done true
  | .failed f => .error f

/-- What one turn wrote, and its number. -/
structure Block where
  turn : Nat
  body : List Message
  ending : Ending
  deriving DecidableEq, Repr

namespace Block

variable {c d : Core} {asked more : List String} {b : Block} {blocks : List Block} {n : Nat}

def lines (b : Block) : List (Nat × Message) := (b.body ++ [b.ending.message]).map fun m => (b.turn, m)

/-- What a turn adds to the history: the user's message and the reply, if there is one. -/
def exchange (asked : List String) (b : Block) : List ChatMessage :=
  match asked[b.turn]?, b.ending with
  | some message, .answered reply => [.user message, .assistant reply]
  | _, _ => []

def replied (b : Block) : Option (Nat × String) :=
  match b.ending with
  | .answered reply => some (b.turn, reply)
  | _ => none

/-- No message before the last is terminal. A turn reports its usage just if it was answered. -/
structure Proper (c : Core) (asked : List String) (b : Block) : Prop where
  single : ∀ m ∈ b.body, m.isTerminal = false
  reported : ∀ reply, b.ending = .answered reply → ∃ s message, c.session = some s ∧
    asked[b.turn]? = some message ∧ b.body.filter Message.isReport = c.usage s.sessionId message reply
  unreported : (∀ reply, b.ending ≠ .answered reply) → b.body.filter Message.isReport = []

theorem Proper.mono {queue : List Turn} {active : Option (Turn × Stage)} {history : List ChatMessage}
    (hp : b.Proper c asked) (hg : c.Goes d queue active history) (hm : asked <+: more) :
    b.Proper d more := by
  refine ⟨hp.single, fun reply h => ?_, hp.unreported⟩
  obtain ⟨s, message, hsession, hasked, hreports⟩ := hp.reported reply h
  obtain ⟨rest, rfl⟩ := hm
  refine ⟨s, message, hg.session s hsession, ?_, ?_⟩
  · rw [List.getElem?_append_left (List.getElem?_eq_some_iff.mp hasked).1, hasked]
  · rw [hreports, Core.usage, Core.usage, hg.runner]

/-- A turn that got no reply and wrote nothing but its end. -/
theorem Proper.of_unanswered {ending : Ending} (h : ∀ reply, ending ≠ .answered reply) :
    (⟨n, [], ending⟩ : Block).Proper c asked :=
  ⟨fun _ h => absurd h List.not_mem_nil, fun reply he => absurd he (h reply), fun _ => rfl⟩

theorem Proper.of_answered {s : StartPayload} {message reply : String} (hs : c.session = some s)
    (hasked : asked[n]? = some message) :
    (⟨n, c.usage s.sessionId message reply, .answered reply⟩ : Block).Proper c asked := by
  refine ⟨fun m h => ?_, fun r h => ?_, fun h => absurd rfl (h reply)⟩
  · simp only [Core.usage, List.mem_cons, List.not_mem_nil, or_false] at h
    rcases h with rfl | rfl <;> rfl
  · cases h
    exact ⟨s, message, hs, hasked, rfl⟩

/-- What a turn wrote before does not matter, as long as it is none of what it ends with. -/
theorem Proper.prepend {body extra : List Message} {ending : Ending}
    (hp : (⟨n, extra, ending⟩ : Block).Proper c asked) (hbody : ∀ m ∈ body, m.isInner = true) :
    (⟨n, body ++ extra, ending⟩ : Block).Proper c asked := by
  have hnone : body.filter Message.isReport = [] := by
    rw [List.filter_eq_nil_iff]
    intro m hm
    have := hbody m hm
    simp only [Message.isInner, Bool.and_eq_true, Bool.not_eq_true'] at this
    simp [this.1.2]
  have hreports : (body ++ extra).filter Message.isReport = extra.filter Message.isReport := by
    rw [List.filter_append, hnone, List.nil_append]
  refine ⟨fun m hm => ?_, fun reply h => ?_, fun h => ?_⟩
  · rcases List.mem_append.mp hm with hm | hm
    · have := hbody m hm
      simp only [Message.isInner, Bool.and_eq_true, Bool.not_eq_true'] at this
      exact this.1.1
    · exact hp.single m hm
  · obtain ⟨s, message, hs, hasked, h⟩ := hp.reported reply h
    exact ⟨s, message, hs, hasked, hreports.trans h⟩
  · exact hreports.trans (hp.unreported h)

theorem exchange_append (h : b.turn < asked.length) (more : List String) :
    b.exchange (asked ++ more) = b.exchange asked := by
  rw [exchange, exchange, List.getElem?_append_left h]

theorem before_eq_self (hn : n ∉ blocks.map turn) : blocks.takeWhile (fun b => b.turn != n) = blocks := by
  rw [List.takeWhile_eq_self_iff]
  intro a ha
  rw [bne_iff_ne]
  exact fun h => hn (List.mem_map.mpr ⟨a, ha, h⟩)

/-- The blocks before the one of a turn stay the same when the next one is closed. -/
theorem before_append (hb : b.turn ∉ blocks.map turn) (hn : n ∈ blocks.map turn ∨ n = b.turn) :
    (blocks ++ [b]).takeWhile (fun b => b.turn != n) = blocks.takeWhile fun b => b.turn != n := by
  by_cases hmem : n ∈ blocks.map turn
  · obtain ⟨a, ha, rfl⟩ := List.mem_map.mp hmem
    obtain ⟨front, back, rfl⟩ := List.append_of_mem ha
    simp [List.takeWhile_append]
  · obtain rfl : n = b.turn := hn.resolve_left hmem
    rw [List.takeWhile_append, before_eq_self hb]
    simp

end Block

end Fleet.Bridge
