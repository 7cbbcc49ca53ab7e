import Fleet.Proofs.Bridge.Watching

/-!
What a bridge is ordered to do, and exactly what each move makes of it. A line that is read gives an order or
is passed over; bytes that are no text and the end of the input are as good as an order to stop.
-/

namespace Fleet.Bridge

namespace Core

variable {c d : Core} {mv : Move} {out : List Message}

/-! ### Orders -/

/-- What a line orders, if it is read and can be. -/
def lineOrder (c : Core) (bytes : List UInt8) : Option Command :=
  if c.phase ≠ .reading then none
  else match Text.decode? bytes with
    | none => some .stop
    | some text => if Text.isAllBlank text then none else (Command.decode text).toOption

/-- What comes from outside orders a bridge. -/
def order (c : Core) : Move → Option Command
  | .line bytes => c.lineOrder bytes
  | .endInput => if c.phase = .reading then some .stop else none
  | _ => none

theorem readLine_eq (c : Core) (bytes : List UInt8) :
    c.readLine bytes = ((c.lineOrder bytes).map c.command).getD (c, []) := by
  unfold readLine lineOrder
  split
  · rfl
  · cases Text.decode? bytes with
    | none => rfl
    | some text =>
      dsimp only
      split
      · rfl
      · cases Command.decode text <;> rfl

theorem reading_of_order {cmd : Command} (h : c.order mv = some cmd) : c.phase = .reading := by
  cases mv with
  | line bytes =>
    simp only [order, lineOrder] at h
    split at h
    · cases h
    · rename_i hreading
      exact Decidable.not_not.mp hreading
  | endInput =>
    simp only [order] at h
    split at h
    · assumption
    · cases h
  | _ => cases h

theorem isOutside_of_order {cmd : Command} (h : c.order mv = some cmd) : mv.isOutside = true := by
  cases mv <;> first | rfl | cases h

/-- A message is heard if that is what is ordered. -/
theorem heard_eq (c : Core) (mv : Move) :
    c.heard mv = match c.order mv with
      | some (.userMessage message) => some message
      | _ => none := by
  cases mv with
  | line bytes =>
    simp only [heard, order, lineOrder]
    split
    · rfl
    · cases Text.decode? bytes with
      | none => rfl
      | some text =>
        dsimp only
        split
        · rfl
        · cases Command.decode text with
          | error e => rfl
          | ok command => cases command <;> rfl
  | endInput =>
    simp only [heard, order]
    split <;> simp_all
  | _ => rfl

/-- What a response says: its fault, if it has one. -/
def outcome (result : Option Json) (fault : Option Fault) : Except Fault Json :=
  match fault with
  | some f => .error f
  | none => .ok (result.getD .null)

theorem command_cpResponse (c : Core) (id : String) (result : Option Json) (fault : Option Fault) :
    c.command (.cpResponse id result fault) = c.resolve id (outcome result fault) := rfl

/-! ### Moves -/

/-- All that a move can do. -/
inductive Made (c : Core) : Move → Core → List Message → Prop
  | ordered {mv : Move} {cmd : Command} (order : c.order mv = some cmd) :
    Made c mv (c.command cmd).1 (c.command cmd).2
  | passed {mv : Move} (outside : mv.isOutside = true) (order : c.order mv = none) : Made c mv c []
  | refused {place : Nat} {t : Turn} {f : Fault} (free : c.active = none) (queued : c.queue[place]? = some t)
    (session : c.session = none) :
    Made c (.enter place) { c with queue := c.queue.eraseIdx place } [.error f]
  | entered {place : Nat} {t : Turn} {s : StartPayload} (free : c.active = none)
    (queued : c.queue[place]? = some t) (session : c.session = some s) :
    Made c (.enter place) { c with queue := c.queue.eraseIdx place, active := some (t, .entered s) } []
  | searched {t : Turn} {s : StartPayload} (active : c.active = some (t, .entered s))
    (idle : c.prefetch = none) :
    Made c .search
      { c with
        calls := c.calls + 1
        active := some (t, .searching s c.skills
          ⟨c.calls + 1, Method.memorySearch, c.clock + c.timeout⟩) }
      [.cpRequest (callId (c.calls + 1)) Method.memorySearch (Graph.Node.query t.message 3)]
  | quit {t : Turn} {stage : Stage} (active : c.active = some (t, stage))
    (cancelled : c.isCancelled t = true) : Made c .quit { c with active := none } [.done true]
  | spoke {t : Turn} {input : TurnInput} {m : Message} (active : c.active = some (t, .running input)) :
    Made c (.say m) c [m]
  | answered {t : Turn} {input : TurnInput} {reply : String} (active : c.active = some (t, .running input)) :
    Made c (.finish (.ok reply))
      { c with history := c.history ++ [.user t.message, .assistant reply], active := none }
      (c.usage input.sessionId t.message reply ++ [.done false])
  | failed {t : Turn} {input : TurnInput} {e : Error} (active : c.active = some (t, .running input)) :
    Made c (.finish (.error e)) { c with active := none } [.error (failure e)]
  /-- The call for a skill has reached its deadline. -/
  | missed {p : Prefetch} (prefetch : c.prefetch = some p) (due : p.call.deadline ≤ c.clock) :
    Made c .expire (c.fetched p none).1 (c.fetched p none).2
  /-- The call to the memory has reached its deadline. -/
  | forgot {t : Turn} {s : StartPayload} {skills : List Json} {w : Waiting}
    (active : c.active = some (t, .searching s skills w)) (due : w.deadline ≤ c.clock) :
    Made c .expire (c.run t s skills []) []
  | ticked {ms : Nat} (early : ∀ limit ∈ c.limits, c.clock + ms ≤ limit) :
    Made c (.tick ms) { c with clock := c.clock + ms } []
  | shut {limit : Nat} (draining : c.phase = .draining limit) :
    Made c .wind { c with phase := .flushing (c.clock + flushTime), queue := [], active := none } []
  | ended {limit : Nat} (flushing : c.phase = .flushing limit) : Made c .wind { c with phase := .ended } []

theorem made_of_order (hmv : ∀ cmd, c.order mv = some cmd → c.move mv = some (c.command cmd))
    (hnone : c.order mv = none → c.move mv = some (c, [])) (outside : mv.isOutside = true)
    (h : c.move mv = some (d, out)) : c.Made mv d out := by
  cases horder : c.order mv with
  | none =>
    rw [hnone horder] at h
    cases h
    exact .passed outside horder
  | some cmd =>
    rw [hmv cmd horder] at h
    obtain ⟨rfl, rfl⟩ := Prod.mk.inj (Option.some.inj h)
    exact .ordered horder

theorem made (h : c.move mv = some (d, out)) : c.Made mv d out := by
  cases mv with
  | line bytes =>
    refine made_of_order (fun cmd horder => ?_) (fun horder => ?_) rfl h
    · replace horder : c.lineOrder bytes = some cmd := horder
      simp [move, readLine_eq, horder]
    · replace horder : c.lineOrder bytes = none := horder
      simp [move, readLine_eq, horder]
  | endInput =>
    refine made_of_order (fun cmd horder => ?_) (fun horder => ?_) rfl h
    · have hreading := reading_of_order horder
      simp only [order, if_pos hreading, Option.some.injEq] at horder
      subst horder
      simp [move, endInput, hreading, command]
    · have hover : c.phase ≠ .reading := by
        intro hreading
        simp [order, hreading] at horder
      simp [move, endInput, hover]
  | enter place =>
    change c.enterAt place = _ at h
    unfold enterAt at h
    split at h
    · rename_i t hfree hqueued
      dsimp only at h
      split at h
      · rename_i hs
        cases h
        exact .refused hfree hqueued hs
      · rename_i s hs
        cases h
        exact .entered hfree hqueued hs
    · cases h
  | search =>
    change c.search = _ at h
    unfold search at h
    split at h
    · rename_i t s hactive hidle
      cases h
      exact .searched hactive hidle
    · cases h
  | quit =>
    change c.quit = _ at h
    unfold quit at h
    split at h
    · rename_i t s hactive
      split at h
      · rename_i hcancelled
        cases h
        exact .quit hactive hcancelled.1
      · cases h
    · rename_i t stage _ hactive
      split at h
      · rename_i hcancelled
        cases h
        exact .quit hactive hcancelled
      · cases h
    · cases h
  | say m =>
    change c.speak m = _ at h
    unfold speak at h
    split at h
    · rename_i hactive
      cases h
      exact .spoke hactive
    · cases h
  | finish result =>
    change c.settle result = _ at h
    unfold settle at h
    split at h
    · rename_i t input hactive
      cases result with
      | ok reply =>
        cases h
        exact .answered hactive
      | error e =>
        cases h
        exact .failed hactive
    · cases h
  | expire =>
    change c.expire = _ at h
    unfold expire at h
    dsimp only at h
    split at h
    · rename_i p hp
      obtain ⟨hp, hdue⟩ := Option.filter_eq_some_iff.mp hp
      obtain ⟨rfl, rfl⟩ := Prod.mk.inj (Option.some.inj h)
      exact .missed hp (of_decide_eq_true hdue)
    · split at h
      · rename_i t s skills w hactive
        split at h
        · rename_i hdue
          cases h
          exact .forgot hactive (of_decide_eq_true hdue)
        · cases h
      · cases h
  | tick ms =>
    obtain ⟨e, he, heq⟩ := Option.map_eq_some_iff.mp h
    cases heq
    unfold tick at he
    split at he
    · rename_i hearly
      cases he
      exact .ticked fun limit hlimit => of_decide_eq_true (List.all_eq_true.mp hearly limit hlimit)
    · cases he
  | wind =>
    obtain ⟨e, he, heq⟩ := Option.map_eq_some_iff.mp h
    cases heq
    unfold wind at he
    split at he
    · rename_i limit hphase
      split at he
      · rename_i hdone
        cases he
        have hsame := Made.shut hphase
        rwa [← List.isEmpty_iff.mp hdone.1, ← Option.isNone_iff_eq_none.mp hdone.2] at hsame
      · split at he
        · cases he
          exact .shut hphase
        · cases he
    · rename_i limit hphase
      split at he
      · cases he
        exact .ended hphase
      · cases he
    · cases he
    · cases he

/-- A bridge that has just been given its session. -/
theorem started (runner : String) (timeout : Nat) (p : StartPayload) :
    let c := (Core.start { runner, timeout } p).1
    c.session = some p ∧ c.queue = [] ∧ c.active = none := by
  simp only [Core.start]
  split <;> exact ⟨rfl, rfl, rfl⟩

end Core

/-- A watch that begins when a bridge has been given its session. -/
def Watch.started (runner : String) (timeout : Nat) (p : StartPayload) : Watch :=
  { core := (Core.start { runner, timeout } p).1
    written := (Core.start { runner, timeout } p).2.map fun m => (none, m) }

end Fleet.Bridge
