import Fleet.Bridge.Runner

/-!
What can happen to a bridge, in any order: lines arrive, calls run out of time, turns take the history and
go on. Each move either leaves all turns alone or is a step of one of them.
-/

namespace Fleet.Bridge

/-! ### Messages -/

namespace Message

/-- What a runtime says in the course of a turn. -/
def isNative : Message → Bool
  | .reasoning _ | .assistantMessage _ | .toolStarted .. | .toolFinished .. => true
  | .cpRequest .. | .cpFireAndForget .. | .done _ | .error _ => false

def isTerminal : Message → Bool
  | .done _ | .error _ => true
  | _ => false

def isReport : Message → Bool
  | .cpFireAndForget .. => true
  | _ => false

def isSkillRequest : Message → Bool
  | .cpRequest _ method _ => method == Method.skillPackage
  | _ => false

/-- It ends no turn, reports nothing and asks for no skill. -/
def isInner (m : Message) : Bool := !m.isTerminal && !m.isReport && !m.isSkillRequest

theorem isInner_of_isNative {m : Message} (h : m.isNative = true) : m.isInner = true := by
  cases m <;> first | rfl | cases h

theorem not_isSkillRequest_of_isInner {m : Message} (h : m.isInner = true) : m.isSkillRequest = false := by
  simp only [isInner, Bool.and_eq_true, Bool.not_eq_true'] at h
  exact h.2

end Message

namespace Play

theorem isNative_toolMessages (n : Nat) (tools : List ToolUse) :
    ∀ m ∈ toolMessages n tools, m.isNative = true := by
  induction tools generalizing n with
  | nil => exact fun m h => absurd h List.not_mem_nil
  | cons t rest ih =>
    intro m h
    rcases List.mem_cons.mp h with rfl | h
    · rfl
    · rcases List.mem_cons.mp h with rfl | h
      · rfl
      · exact ih (n + 1) m h

/-- The runtimes that there are say native messages only. -/
theorem isNative_mock (i : TurnInput) : ∀ m ∈ (mock i).said, m.isNative = true := by
  intro m h
  simp only [mock, List.mem_append, List.mem_cons, List.not_mem_nil, or_false] at h
  rcases h with (rfl | h) | rfl
  · rfl
  · split at h
    · exact absurd h List.not_mem_nil
    · simp only [List.mem_cons, List.not_mem_nil, or_false] at h
      rcases h with rfl | rfl <;> rfl
  · rfl

theorem isNative_ofSdk (r : Except Error SdkReply) : ∀ m ∈ (ofSdk r).said, m.isNative = true := by
  cases r with
  | error e => exact fun m h => absurd h List.not_mem_nil
  | ok r =>
    intro m h
    simp only [ofSdk, ofReply, List.mem_append, Option.mem_toList, Option.map_eq_some_iff, List.mem_cons,
      List.not_mem_nil, or_false] at h
    rcases h with (⟨text, -, rfl⟩ | h) | rfl
    · rfl
    · exact isNative_toolMessages 0 r.tools m h
    · rfl

end Play

/-! ### Moves -/

inductive Move where
  /-- A line arrives. -/
  | line (bytes : List UInt8)
  | endInput
  /-- The turn at a place of the queue takes the history. -/
  | enter (place : Nat)
  | search
  | quit
  | say (m : Message)
  | finish (result : Except Error String)
  | expire
  | tick (ms : Nat)
  | wind

/-- Whether the move is none of a turn's, and not the winding up. -/
def Move.isOutside : Move → Bool
  | .line _ | .endInput | .expire | .tick _ => true
  | .enter _ | .search | .quit | .say _ | .finish _ | .wind => false

namespace Core

variable {c d : Core} {mv : Move} {out : List Message}

/-- What a move does, if it can be made. -/
def move (c : Core) : Move → Option (Core × List Message)
  | .line bytes => some (c.readLine bytes)
  | .endInput => some (c.endInput, [])
  | .enter place => c.enterAt place
  | .search => c.search
  | .quit => c.quit
  | .say m => c.speak m
  | .finish result => c.settle result
  | .expire => c.expire
  | .tick ms => (c.tick ms).map (·, [])
  | .wind => c.wind.map (·, [])

/-- Makes the moves that can be made, one after the other; the bridge at the end and all it wrote. -/
def play : Core → List Move → Core × List Message
  | c, [] => (c, [])
  | c, mv :: rest =>
    match c.move mv with
    | none => c.play rest
    | some (d, out) => ((d.play rest).1, out ++ (d.play rest).2)

/-- Turns may still end. -/
def isOpen (c : Core) : Bool :=
  match c.phase with
  | .reading | .draining _ => true
  | .flushing _ | .ended => false

/-- The user's message in a line that is read. -/
def heard (c : Core) : Move → Option String
  | .line bytes =>
    if c.phase ≠ .reading then none
    else match Text.decode? bytes with
      | none => none
      | some text =>
        if Text.isAllBlank text then none
        else match Command.decode text with
          | .ok (.userMessage message) => some message
          | _ => none
  | _ => none

theorem isOpen_of_heard {message : String} (h : c.heard mv = some message) : c.isOpen = true := by
  cases mv with
  | line bytes =>
    by_cases hreading : c.phase = .reading
    · rw [isOpen, hreading]
    · simp [heard, hreading] at h
  | _ => cases h

/-- What turns have to do with, before and after a move. -/
structure Goes (c d : Core) (queue : List Turn) (active : Option (Turn × Stage))
    (history : List ChatMessage) : Prop where
  runner : d.runner = c.runner
  isOpen : d.isOpen = c.isOpen
  session : ∀ s, c.session = some s → d.session = some s
  queue : d.queue = queue
  active : d.active = active
  history : d.history = history

/-- The turns are left alone, and at most a skill is asked for. -/
structure Aside (c d : Core) (out : List Message) : Prop where
  goes : c.Goes d c.queue c.active c.history
  skills : ∀ m ∈ out, m.isSkillRequest = true

theorem Goes.of_eq (hr : d.runner = c.runner) (hp : d.phase = c.phase) (hs : d.session = c.session) :
    c.Goes d d.queue d.active d.history := by
  refine ⟨hr, ?_, fun s h => hs.trans h, rfl, rfl, rfl⟩
  rw [Core.isOpen, hp, Core.isOpen]

theorem Aside.refl (c : Core) : c.Aside c [] :=
  ⟨Goes.of_eq rfl rfl rfl, fun _ h => absurd h List.not_mem_nil⟩

theorem aside_fetch (c : Core) (name : String) (left : List String) (loaded : List Json) :
    c.Aside (c.fetch name left loaded).1 (c.fetch name left loaded).2 := by
  refine ⟨Goes.of_eq rfl rfl rfl, fun m h => ?_⟩
  rw [List.mem_singleton.mp h]
  rfl

theorem aside_fetched (c : Core) (p : Prefetch) (package : Option Json) :
    c.Aside (c.fetched p package).1 (c.fetched p package).2 := by
  unfold fetched
  split
  · exact ⟨Goes.of_eq rfl rfl rfl, fun _ h => absurd h List.not_mem_nil⟩
  · exact aside_fetch c _ _ _

theorem aside_start (c : Core) (p : StartPayload) : c.Aside (c.start p).1 (c.start p).2 := by
  unfold start
  split
  · exact .refl c
  · rename_i hs
    have hbound (d : Core) (out : List Message) (h : { c with session := some p }.Aside d out) :
        c.Aside d out :=
      ⟨{ h.goes with session := fun s hc => absurd (hs.symm.trans hc) nofun }, h.skills⟩
    dsimp only
    split
    · exact hbound _ _ (.refl _)
    · exact hbound _ _ (aside_fetch _ _ _ _)

theorem aside_close (h : c.phase = .reading) : c.Aside c.close [] := by
  refine ⟨⟨rfl, ?_, fun _ hs => hs, rfl, rfl, rfl⟩, fun _ h => absurd h List.not_mem_nil⟩
  rw [isOpen, isOpen, h]
  rfl

/-- What a move comes to: it leaves the turns alone, or is a step of one of them. -/
inductive Moved (c d : Core) : Move → List Message → Prop
  | aside {mv : Move} {out : List Message}
      (outside : mv.isOutside = true) (silent : c.heard mv = none)
      (h : c.Aside d out) : Moved c d mv out
  | heard {bytes : List UInt8} {message : String} {token : Nat}
      (heard : c.heard (.line bytes) = some message)
      (goes : c.Goes d (c.queue ++ [⟨message, token⟩]) c.active c.history) : Moved c d (.line bytes) []
  | given {mv : Move} {t : Turn} {s : StartPayload} {skills : List Json} {call : Waiting}
      {memory : List String} (outside : mv.isOutside = true) (silent : c.heard mv = none)
      (active : c.active = some (t, .searching s skills call))
      (goes : c.Goes d c.queue
        (some (t, .running ⟨s.sessionId, t.message, c.history, memory, skills, s.agentConfig⟩))
        c.history) : Moved c d mv []
  | refused {place : Nat} {t : Turn} {f : Fault} (free : c.active = none)
      (queued : c.queue[place]? = some t)
      (goes : c.Goes d (c.queue.eraseIdx place) none c.history) : Moved c d (.enter place) [.error f]
  | entered {place : Nat} {t : Turn} {s : StartPayload} (free : c.active = none)
      (queued : c.queue[place]? = some t) (session : c.session = some s)
      (goes : c.Goes d (c.queue.eraseIdx place) (some (t, .entered s)) c.history) :
      Moved c d (.enter place) []
  | searched {t : Turn} {s : StartPayload} {call : Waiting} {id : String} {params : Json}
      (active : c.active = some (t, .entered s))
      (goes : c.Goes d c.queue (some (t, .searching s c.skills call)) c.history) :
      Moved c d .search [.cpRequest id Method.memorySearch params]
  | quit {t : Turn} {stage : Stage} (active : c.active = some (t, stage))
      (goes : c.Goes d c.queue none c.history) : Moved c d .quit [.done true]
  | spoke {t : Turn} {input : TurnInput} {m : Message} (active : c.active = some (t, .running input))
      (same : d = c) : Moved c d (.say m) [m]
  | answered {t : Turn} {input : TurnInput} {reply : String} (active : c.active = some (t, .running input))
      (goes : c.Goes d c.queue none (c.history ++ [.user t.message, .assistant reply])) :
      Moved c d (.finish (.ok reply)) (c.usage input.sessionId t.message reply ++ [.done false])
  | failed {t : Turn} {input : TurnInput} {e : Error} (active : c.active = some (t, .running input))
      (goes : c.Goes d c.queue none c.history) : Moved c d (.finish (.error e)) [.error (failure e)]
  | shut (isOpen : c.isOpen = true) (shut : d = { c with phase := d.phase, queue := [], active := none })
      (closed : d.isOpen = false) : Moved c d .wind []
  | ended (closed : c.isOpen = false) (goes : c.Goes d c.queue c.active c.history) : Moved c d .wind []

theorem resolve_cases (c : Core) (id : String) (outcome : Except Fault Json) :
    c.Aside (c.resolve id outcome).1 (c.resolve id outcome).2 ∨
    ∃ t s skills call memory, c.active = some (t, .searching s skills call) ∧
      c.resolve id outcome = (c.run t s skills memory, []) := by
  have helsewhere : c.Aside (resolve.elsewhere c id outcome).1 (resolve.elsewhere c id outcome).2 ∨
      ∃ t s skills call memory, c.active = some (t, .searching s skills call) ∧
        resolve.elsewhere c id outcome = (c.run t s skills memory, []) := by
    unfold resolve.elsewhere
    split
    · rename_i t s skills call hactive
      split
      · exact .inr ⟨t, s, skills, call, _, hactive, rfl⟩
      · exact .inl (.refl c)
    · exact .inl (.refl c)
  unfold resolve
  split
  · split
    · exact .inl (aside_fetched c _ _)
    · exact helsewhere
  · exact helsewhere

theorem goes_run (c : Core) (t : Turn) (s : StartPayload) (skills : List Json) (memory : List String) :
    c.Goes (c.run t s skills memory) c.queue
      (some (t, .running ⟨s.sessionId, t.message, c.history, memory, skills, s.agentConfig⟩))
      c.history :=
  Goes.of_eq rfl rfl rfl

theorem moved_line (c : Core) (bytes : List UInt8) :
    c.Moved (c.readLine bytes).1 (.line bytes) (c.readLine bytes).2 := by
  by_cases hreading : c.phase = .reading
  case neg =>
    rw [readLine, if_pos hreading]
    exact .aside rfl (by simp [heard, hreading]) (.refl c)
  cases htext : Text.decode? bytes with
  | none =>
    have hread : c.readLine bytes = (c.close, []) := by simp [readLine, hreading, htext]
    rw [hread]
    exact .aside rfl (by simp [heard, hreading, htext]) (aside_close hreading)
  | some text =>
    by_cases hblank : Text.isAllBlank text = true
    · have hread : c.readLine bytes = (c, []) := by simp [readLine, hreading, htext, hblank]
      rw [hread]
      exact .aside rfl (by simp [heard, hreading, htext, hblank]) (.refl c)
    cases hcommand : Command.decode text with
    | error e =>
      have hread : c.readLine bytes = (c, []) := by simp [readLine, hreading, htext, hblank, hcommand]
      rw [hread]
      exact .aside rfl (by simp [heard, hreading, htext, hblank, hcommand]) (.refl c)
    | ok command =>
      have hread : c.readLine bytes = c.command command := by
        simp [readLine, hreading, htext, hblank, hcommand]
      rw [hread]
      cases command with
      | userMessage message =>
        exact .heard (by simp [heard, hreading, htext, hblank, hcommand]) (Goes.of_eq rfl rfl rfl)
      | start p =>
        exact .aside rfl (by simp [heard, hreading, htext, hblank, hcommand]) (aside_start c p)
      | cancel =>
        exact .aside rfl (by simp [heard, hreading, htext, hblank, hcommand])
          ⟨Goes.of_eq rfl rfl rfl, fun _ h => absurd h List.not_mem_nil⟩
      | stop =>
        exact .aside rfl (by simp [heard, hreading, htext, hblank, hcommand]) (aside_close hreading)
      | cpResponse id result fault =>
        have hsilent : c.heard (.line bytes) = none := by simp [heard, hreading, htext, hblank, hcommand]
        obtain ⟨outcome, hresolve⟩ :
            ∃ outcome, c.command (.cpResponse id result fault) = c.resolve id outcome := ⟨_, rfl⟩
        rw [hresolve]
        rcases c.resolve_cases id outcome with h | ⟨t, s, skills, call, memory, hactive, h⟩
        · exact .aside rfl hsilent h
        · rw [h]
          exact .given rfl hsilent hactive (c.goes_run t s skills memory)

/-- Each move that can be made is one of those. -/
theorem move_cases (h : c.move mv = some (d, out)) : c.Moved d mv out := by
  cases mv with
  | line bytes =>
    have hline := c.moved_line bytes
    rwa [Option.some.inj h] at hline
  | endInput =>
    cases h
    unfold endInput
    split
    · exact .aside rfl rfl (aside_close ‹_›)
    · exact .aside rfl rfl (.refl c)
  | enter place =>
    change c.enterAt place = _ at h
    unfold enterAt at h
    split at h
    · rename_i t hfree hqueued
      dsimp only at h
      split at h
      · cases h
        exact .refused hfree hqueued ⟨rfl, rfl, fun _ hs => hs, rfl, hfree, rfl⟩
      · rename_i s hs
        cases h
        exact .entered hfree hqueued hs ⟨rfl, rfl, fun _ hs => hs, rfl, rfl, rfl⟩
    · cases h
  | search =>
    change c.search = _ at h
    unfold search at h
    split at h
    · rename_i t s hactive _
      cases h
      exact .searched hactive (Goes.of_eq rfl rfl rfl)
    · cases h
  | quit =>
    change c.quit = _ at h
    unfold quit at h
    split at h
    · rename_i t s hactive
      split at h
      · cases h
        exact .quit hactive (Goes.of_eq rfl rfl rfl)
      · cases h
    · rename_i t stage _ hactive
      split at h
      · cases h
        exact .quit hactive (Goes.of_eq rfl rfl rfl)
      · cases h
    · cases h
  | say m =>
    change c.speak m = _ at h
    unfold speak at h
    split at h
    · rename_i hactive
      cases h
      exact .spoke hactive rfl
    · cases h
  | finish result =>
    change c.settle result = _ at h
    unfold settle at h
    split at h
    · rename_i t input hactive
      cases result with
      | ok reply =>
        cases h
        exact .answered hactive (Goes.of_eq rfl rfl rfl)
      | error e =>
        cases h
        exact .failed hactive (Goes.of_eq rfl rfl rfl)
    · cases h
  | expire =>
    change c.expire = _ at h
    unfold expire at h
    dsimp only at h
    split at h
    · rename_i p _
      have hfetched := aside_fetched c p none
      rw [Option.some.inj h] at hfetched
      exact .aside rfl rfl hfetched
    · split at h
      · rename_i t s skills call hactive
        split at h
        · cases h
          exact .given rfl rfl hactive (c.goes_run t s skills [])
        · cases h
      · cases h
  | tick ms =>
    obtain ⟨e, he, heq⟩ := Option.map_eq_some_iff.mp h
    cases heq
    unfold tick at he
    split at he
    · cases he
      exact .aside rfl rfl ⟨Goes.of_eq rfl rfl rfl, fun _ h => absurd h List.not_mem_nil⟩
    · cases he
  | wind =>
    obtain ⟨e, he, heq⟩ := Option.map_eq_some_iff.mp h
    cases heq
    unfold wind at he
    split at he
    · rename_i limit hphase
      have hopen : c.isOpen = true := by simp [isOpen, hphase]
      split at he
      · rename_i hdone
        cases he
        refine .shut hopen ?_ rfl
        rw [List.isEmpty_iff.mp hdone.1, Option.isNone_iff_eq_none.mp hdone.2]
      · split at he
        · cases he
          exact .shut hopen rfl rfl
        · cases he
    · rename_i limit hphase
      split at he
      · cases he
        refine .ended (by simp [isOpen, hphase]) ⟨rfl, ?_, fun _ hs => hs, rfl, rfl, rfl⟩
        simp [isOpen, hphase]
      · cases he
    · cases he
    · cases he

end Core

end Fleet.Bridge
