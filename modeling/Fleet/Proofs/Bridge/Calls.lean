import Fleet.Proofs.Bridge.Notes

/-!
The calls of a bridge to the control plane. The skills are fetched one after another before any turn asks the
memory, and only one turn asks at a time, so at most one call is open. A response that does not bear its id
changes nothing.
-/

namespace Fleet.Bridge

open Note (Books Settled answerOf openedId? closedId?)

variable {c d : Core} {mv : Move} {out : List Message} {n : Nat} {notes more : List Note} {p : StartPayload}
  {w : Option Waiting} {t : Turn} {s : StartPayload} {skills memory : List Json} {call : Waiting}

/-! ### What is watched -/

namespace Watch

/-- How calls end that are open before a move and not after it. -/
def closing (w : Watch) (mv : Move) : Closing :=
  match w.core.order mv, mv with
  | some (.cpResponse _ result fault), _ => .answered (Core.outcome result fault)
  | _, .expire => .timedOut
  | _, _ => .givenUp

/-- What an order brings that concerns calls. -/
def overheard (w : Watch) (mv : Move) : List Note :=
  match w.core.order mv with
  | some (.cpResponse id result fault) => [.heard id (Core.outcome result fault) w.core.clock]
  | some .cancel | some .stop => [.cancelled]
  | _ => []

/-- The calls that end when the bridge goes on to `d`. -/
def closings (w : Watch) (d : Core) (mv : Move) : List Note :=
  (w.core.waiting.filter (· ∉ d.waiting)).map fun x =>
    .closed (Core.callId x.number) (w.closing mv) w.core.clock

/-- The calls that a move opens. What a runtime says is none. -/
def openings (w : Watch) (out : List Message) : Move → List Note
  | .say _ => []
  | mv => Note.openings (w.author mv) w.core.clock out

/-- What is noted of a move. -/
def noted (w : Watch) (d : Core) (out : List Message) (mv : Move) : List Note :=
  w.overheard mv ++ w.closings d mv ++ w.openings out mv

end Watch

/-- A bridge that is watched, and what is noted of its calls. -/
structure Callbook where
  watch : Watch
  notes : List Note := []

namespace Callbook

/-- A bridge that has been given its session. -/
def start (runner : String) (timeout : Nat) (p : StartPayload) : Callbook where
  watch := .started runner timeout p
  notes := Note.openings none 0 (Core.start { runner, timeout } p).2

def take (b : Callbook) (mv : Move) : Callbook :=
  match b.watch.core.move mv with
  | some (d, out) => { watch := b.watch.take mv, notes := b.notes ++ b.watch.noted d out mv }
  | none => b

def run (runner : String) (timeout : Nat) (p : StartPayload) (moves : List Move) : Callbook :=
  moves.foldl take (start runner timeout p)

/-- What is watched is the bridge itself. -/
theorem run_watch (runner : String) (timeout : Nat) (p : StartPayload) (moves : List Move) :
    (run runner timeout p moves).watch = moves.foldl Watch.take (.started runner timeout p) := by
  induction moves using List.reverseRecOn with
  | nil => rfl
  | append_singleton moves mv ih =>
    rw [run, List.foldl_append, List.foldl_append, ← ih]
    change (take (run runner timeout p moves) mv).watch = (run runner timeout p moves).watch.take mv
    unfold take
    split
    · rfl
    · rename_i hmove
      rw [Watch.take, hmove]

end Callbook

/-! ### Skills and memory -/

/-- What the calls for the first skills got. -/
def packages (notes : List Note) (count : Nat) : List Json :=
  (List.range count).filterMap fun i => answerOf notes (Core.callId (i + 1))

/-- The calls for the first skills were made, in their order. -/
def Asked (notes : List Note) (p : StartPayload) (count : Nat) : Prop :=
  ∀ i name, i < count → p.skills[i]? = some name → ∃ time,
    .opened none (Core.callId (i + 1)) Method.skillPackage (Json.object [("name", .str name)]) time ∈ notes

/-- The calls for the first skills have ended. -/
def Over (notes : List Note) (count : Nat) : Prop :=
  ∀ i < count, Core.callId (i + 1) ∈ notes.filterMap closedId?

/-- A turn was given the skills that could be fetched, once all calls for skills had ended, and what its own
call to the memory got. -/
structure Served (notes : List Note) (p : StartPayload) (x : Nat × TurnInput) : Prop where
  asked : Asked notes p p.skills.length
  settled : Over notes p.skills.length
  skills : x.2.skills = packages notes p.skills.length
  memory : ∃ id time,
    .opened (some x.1) id Method.memorySearch (Graph.Node.query x.2.message 3) time ∈ notes ∧
    id ∈ notes.filterMap closedId? ∧ x.2.memory = ((answerOf notes id).map memoryHits).getD []

theorem packages_succ (notes : List Note) (count : Nat) :
    packages notes (count + 1) = packages notes count ++ (answerOf notes (Core.callId (count + 1))).toList := by
  rw [packages, List.range_succ, List.filterMap_append]
  cases h : answerOf notes (Core.callId (count + 1)) <;> simp [packages, h]

theorem Asked.append {count : Nat} (h : Asked notes p count) (more : List Note) :
    Asked (notes ++ more) p count := by
  intro i name hi hname
  obtain ⟨time, hmem⟩ := h i name hi hname
  exact ⟨time, List.mem_append_left _ hmem⟩

theorem mem_closedIds_append {id : String} (h : id ∈ notes.filterMap closedId?) (more : List Note) :
    id ∈ (notes ++ more).filterMap closedId? := by
  rw [List.filterMap_append]
  exact List.mem_append_left _ h

theorem Over.append {count : Nat} (h : Over notes count) (more : List Note) : Over (notes ++ more) count :=
  fun i hi => mem_closedIds_append (h i hi) more

/-- Calls that are over got what they got. -/
theorem answerOf_later {id : String} (hmore : ∀ i ∈ more.filterMap closedId?, i ∉ notes.filterMap closedId?)
    (h : id ∈ notes.filterMap closedId?) : answerOf (notes ++ more) id = answerOf notes id :=
  Note.answerOf_append fun hmem => hmore id hmem h

theorem packages_append {count : Nat} (h : Over notes count)
    (hmore : ∀ i ∈ more.filterMap closedId?, i ∉ notes.filterMap closedId?) :
    packages (notes ++ more) count = packages notes count := by
  refine List.filterMap_congr fun i hi => ?_
  exact answerOf_later hmore (h i (List.mem_range.mp hi))

theorem Served.append {x : Nat × TurnInput} (h : Served notes p x)
    (hmore : ∀ i ∈ more.filterMap closedId?, i ∉ notes.filterMap closedId?) : Served (notes ++ more) p x := by
  obtain ⟨id, time, hopened, hclosed, hmemory⟩ := h.memory
  refine ⟨h.asked.append more, h.settled.append more, ?_, id, time, List.mem_append_left _ hopened,
    mem_closedIds_append hclosed more, ?_⟩
  · rw [packages_append h.settled hmore]
    exact h.skills
  · rw [answerOf_later hmore hclosed]
    exact hmemory

/-! ### Turns by number -/

/-- The turns of a bridge have numbers, and none is left at the end. -/
structure Watch.Paired (w : Watch) : Prop where
  queue : w.queue.length = w.core.queue.length
  active : w.active.isSome = w.core.active.isSome
  closed : w.core.isOpen = false → w.core.queue = [] ∧ w.core.active = none

namespace Watch

variable {w : Watch}

theorem queueAfter_of_outside (h : mv.isOutside = true) :
    w.queueAfter mv = w.queue ++ ((w.core.heard mv).map fun _ => w.asked.length).toList := by
  cases mv <;> first | rfl | cases h

theorem Paired.started (runner : String) (timeout : Nat) (p : StartPayload) :
    (Watch.started runner timeout p).Paired := by
  obtain ⟨-, hqueue, hactive⟩ := Core.started runner timeout p
  refine ⟨?_, ?_, fun _ => ⟨hqueue, hactive⟩⟩
  · change 0 = (Core.start { runner, timeout } p).1.queue.length
    rw [hqueue]
    rfl
  · change false = (Core.start { runner, timeout } p).1.active.isSome
    rw [hactive]
    rfl

namespace Paired

theorem isSome_or (h : w.Paired) (hactive : w.core.active.isSome = true) (x : Option Nat) :
    (w.active.or x).isSome = true := by
  rw [Option.isSome_or, h.active, hactive, Bool.true_or]

theorem goes (hmove : w.core.move mv = some (d, out)) {queue : List Turn} {active : Option (Turn × Stage)}
    {history : List ChatMessage} (hg : w.core.Goes d queue active history)
    (hqueue : (w.queueAfter mv).length = queue.length)
    (hactive : active.isSome = true → (w.active.or (w.author mv)).isSome = true)
    (hclosed : w.core.isOpen = false → queue = [] ∧ active = none) : (w.take mv).Paired := by
  rw [take, hmove]
  refine ⟨?_, ?_, fun hc => ?_⟩
  · rw [hg.queue]
    exact hqueue
  · dsimp only
    rw [hg.active]
    split
    · rename_i hsome
      rw [hactive hsome, hsome]
    · rename_i hnone
      exact (Bool.eq_false_iff.mpr hnone).symm
  · obtain ⟨hempty, hfree⟩ := hclosed (hg.isOpen.symm.trans hc)
    exact ⟨hg.queue.trans hempty, hg.active.trans hfree⟩

theorem take (h : w.Paired) (mv : Move) : (w.take mv).Paired := by
  cases hmove : w.core.move mv with
  | none =>
    rw [Watch.take, hmove]
    exact h
  | some x =>
    obtain ⟨d, out⟩ := x
    -- a turn that holds the history or waits is not left at the end
    have hheld {t : Turn} {stage : Stage} (hactive : w.core.active = some (t, stage)) : w.core.isOpen ≠ false :=
      fun hc => by simp [(h.closed hc).2] at hactive
    have hqueued {place : Nat} {t : Turn} (hq : w.core.queue[place]? = some t) :
        w.core.isOpen ≠ false ∧ place < w.queue.length := by
      refine ⟨fun hc => by simp [(h.closed hc).1] at hq, ?_⟩
      rw [h.queue]
      exact (List.getElem?_eq_some_iff.mp hq).1
    have herased (place : Nat) : (w.queue.eraseIdx place).length = (w.core.queue.eraseIdx place).length := by
      rw [List.length_eraseIdx, List.length_eraseIdx, h.queue]
    cases Core.move_cases hmove with
    | aside outside silent aside =>
      refine goes hmove aside.goes ?_ (fun hactive => h.isSome_or hactive _) h.closed
      simpa [queueAfter_of_outside outside, silent] using h.queue
    | heard heard goes =>
      refine Paired.goes hmove goes ?_ (fun hactive => h.isSome_or hactive _) fun hc => ?_
      · rw [queueAfter_of_outside rfl, heard]
        simp [h.queue]
      · exact absurd (Core.isOpen_of_heard heard) (by simp [hc])
    | given outside silent active goes =>
      refine Paired.goes hmove goes ?_ (fun _ => h.isSome_or (by simp [active]) _)
        fun hc => absurd hc (hheld active)
      simpa [queueAfter_of_outside outside, silent] using h.queue
    | refused free queued goes =>
      exact Paired.goes hmove goes (herased _) (by simp) fun hc => absurd hc (hqueued queued).1
    | @entered place t s free queued session goes =>
      refine Paired.goes hmove goes (herased _) (fun _ => ?_) fun hc => absurd hc (hqueued queued).1
      simp [author, (hqueued queued).2]
    | searched active goes =>
      refine Paired.goes hmove goes ?_ (fun _ => h.isSome_or (by simp [active]) _)
        fun hc => absurd hc (hheld active)
      simpa [queueAfter, Core.heard] using h.queue
    | quit active goes =>
      refine Paired.goes hmove goes ?_ (by simp) fun hc => absurd hc (hheld active)
      simpa [queueAfter, Core.heard] using h.queue
    | spoke active same =>
      subst same
      refine Paired.goes hmove (Core.Goes.of_eq rfl rfl rfl) ?_ (fun _ => h.isSome_or (by simp [active]) _)
        fun hc => absurd hc (hheld active)
      simpa [queueAfter, Core.heard] using h.queue
    | answered active goes =>
      refine Paired.goes hmove goes ?_ (by simp) fun hc => absurd hc (hheld active)
      simpa [queueAfter, Core.heard] using h.queue
    | failed active goes =>
      refine Paired.goes hmove goes ?_ (by simp) fun hc => absurd hc (hheld active)
      simpa [queueAfter, Core.heard] using h.queue
    | shut isOpen shut closed =>
      rw [Watch.take, hmove, shut]
      exact ⟨rfl, rfl, fun _ => ⟨rfl, rfl⟩⟩
    | ended closed goes =>
      obtain ⟨hempty, hfree⟩ := h.closed closed
      refine Paired.goes hmove goes ?_ (fun hactive => ?_) fun _ => ⟨hempty, hfree⟩
      · simp [queueAfter, hempty]
      · simp [hfree] at hactive

/-- The turn that holds the history keeps its number. -/
theorem active_take (h : w.Paired) (hmove : w.core.move mv = some (d, out)) {x y : Turn × Stage}
    (hbefore : w.core.active = some x) (hafter : d.active = some y) : (w.take mv).active = w.active := by
  have hsome := h.active
  rw [hbefore] at hsome
  obtain ⟨n, hn⟩ := Option.isSome_iff_exists.mp hsome
  rw [Watch.take, hmove]
  simp [hafter, hn]

end Paired

theorem given_take (hmove : w.core.move mv = some (d, out)) :
    (w.take mv).given = w.given ++ w.givenAt d := by
  rw [take, hmove]

theorem core_take (hmove : w.core.move mv = some (d, out)) : (w.take mv).core = d := by
  rw [take, hmove]

end Watch

/-! ### What is noted -/

namespace Watch

variable {w : Watch}

theorem openedId?_overheard (w : Watch) (mv : Move) : (w.overheard mv).filterMap openedId? = [] := by
  unfold overheard
  split <;> rfl

theorem closings_of_eq (h : d.waiting = w.core.waiting) : w.closings d mv = [] := by
  simp [closings, h, List.filter_eq_nil_iff]

theorem closings_of_gone (hbefore : w.core.waiting = [call]) (hafter : call ∉ d.waiting) :
    w.closings d mv = [.closed (Core.callId call.number) (w.closing mv) w.core.clock] := by
  simp [closings, hbefore, hafter]

theorem openings_of_outside (h : mv.isOutside = true) :
    w.openings out mv = Note.openings none w.core.clock out := by
  cases mv <;> first | rfl | cases h

end Watch

/-! ### One call at a time -/

namespace Core

/-- The number of a call can be read off its id. -/
theorem callId_inj {m n : Nat} : callId m = callId n ↔ m = n := by
  refine ⟨fun h => ?_, congrArg _⟩
  have hrepr : m.repr = n.repr := by simpa [callId] using h
  have hdigits : Nat.toDigits 10 m = Nat.toDigits 10 n := by
    simpa [Nat.repr] using congrArg String.toList hrepr
  have hvalue := congrArg (Nat.ofDigitChars 10 · 0) hdigits
  simpa [Nat.ofDigitChars_toDigits] using hvalue

theorem input?_eq_some {input : TurnInput} (h : c.input? = some input) :
    ∃ t, c.active = some (t, .running input) := by
  unfold input? at h
  split at h
  · rename_i t i hactive
    cases h
    exact ⟨t, hactive⟩
  · cases h

/-- Unless a turn searches, the only call is that of the fetching. -/
theorem waiting_of_waits (hactive : d.active = c.active)
    (hwaits : ∀ t stage, c.active = some (t, stage) → ∃ s, stage = .entered s) :
    d.waiting = (d.prefetch.map Prefetch.call).toList := by
  unfold waiting
  rw [hactive]
  split
  · rename_i hsearching
    obtain ⟨s, hstage⟩ := hwaits _ _ hsearching
    cases hstage
  · exact List.append_nil _

/-- The next call for a skill has the next number. -/
theorem fetched_next (c : Core) (f : Prefetch) (package : Option Json) :
    (c.fetched f package).1.active = c.active ∧
      ∀ g ∈ (c.fetched f package).1.prefetch, g.call.number = c.calls + 1 := by
  unfold fetched
  split
  · exact ⟨rfl, nofun⟩
  · refine ⟨rfl, ?_⟩
    rintro g ⟨⟩
    rfl

/-- A response ends the call for a skill or the one to the memory whose id it bears, or changes nothing. -/
theorem resolve_spec (c : Core) (id : String) (outcome : Except Fault Json) :
    (∃ f, c.prefetch = some f ∧ callId f.call.number = id ∧
      c.resolve id outcome = c.fetched f outcome.toOption) ∨
    (∃ t s skills call, c.active = some (t, .searching s skills call) ∧ callId call.number = id ∧
      c.resolve id outcome = (c.run t s skills ((outcome.toOption.map memoryHits).getD []), [])) ∨
    (∀ x ∈ c.waiting, callId x.number ≠ id) ∧ c.resolve id outcome = (c, []) := by
  have helsewhere (hother : ∀ f, c.prefetch = some f → callId f.call.number ≠ id) :
      (∃ t s skills call, c.active = some (t, .searching s skills call) ∧ callId call.number = id ∧
        resolve.elsewhere c id outcome =
          (c.run t s skills ((outcome.toOption.map memoryHits).getD []), [])) ∨
      (∀ x ∈ c.waiting, callId x.number ≠ id) ∧ resolve.elsewhere c id outcome = (c, []) := by
    have hfirst : ∀ x ∈ (c.prefetch.map Prefetch.call).toList, callId x.number ≠ id := by
      intro x hx
      obtain ⟨f, hf, rfl⟩ := Option.map_eq_some_iff.mp (Option.mem_toList.mp hx)
      exact hother f hf
    unfold resolve.elsewhere waiting
    split
    · rename_i t s skills call hactive
      split
      · rename_i hid
        exact .inl ⟨t, s, skills, call, hactive, hid, rfl⟩
      · rename_i hid
        refine .inr ⟨fun x hx => ?_, rfl⟩
        rcases List.mem_append.mp hx with hx | hx
        · exact hfirst x hx
        · rw [List.mem_singleton.mp hx]
          exact hid
    · refine .inr ⟨fun x hx => hfirst x ?_, rfl⟩
      simpa using hx
  unfold resolve
  split
  · rename_i f hf
    split
    · rename_i hid
      exact .inl ⟨f, hf, hid, rfl⟩
    · rename_i hid
      refine .inr (helsewhere ?_)
      rintro f' hf'
      cases hf.symm.trans hf'
      exact hid
  · rename_i hnone
    refine .inr (helsewhere ?_)
    rintro f hf
    cases hnone.symm.trans hf

/-- The id of a call and the time that it has. -/
def entry (x : Waiting) : String × Nat := (callId x.number, x.deadline)

/-- The calls are left alone, and a turn that goes on was there before or has just come to the history. -/
structure Aloof (c d : Core) : Prop where
  session : d.session = c.session
  timeout : d.timeout = c.timeout
  prefetch : d.prefetch = c.prefetch
  skills : d.skills = c.skills
  calls : d.calls = c.calls
  active : ∀ t stage, d.active = some (t, stage) → (∃ s, stage = .entered s) ∨ c.active = some (t, stage)

end Core

/-- How far the fetching of the skills has come: it waits for a call and no turn goes on, or all calls are
over. -/
inductive Prefetched (c : Core) (notes : List Note) (p : StartPayload) (given : List (Nat × TurnInput)) : Prop
  | fetching {f : Prefetch} {name : String} {j : Nat} (prefetch : c.prefetch = some f)
    (left : p.skills.drop j = name :: f.left) (number : f.call.number = j + 1) (calls : c.calls = j + 1)
    (loaded : f.loaded = packages notes j) (asked : Asked notes p (j + 1)) (settled : Over notes j)
    (waits : ∀ t stage, c.active = some (t, stage) → ∃ s, stage = .entered s) (none : given = [])
  | fetched (idle : c.prefetch = none) (skills : c.skills = packages notes p.skills.length)
    (asked : Asked notes p p.skills.length) (settled : Over notes p.skills.length)

/-- What the notes say of a bridge's calls, of which at most the one that is given is open. -/
structure Wired (limit : Nat) (p : StartPayload) (b : Callbook) (w : Option Waiting) : Prop where
  session : b.watch.core.session = some p
  timeout : b.watch.core.timeout = limit
  paired : b.watch.Paired
  waiting : b.watch.core.waiting = w.toList
  books : Books limit b.notes (w.map Core.entry)
  clock : ∀ x ∈ w, b.watch.core.clock ≤ x.deadline
  ids : b.notes.filterMap openedId? = (List.range b.watch.core.calls).map fun i => Core.callId (i + 1)
  cancelled : 0 < b.watch.core.token ∨ b.watch.core.phase ≠ .reading → .cancelled ∈ b.notes
  prefetched : Prefetched b.watch.core b.notes p b.watch.given
  searching : ∀ t s skills call, b.watch.core.active = some (t, .searching s skills call) →
    b.watch.core.prefetch = none ∧ skills = b.watch.core.skills ∧ ∃ time,
      .opened b.watch.active (Core.callId call.number) Method.memorySearch
        (Graph.Node.query t.message 3) time ∈ b.notes
  given : ∀ x ∈ b.watch.given, Served b.notes p x
  input : ∀ input, b.watch.core.input? = some input → ∃ n ∈ b.watch.active, (n, input) ∈ b.watch.given

namespace Core.Aloof

theorem refl (c : Core) : c.Aloof c := ⟨rfl, rfl, rfl, rfl, rfl, fun _ _ h => .inr h⟩

theorem input? (h : c.Aloof d) : d.input? = none ∨ d.input? = c.input? := by
  cases hactive : d.active with
  | none => exact .inl (by rw [Core.input?, hactive])
  | some x =>
    obtain ⟨t, stage⟩ := x
    rcases h.active t stage hactive with ⟨s, rfl⟩ | hsame
    · exact .inl (by rw [Core.input?, hactive])
    · exact .inr (by rw [Core.input?, hactive, Core.input?, hsame])

end Core.Aloof

namespace Wired

variable {limit : Nat} {b : Callbook}

theorem open_of_append {x : Option (String × Nat)} (hbooks : Books limit (notes ++ more) x) :
    ∀ i ∈ more.filterMap closedId?, i ∉ notes.filterMap closedId? := by
  have hclosed := hbooks.closed
  rw [List.filterMap_append] at hclosed
  exact fun i hi hmem => (List.nodup_append.mp hclosed).2.2 i hmem i hi rfl

/-- What was noted may end the call that is open, but neither opens one nor is what a turn waits for. -/
theorem aloof (h : Wired limit p b w) (hmove : b.watch.core.move mv = some (d, out))
    (hd : b.watch.core.Aloof d) {v : Option Waiting} (hwaiting : d.waiting = v.toList)
    (hclock : ∀ x ∈ v, d.clock ≤ x.deadline) (hnoted : b.watch.noted d out mv = more)
    (hopened : more.filterMap openedId? = []) (hbooks : Books limit (b.notes ++ more) (v.map Core.entry))
    (hcancelled : 0 < d.token ∨ d.phase ≠ .reading → .cancelled ∈ b.notes ++ more) :
    Wired limit p (b.take mv) v := by
  have hcore := Watch.core_take hmove
  have hgiven : (b.watch.take mv).given = b.watch.given := by
    rw [Watch.given_take hmove, Watch.givenAt_eq_nil hd.input?, List.append_nil]
  have hmore := open_of_append hbooks
  rw [Callbook.take, hmove]
  dsimp only
  rw [hnoted]
  refine ⟨?_, ?_, h.paired.take mv, ?_, hbooks, ?_, ?_, ?_, ?_, ?_, ?_, ?_⟩
  · rw [hcore, hd.session]
    exact h.session
  · rw [hcore, hd.timeout]
    exact h.timeout
  · rw [hcore]
    exact hwaiting
  · rw [hcore]
    exact hclock
  · rw [hcore, hd.calls, List.filterMap_append, hopened, List.append_nil]
    exact h.ids
  · rw [hcore]
    exact hcancelled
  · rw [hcore, hgiven]
    cases h.prefetched with
    | fetching prefetch left number calls loaded asked settled waits none =>
      refine .fetching (hd.prefetch.trans prefetch) left number (hd.calls.trans calls)
        (loaded.trans (packages_append settled hmore).symm) (asked.append _) (settled.append _) ?_ none
      exact fun t stage hactive => (hd.active t stage hactive).elim id (waits t stage)
    | fetched idle skills asked settled =>
      have hskills := skills.trans (packages_append settled hmore).symm
      exact .fetched (hd.prefetch.trans idle) (hd.skills.trans hskills) (asked.append _) (settled.append _)
  · rw [hcore]
    intro t s skills call hactive
    rcases hd.active _ _ hactive with ⟨s', hstage⟩ | hbefore
    · cases hstage
    · obtain ⟨hidle, hskills, time, hmem⟩ := h.searching t s skills call hbefore
      refine ⟨hd.prefetch.trans hidle, hskills.trans hd.skills.symm, time, ?_⟩
      rw [h.paired.active_take hmove hbefore hactive]
      exact List.mem_append_left _ hmem
  · rw [hgiven]
    exact fun x hx => (h.given x hx).append hmore
  · rw [hcore, hgiven]
    intro input hinput
    rcases hd.input? with hnone | hsame
    · cases hnone.symm.trans hinput
    · obtain ⟨t, hafter⟩ := Core.input?_eq_some hinput
      obtain ⟨t', hbefore⟩ := Core.input?_eq_some (hsame.symm.trans hinput)
      rw [h.paired.active_take hmove hbefore hafter]
      exact h.input input (hsame.symm.trans hinput)

/-- A call that is opened has an id that was not there. -/
theorem fresh (h : Wired limit p b w) :
    Core.callId (b.watch.core.calls + 1) ∉ b.notes.filterMap openedId? := by
  rw [h.ids]
  intro hmem
  obtain ⟨i, hi, hid⟩ := List.mem_map.mp hmem
  have := Core.callId_inj.mp hid
  have := List.mem_range.mp hi
  omega

theorem ids_succ (h : Wired limit p b w) (hopened : more.filterMap openedId? = []) (turn : Option Nat)
    (method : String) (params : Json) (time : Nat) :
    (b.notes ++ more ++ [Note.opened turn (Core.callId (b.watch.core.calls + 1)) method params time]).filterMap
      openedId? = (List.range (b.watch.core.calls + 1)).map fun i => Core.callId (i + 1) := by
  rw [List.filterMap_append, List.filterMap_append, hopened, h.ids, List.range_succ, List.map_append,
    List.append_nil]
  rfl

/-- A turn that searched gets the runtime. -/
theorem runs (h : Wired limit p b w) {found : List String}
    (hactive : b.watch.core.active = some (t, .searching s skills call))
    (hmove : b.watch.core.move mv = some (b.watch.core.run t s skills found, []))
    (hnoted : b.watch.noted (b.watch.core.run t s skills found) [] mv = more)
    (hopened : more.filterMap openedId? = [])
    (hclosed : more.filterMap closedId? = [Core.callId call.number])
    (hbooks : Books limit (b.notes ++ more) none)
    (hfound : found = ((answerOf more (Core.callId call.number)).map memoryHits).getD []) :
    Wired limit p (b.take mv) none := by
  obtain ⟨hidle, hskills, time, hmem⟩ := h.searching t s skills call hactive
  have hcore := Watch.core_take hmove
  have hmore := open_of_append hbooks
  obtain ⟨n, hn⟩ : ∃ n, b.watch.active = some n := by
    have hsome := h.paired.active
    rw [hactive] at hsome
    exact Option.isSome_iff_exists.mp hsome
  have hkeeps : (b.watch.take mv).active = some n := by
    rw [h.paired.active_take hmove hactive rfl, hn]
  have hgiven : (b.watch.take mv).given = b.watch.given ++
      [(n, ⟨s.sessionId, t.message, b.watch.core.history, found, skills, s.agentConfig⟩)] := by
    rw [Watch.given_take hmove, Watch.givenAt, Core.input?, hactive, hn]
    rfl
  have hpackages : Asked b.notes p p.skills.length ∧ Over b.notes p.skills.length ∧
      b.watch.core.skills = packages b.notes p.skills.length := by
    cases h.prefetched with
    | fetching prefetch =>
      rw [hidle] at prefetch
      cases prefetch
    | fetched idle skills asked settled => exact ⟨asked, settled, skills⟩
  obtain ⟨hasked, hover, hloaded⟩ := hpackages
  rw [Callbook.take, hmove]
  dsimp only
  rw [hnoted]
  refine ⟨?_, ?_, h.paired.take mv, ?_, hbooks, (by simp), ?_, ?_, ?_, ?_, ?_, ?_⟩
  · rw [hcore]
    exact h.session
  · rw [hcore]
    exact h.timeout
  · rw [hcore]
    change (b.watch.core.prefetch.map Prefetch.call).toList ++ [] = []
    rw [hidle]
    rfl
  · rw [hcore, List.filterMap_append, hopened, List.append_nil]
    exact h.ids
  · rw [hcore]
    exact fun hc => List.mem_append_left _ (h.cancelled hc)
  · rw [hcore]
    exact .fetched hidle (hloaded.trans (packages_append hover hmore).symm) (hasked.append _) (hover.append _)
  · rw [hcore]
    intro t' s' skills' call' hsearching
    cases hsearching
  · rw [hgiven]
    intro x hx
    rcases List.mem_append.mp hx with hx | hx
    · exact (h.given x hx).append hmore
    · rw [List.mem_singleton.mp hx]
      rw [hn] at hmem
      refine ⟨hasked.append _, hover.append _, ?_, _, time, List.mem_append_left _ hmem, ?_, ?_⟩
      · rw [packages_append hover hmore, ← hloaded]
        exact hskills
      · rw [List.filterMap_append, hclosed]
        simp
      · rw [Note.answerOf_append_of_open (hmore _ (by rw [hclosed]; simp))]
        exact hfound
  · rw [hcore, hgiven, hkeeps]
    intro input hinput
    cases hinput
    exact ⟨n, rfl, by simp⟩

/-- While skills are fetched no turn does more than wait for them. -/
theorem waits (h : Wired limit p b w) {f : Prefetch} (hprefetch : b.watch.core.prefetch = some f) :
    b.watch.given = [] ∧
      ∀ t stage, b.watch.core.active = some (t, stage) → ∃ s, stage = .entered s := by
  cases h.prefetched with
  | fetching prefetch left number calls loaded asked settled waits none => exact ⟨none, waits⟩
  | fetched idle =>
    rw [idle] at hprefetch
    cases hprefetch

/-- The bridge moves on to the next call for a skill, or to the end of them. -/
theorem steps (h : Wired limit p b w) (hmove : b.watch.core.move mv = some (d, out)) {f : Prefetch}
    (hprefetch : b.watch.core.prefetch = some f) (hactive : d.active = b.watch.core.active)
    (hsession : d.session = b.watch.core.session) (htimeout : d.timeout = b.watch.core.timeout)
    (hrest : 0 < d.token ∨ d.phase ≠ .reading → 0 < b.watch.core.token ∨ b.watch.core.phase ≠ .reading)
    {v : Option Waiting} (hwaiting : d.waiting = v.toList) (hnoted : b.watch.noted d out mv = more)
    (hbooks : Books limit (b.notes ++ more) (v.map Core.entry)) (hclock : ∀ x ∈ v, d.clock ≤ x.deadline)
    (hids : (b.notes ++ more).filterMap openedId? = (List.range d.calls).map fun i => Core.callId (i + 1))
    (hprefetched : Prefetched d (b.notes ++ more) p []) : Wired limit p (b.take mv) v := by
  have hcore := Watch.core_take hmove
  obtain ⟨hnone, hwaits⟩ := h.waits hprefetch
  rw [← hactive] at hwaits
  have hinput : d.input? = none := by
    cases hsome : d.input? with
    | none => rfl
    | some input =>
      obtain ⟨t, hrunning⟩ := Core.input?_eq_some hsome
      obtain ⟨s, hstage⟩ := hwaits _ _ hrunning
      cases hstage
  have hgiven : (b.watch.take mv).given = [] := by
    rw [Watch.given_take hmove, Watch.givenAt_eq_nil (.inl hinput), hnone]
    rfl
  rw [Callbook.take, hmove]
  dsimp only
  rw [hnoted]
  refine ⟨?_, ?_, h.paired.take mv, ?_, hbooks, ?_, ?_, ?_, ?_, ?_, ?_, ?_⟩
  · rw [hcore, hsession]
    exact h.session
  · rw [hcore, htimeout]
    exact h.timeout
  · rw [hcore]
    exact hwaiting
  · rw [hcore]
    exact hclock
  · rw [hcore]
    exact hids
  · rw [hcore]
    exact fun hc => List.mem_append_left _ (h.cancelled (hrest hc))
  · rw [hcore, hgiven]
    exact hprefetched
  · rw [hcore]
    intro t s skills call hsearching
    obtain ⟨s', hstage⟩ := hwaits _ _ hsearching
    cases hstage
  · rw [hgiven]
    exact nofun
  · rw [hcore]
    intro input hsome
    cases hinput.symm.trans hsome

/-- The fetching goes on with the next skill, or is settled. -/
theorem fetches (h : Wired limit p b w) {f : Prefetch} {package : Option Json}
    (hprefetch : b.watch.core.prefetch = some f)
    (hcmd : b.watch.core.fetched f package = (d, out)) (hmove : b.watch.core.move mv = some (d, out))
    (hnoted : b.watch.noted d out mv = more ++ Note.openings none b.watch.core.clock out)
    (hopened : more.filterMap openedId? = [])
    (hclosed : more.filterMap closedId? = [Core.callId f.call.number])
    (hbooks : Books limit (b.notes ++ more) none)
    (hpackage : package = answerOf more (Core.callId f.call.number)) :
    ∃ v, Wired limit p (b.take mv) v := by
  have hmore := open_of_append hbooks
  obtain ⟨-, hwaits⟩ := h.waits hprefetch
  obtain rfl := h.timeout
  cases h.prefetched with
  | fetched idle =>
    rw [idle] at hprefetch
    cases hprefetch
  | @fetching f' name j prefetch left number calls loaded asked settled _ _ =>
    obtain rfl : f' = f := Option.some.inj (prefetch.symm.trans hprefetch)
    rw [number] at hclosed hpackage
    have hloaded : f'.loaded ++ package.toList = packages (b.notes ++ more) (j + 1) := by
      rw [packages_succ, packages_append settled hmore, loaded, hpackage,
        Note.answerOf_append_of_open (hmore _ (by rw [hclosed]; simp))]
    have hover : Over (b.notes ++ more) (j + 1) := by
      intro i hi
      rcases Nat.lt_succ_iff_lt_or_eq.mp hi with hi | rfl
      · exact mem_closedIds_append (settled i hi) more
      · rw [List.filterMap_append, hclosed]
        simp
    have hleft : p.skills.drop (j + 1) = f'.left := by
      rw [← List.tail_drop, left]
      rfl
    unfold Core.fetched at hcmd
    dsimp only at hcmd
    split at hcmd
    · -- it was the last one
      rename_i hlast
      obtain ⟨rfl, rfl⟩ := Prod.mk.inj hcmd
      have hlength : p.skills.length = j + 1 := by
        have := congrArg List.length left
        simp only [List.length_drop, hlast, List.length_singleton] at this
        omega
      rw [show Note.openings none b.watch.core.clock [] = [] from rfl, List.append_nil] at hnoted
      refine ⟨none, h.steps hmove hprefetch rfl rfl rfl id (Core.waiting_of_waits rfl hwaits) hnoted hbooks
        nofun ?_ (.fetched rfl ?_ ?_ ?_)⟩
      · rw [List.filterMap_append, hopened, List.append_nil]
        exact h.ids
      · rw [hlength]
        exact hloaded
      · rw [hlength]
        exact asked.append _
      · rw [hlength]
        exact hover
    · rename_i next rest hnext
      obtain ⟨rfl, rfl⟩ := Prod.mk.inj hcmd
      have hfresh : Core.callId (b.watch.core.calls + 1) ∉ (b.notes ++ more).filterMap openedId? := by
        rw [List.filterMap_append, hopened, List.append_nil]
        exact h.fresh
      have hbooks := hbooks.opens none _ Method.skillPackage (Json.object [("name", .str next)])
        b.watch.core.clock hfresh
      have hids := h.ids_succ hopened none Method.skillPackage (Json.object [("name", .str next)])
        b.watch.core.clock
      rw [List.append_assoc] at hbooks hids
      refine ⟨some ⟨b.watch.core.calls + 1, Method.skillPackage, b.watch.core.clock + b.watch.core.timeout⟩,
        h.steps hmove hprefetch rfl rfl rfl id (Core.waiting_of_waits rfl hwaits) hnoted hbooks ?_ hids ?_⟩
      · rintro x ⟨⟩
        exact Nat.le_add_right _ _
      · have hnone : ∀ i ∈ (Note.openings none b.watch.core.clock
            (b.watch.core.fetch next rest (f'.loaded ++ package.toList)).2).filterMap closedId?,
            i ∉ (b.notes ++ more).filterMap closedId? := nofun
        have hnext' : p.skills[j + 1]? = some next := by
          have := congrArg (·[0]?) (hleft.trans hnext)
          simpa using this
        rw [← List.append_assoc]
        refine .fetching rfl (hleft.trans hnext) (congrArg (· + 1) calls) (congrArg (· + 1) calls)
          (hloaded.trans (packages_append hover hnone).symm) ?_ (hover.append _) hwaits rfl
        intro i name hi hname
        rcases Nat.lt_succ_iff_lt_or_eq.mp hi with hi | rfl
        · exact (asked.append _).append _ i name hi hname
        · cases hname.symm.trans hnext'
          exact ⟨b.watch.core.clock, List.mem_append_right _ (by rw [← calls]; exact List.mem_singleton_self _)⟩

/-- A turn asks the memory. -/
theorem searches (h : Wired limit p b w) (hactive : b.watch.core.active = some (t, .entered s))
    (hidle : b.watch.core.prefetch = none)
    (hmove : b.watch.core.move .search = some ({ b.watch.core with
      calls := b.watch.core.calls + 1
      active := some (t, .searching s b.watch.core.skills
        ⟨b.watch.core.calls + 1, Method.memorySearch, b.watch.core.clock + b.watch.core.timeout⟩) },
      [.cpRequest (Core.callId (b.watch.core.calls + 1)) Method.memorySearch
        (Graph.Node.query t.message 3)])) : ∃ v, Wired limit p (b.take .search) v := by
  have hcore := Watch.core_take hmove
  have hopen : b.watch.core.waiting = [] := by simp [Core.waiting, hidle, hactive]
  obtain rfl : w = none := by
    have hwaiting := h.waiting
    rw [hopen] at hwaiting
    cases w with
    | none => rfl
    | some x => cases hwaiting
  have hgiven : (b.watch.take .search).given = b.watch.given := by
    rw [Watch.given_take hmove, Watch.givenAt_eq_nil (.inl rfl), List.append_nil]
  have hkeeps : (b.watch.take .search).active = b.watch.active := h.paired.active_take hmove hactive rfl
  have hbooks := h.books.opens b.watch.active _ Method.memorySearch (Graph.Node.query t.message 3)
    b.watch.core.clock h.fresh
  have hmore := open_of_append hbooks
  rw [Callbook.take, hmove]
  dsimp only
  obtain rfl := h.timeout
  have hnoted : ∀ d, b.watch.noted d [.cpRequest (Core.callId (b.watch.core.calls + 1)) Method.memorySearch
      (Graph.Node.query t.message 3)] .search = [.opened b.watch.active (Core.callId (b.watch.core.calls + 1))
        Method.memorySearch (Graph.Node.query t.message 3) b.watch.core.clock] := by
    intro d
    simp [Watch.noted, Watch.overheard, Core.order, Watch.closings, hopen, Watch.openings, Note.openings,
      Watch.author]
  rw [hnoted]
  refine ⟨some ⟨b.watch.core.calls + 1, Method.memorySearch, b.watch.core.clock + b.watch.core.timeout⟩,
    ?_, ?_, h.paired.take _, ?_, hbooks, ?_, ?_, ?_, ?_, ?_, ?_, ?_⟩
  · rw [hcore]
    exact h.session
  · rw [hcore]
  · rw [hcore]
    simp [Core.waiting, hidle]
  · rw [hcore]
    rintro x ⟨⟩
    exact Nat.le_add_right _ _
  · rw [hcore]
    have hids := h.ids_succ (List.filterMap_nil (f := openedId?)) b.watch.active Method.memorySearch
      (Graph.Node.query t.message 3) b.watch.core.clock
    rwa [List.append_nil] at hids
  · rw [hcore]
    exact fun hc => List.mem_append_left _ (h.cancelled hc)
  · rw [hcore, hgiven]
    cases h.prefetched with
    | fetching prefetch =>
      rw [hidle] at prefetch
      cases prefetch
    | fetched idle skills asked settled =>
      have hskills := skills.trans (packages_append settled hmore).symm
      exact .fetched idle hskills (asked.append _) (settled.append _)
  · rw [hcore, hkeeps]
    intro t' s' skills' call' hsearching
    cases hsearching
    exact ⟨hidle, rfl, b.watch.core.clock, by simp⟩
  · rw [hgiven]
    exact fun x hx => (h.given x hx).append hmore
  · rw [hcore]
    intro input hinput
    cases hinput

theorem stays (h : Wired limit p b w) (hmove : b.watch.core.move mv = some (d, out))
    (hd : b.watch.core.Aloof d) (hwaiting : d.waiting = b.watch.core.waiting)
    (hclock : ∀ x ∈ w, d.clock ≤ x.deadline) (hsilent : b.watch.openings out mv = [])
    (hbooks : Books limit (b.notes ++ b.watch.overheard mv) (w.map Core.entry))
    (hcancelled : 0 < d.token ∨ d.phase ≠ .reading → .cancelled ∈ b.notes ++ b.watch.overheard mv) :
    ∃ v, Wired limit p (b.take mv) v := by
  refine ⟨w, h.aloof hmove hd (hwaiting.trans h.waiting) hclock ?_ (b.watch.openedId?_overheard mv) hbooks
    hcancelled⟩
  rw [Watch.noted, Watch.closings_of_eq hwaiting, hsilent, List.append_nil, List.append_nil]

/-- The turn that holds the history goes; if it was waiting for the memory, nobody is any more. -/
theorem leaves (h : Wired limit p b w) (hmove : b.watch.core.move mv = some (d, out))
    (hd : b.watch.core.Aloof d) (hfree : d.active = none) (hclock : d.clock = b.watch.core.clock)
    (hover : b.watch.overheard mv = []) (hclosing : b.watch.closing mv = .givenUp)
    (hsilent : b.watch.openings out mv = [])
    (hcause : ∀ t s skills call, b.watch.core.active = some (t, .searching s skills call) →
      .cancelled ∈ b.notes)
    (hcancelled : 0 < d.token ∨ d.phase ≠ .reading → .cancelled ∈ b.notes) :
    ∃ v, Wired limit p (b.take mv) v := by
  have hleft : d.waiting = (b.watch.core.prefetch.map Prefetch.call).toList := by
    simp [Core.waiting, hfree, hd.prefetch]
  by_cases hsearching : ∃ t s skills call, b.watch.core.active = some (t, .searching s skills call)
  · obtain ⟨t, s, skills, call, hactive⟩ := hsearching
    obtain ⟨hidle, -⟩ := h.searching t s skills call hactive
    have hbefore : b.watch.core.waiting = [call] := by simp [Core.waiting, hidle, hactive]
    obtain rfl : w = some call := Option.toList_eq_singleton_iff.mp (h.waiting.symm.trans hbefore)
    rw [hidle] at hleft
    have hnoted : b.watch.noted d out mv =
        [.closed (Core.callId call.number) .givenUp b.watch.core.clock] := by
      rw [Watch.noted, hover, hsilent, Watch.closings_of_gone hbefore (by simp [hleft]), hclosing]
      rfl
    exact ⟨none, h.aloof hmove hd hleft (by simp) hnoted rfl
      (h.books.givesUp (h.clock call rfl) (hcause t s skills call hactive))
      fun hc => List.mem_append_left _ (hcancelled hc)⟩
  · have hsame : d.waiting = b.watch.core.waiting := by
      rw [hleft, Core.waiting]
      split
      · rename_i hactive
        exact absurd ⟨_, _, _, _, hactive⟩ hsearching
      · rw [List.append_nil]
    refine h.stays hmove hd hsame (fun x hx => hclock ▸ h.clock x hx) hsilent ?_ ?_
    · rw [hover, List.append_nil]
      exact h.books
    · rw [hover, List.append_nil]
      exact hcancelled

/-- A call for a skill ends, with the notes of that. -/
theorem fetch_ends (h : Wired limit p b w) {f : Prefetch} {package : Option Json}
    (hprefetch : b.watch.core.prefetch = some f) (hcmd : b.watch.core.fetched f package = (d, out))
    (houtside : mv.isOutside = true) :
    w = some f.call ∧ b.watch.noted d out mv =
      b.watch.overheard mv ++ [.closed (Core.callId f.call.number) (b.watch.closing mv) b.watch.core.clock] ++
        Note.openings none b.watch.core.clock out := by
  obtain ⟨-, hwaits⟩ := h.waits hprefetch
  have hbefore : b.watch.core.waiting = [f.call] := by
    rw [Core.waiting_of_waits rfl hwaits, hprefetch]
    rfl
  have hnumber : f.call.number = b.watch.core.calls := by
    cases h.prefetched with
    | fetching prefetch left number calls =>
      cases prefetch.symm.trans hprefetch
      exact number.trans calls.symm
    | fetched idle => cases idle.symm.trans hprefetch
  refine ⟨Option.toList_eq_singleton_iff.mp (h.waiting.symm.trans hbefore), ?_⟩
  have hgone : f.call ∉ d.waiting := by
    obtain ⟨hactive, hnew⟩ := b.watch.core.fetched_next f package
    rw [hcmd] at hactive hnew
    rw [Core.waiting_of_waits hactive hwaits, Option.mem_toList]
    intro hmem
    obtain ⟨f', hf', hsame⟩ := Option.map_eq_some_iff.mp hmem
    have hnext := hnew f' hf'
    rw [hsame, hnumber] at hnext
    omega
  rw [Watch.noted, Watch.closings_of_gone hbefore hgone, Watch.openings_of_outside houtside]

/-- A call to the memory ends, with the notes of that. -/
theorem search_ends (h : Wired limit p b w)
    (hactive : b.watch.core.active = some (t, .searching s skills call)) (found : List String)
    (houtside : mv.isOutside = true) :
    w = some call ∧ b.watch.noted (b.watch.core.run t s skills found) [] mv =
      b.watch.overheard mv ++ [.closed (Core.callId call.number) (b.watch.closing mv) b.watch.core.clock] := by
  obtain ⟨hidle, -⟩ := h.searching t s skills call hactive
  have hbefore : b.watch.core.waiting = [call] := by simp [Core.waiting, hidle, hactive]
  have hafter : (b.watch.core.run t s skills found).waiting = [] := by simp [Core.waiting, Core.run, hidle]
  refine ⟨Option.toList_eq_singleton_iff.mp (h.waiting.symm.trans hbefore), ?_⟩
  rw [Watch.noted, Watch.closings_of_gone hbefore (by simp [hafter]), Watch.openings_of_outside houtside]
  exact List.append_nil _

/-- A response that is read ends the call whose id it bears, if that is open. -/
theorem hears (h : Wired limit p b w) {id : String} {outcome : Except Fault Json}
    (houtside : mv.isOutside = true)
    (hover : b.watch.overheard mv = [.heard id outcome b.watch.core.clock])
    (hclosing : b.watch.closing mv = .answered outcome)
    (hcmd : b.watch.core.resolve id outcome = (d, out)) (hmove : b.watch.core.move mv = some (d, out)) :
    ∃ v, Wired limit p (b.take mv) v := by
  obtain ⟨f, hprefetch, rfl, hresolve⟩ | ⟨t, s, skills, call, hactive, rfl, hresolve⟩ | ⟨hunknown, hresolve⟩ :=
    b.watch.core.resolve_spec id outcome
  · rw [hcmd] at hresolve
    obtain ⟨rfl, hnoted⟩ := h.fetch_ends hprefetch hresolve.symm houtside
    rw [hover, hclosing] at hnoted
    exact h.fetches hprefetch hresolve.symm hmove hnoted rfl rfl (h.books.answers (h.clock f.call rfl))
      Note.answerOf_answered.symm
  · rw [hcmd] at hresolve
    obtain ⟨rfl, rfl⟩ := Prod.mk.inj hresolve
    obtain ⟨rfl, hnoted⟩ := h.search_ends hactive ((outcome.toOption.map memoryHits).getD []) houtside
    rw [hover, hclosing] at hnoted
    refine ⟨none, h.runs hactive hmove hnoted rfl rfl (h.books.answers (h.clock call rfl)) ?_⟩
    rw [List.singleton_append, Note.answerOf_answered]
  · rw [hcmd] at hresolve
    obtain ⟨rfl, rfl⟩ := Prod.mk.inj hresolve
    refine h.stays hmove (.refl _) rfl h.clock (Watch.openings_of_outside houtside) ?_
      fun hc => List.mem_append_left _ (h.cancelled hc)
    rw [hover]
    refine h.books.passes rfl rfl fun x hx o u hheard => ?_
    obtain ⟨y, hy, rfl⟩ := Option.map_eq_some_iff.mp hx
    cases hheard
    refine hunknown y ?_ rfl
    rw [h.waiting]
    exact Option.mem_toList.mpr hy

/-- An order is followed. -/
theorem ordered (h : Wired limit p b w) {cmd : Command} (horder : b.watch.core.order mv = some cmd)
    (hcmd : b.watch.core.command cmd = (d, out)) (hmove : b.watch.core.move mv = some (d, out)) :
    ∃ v, Wired limit p (b.take mv) v := by
  have houtside := Core.isOutside_of_order horder
  have hopenings : b.watch.openings [] mv = [] := Watch.openings_of_outside houtside
  cases cmd with
  | start q =>
    simp only [Core.command, Core.start, h.session] at hcmd
    obtain ⟨rfl, rfl⟩ := Prod.mk.inj hcmd
    refine h.stays hmove (.refl _) rfl h.clock hopenings ?_ fun hc => List.mem_append_left _ (h.cancelled hc)
    rw [Watch.overheard, horder, List.append_nil]
    exact h.books
  | userMessage message =>
    cases hcmd
    refine h.stays hmove ⟨rfl, rfl, rfl, rfl, rfl, fun _ _ ha => .inr ha⟩ rfl h.clock hopenings ?_
      fun hc => List.mem_append_left _ (h.cancelled hc)
    rw [Watch.overheard, horder, List.append_nil]
    exact h.books
  | cancel =>
    cases hcmd
    refine h.stays hmove ⟨rfl, rfl, rfl, rfl, rfl, fun _ _ ha => .inr ha⟩ rfl h.clock hopenings ?_ fun _ => ?_
    · rw [Watch.overheard, horder]
      exact h.books.passes rfl rfl (by simp)
    · simp [Watch.overheard, horder]
  | stop =>
    cases hcmd
    refine h.stays hmove ⟨rfl, rfl, rfl, rfl, rfl, fun _ _ ha => .inr ha⟩ rfl h.clock hopenings ?_ fun _ => ?_
    · rw [Watch.overheard, horder]
      exact h.books.passes rfl rfl (by simp)
    · simp [Watch.overheard, horder]
  | cpResponse id result fault =>
    rw [Core.command_cpResponse] at hcmd
    have hover : b.watch.overheard mv = [.heard id (Core.outcome result fault) b.watch.core.clock] := by
      rw [Watch.overheard, horder]
    have hclosing : b.watch.closing mv = .answered (Core.outcome result fault) := by
      unfold Watch.closing
      rw [horder]
    exact h.hears houtside hover hclosing hcmd hmove

/-- Whatever move is made, the notes say what becomes of the calls. -/
theorem take (h : Wired limit p b w) (mv : Move) : ∃ v, Wired limit p (b.take mv) v := by
  cases hmove : b.watch.core.move mv with
  | none =>
    rw [Callbook.take, hmove]
    exact ⟨w, h⟩
  | some x =>
    obtain ⟨d, out⟩ := x
    -- most moves are not ordered
    have hquiet (horder : b.watch.core.order mv = none) {x : Option (String × Nat)}
        (hbooks : Books limit b.notes x) : Books limit (b.notes ++ b.watch.overheard mv) x := by
      rw [Watch.overheard, horder, List.append_nil]
      exact hbooks
    have hkept {q : Prop} (hc : q → .cancelled ∈ b.notes) : q → .cancelled ∈ b.notes ++ b.watch.overheard mv :=
      fun hq => List.mem_append_left _ (hc hq)
    cases Core.made hmove with
    | ordered order => exact h.ordered order rfl hmove
    | passed outside order =>
      exact h.stays hmove (.refl _) rfl h.clock (Watch.openings_of_outside outside) (hquiet order h.books)
        (hkept h.cancelled)
    | refused free queued session => cases session.symm.trans h.session
    | entered free queued session =>
      refine h.stays hmove ⟨rfl, rfl, rfl, rfl, rfl, ?_⟩ ?_ h.clock rfl (hquiet rfl h.books) (hkept h.cancelled)
      · rintro t stage ⟨⟩
        exact .inl ⟨_, rfl⟩
      · simp [Core.waiting, free]
    | searched active idle => exact h.searches active idle hmove
    | @quit t stage active cancelled =>
      have htoken : 0 < b.watch.core.token := Nat.lt_of_le_of_lt (Nat.zero_le _) (of_decide_eq_true cancelled)
      exact h.leaves hmove ⟨rfl, rfl, rfl, rfl, rfl, nofun⟩ rfl rfl rfl rfl rfl
        (fun _ _ _ _ _ => h.cancelled (.inl htoken)) h.cancelled
    | spoke active =>
      exact h.stays hmove (.refl _) rfl h.clock rfl (hquiet rfl h.books) (hkept h.cancelled)
    | answered active =>
      refine h.leaves hmove ⟨rfl, rfl, rfl, rfl, rfl, nofun⟩ rfl rfl rfl rfl rfl ?_ h.cancelled
      intro _ _ _ _ hsearching
      cases active.symm.trans hsearching
    | failed active =>
      refine h.leaves hmove ⟨rfl, rfl, rfl, rfl, rfl, nofun⟩ rfl rfl rfl rfl rfl ?_ h.cancelled
      intro _ _ _ _ hsearching
      cases active.symm.trans hsearching
    | @missed f prefetch due =>
      have hfetched : b.watch.core.fetched f none =
        ((b.watch.core.fetched f none).1, (b.watch.core.fetched f none).2) := rfl
      have houtside : Move.expire.isOutside = true := rfl
      obtain ⟨rfl, hnoted⟩ := h.fetch_ends prefetch hfetched houtside
      have hexpired : Books limit (b.notes ++ [.closed _ .timedOut b.watch.core.clock]) none :=
        Nat.le_antisymm due (h.clock f.call rfl) ▸ h.books.expires
      exact h.fetches prefetch hfetched hmove hnoted rfl rfl hexpired Note.answerOf_timedOut.symm
    | @forgot t s skills call active due =>
      have houtside : Move.expire.isOutside = true := rfl
      obtain ⟨rfl, hnoted⟩ := h.search_ends active [] houtside
      have hexpired : Books limit (b.notes ++ [.closed _ .timedOut b.watch.core.clock]) none :=
        Nat.le_antisymm due (h.clock call rfl) ▸ h.books.expires
      exact ⟨none, h.runs active hmove hnoted rfl rfl hexpired rfl⟩
    | ticked early =>
      refine h.stays hmove ⟨rfl, rfl, rfl, rfl, rfl, fun _ _ ha => .inr ha⟩ rfl (fun x hx => ?_) rfl
        (hquiet rfl h.books) (hkept h.cancelled)
      refine early x.deadline (List.mem_append_left _ (List.mem_map_of_mem ?_))
      rw [h.waiting]
      exact Option.mem_toList.mpr hx
    | shut draining =>
      have hcancelled : .cancelled ∈ b.notes := h.cancelled (.inr (by rw [draining]; nofun))
      exact h.leaves hmove ⟨rfl, rfl, rfl, rfl, rfl, nofun⟩ rfl rfl rfl rfl rfl (fun _ _ _ _ _ => hcancelled)
        fun _ => hcancelled
    | ended flushing =>
      have hcancelled : .cancelled ∈ b.notes := h.cancelled (.inr (by rw [flushing]; nofun))
      exact h.stays hmove ⟨rfl, rfl, rfl, rfl, rfl, fun _ _ ha => .inr ha⟩ rfl h.clock rfl
        (hquiet rfl h.books) (hkept fun _ => hcancelled)

theorem start (runner : String) (timeout : Nat) (p : StartPayload) :
    ∃ w, Wired timeout p (Callbook.start runner timeout p) w := by
  obtain ⟨hsession, -, hactive⟩ := Core.started runner timeout p
  have hpaired := Watch.Paired.started runner timeout p
  have hfree : ∀ t stage, (Core.start { runner, timeout } p).1.active = some (t, stage) →
      ∃ s, stage = .entered s := by simp [hactive]
  have hinput : (Core.start { runner, timeout } p).1.input? = none := by rw [Core.input?, hactive]
  -- what a start leaves open: nothing, or the call for the first skill
  have hbegun : ∃ w : Option Waiting, let c := (Core.start { runner, timeout } p).1
      let notes := (Callbook.start runner timeout p).notes
      c.timeout = timeout ∧ c.token = 0 ∧ c.phase = .reading ∧ c.clock = 0 ∧ c.waiting = w.toList ∧
      Books timeout notes (w.map Core.entry) ∧
      notes.filterMap openedId? = ((List.range c.calls).map fun i => Core.callId (i + 1)) ∧
      Prefetched c notes p [] := by
    rcases hskills : p.skills with _ | ⟨name, left⟩
    · have hstart : Core.start { runner, timeout } p = ({ runner, timeout, session := some p }, []) := by
        simp [Core.start, hskills]
      refine ⟨none, ?_⟩
      rw [Callbook.start, hstart]
      refine ⟨rfl, rfl, rfl, rfl, rfl, .start _, rfl, .fetched rfl ?_ ?_ ?_⟩ <;> rw [hskills]
      · rfl
      · exact fun i name hi => absurd hi (Nat.not_lt_zero i)
      · exact fun i hi => absurd hi (Nat.not_lt_zero i)
    · have hstart : Core.start { runner, timeout } p =
          Core.fetch { runner, timeout, session := some p } name left [] := by
        simp [Core.start, hskills]
      rw [hstart] at hfree
      refine ⟨some ⟨1, Method.skillPackage, 0 + timeout⟩, ?_⟩
      rw [Callbook.start, hstart]
      refine ⟨rfl, rfl, rfl, rfl, rfl, (Books.start timeout).opens _ _ _ _ _ List.not_mem_nil, rfl, ?_⟩
      refine .fetching (j := 0) rfl hskills rfl rfl rfl ?_ (fun i hi => absurd hi (Nat.not_lt_zero i)) hfree rfl
      intro i name' hi hname
      obtain rfl : i = 0 := by omega
      rw [hskills] at hname
      cases hname
      exact ⟨0, List.mem_singleton_self _⟩
  obtain ⟨w, htimeout, htoken, hphase, hclock, hwaiting, hbooks, hids, hprefetched⟩ := hbegun
  refine ⟨w, hsession, htimeout, hpaired, hwaiting, hbooks, fun x hx => ?_, hids, fun hc => ?_, hprefetched,
    ?_, fun _ hx => absurd hx List.not_mem_nil, ?_⟩
  · exact hclock.le.trans (Nat.zero_le _)
  · rcases hc with hc | hc
    · exact absurd (htoken ▸ hc) (Nat.lt_irrefl 0)
    · exact absurd hphase hc
  · intro t s skills call hsearching
    obtain ⟨s', hstage⟩ := hfree _ _ hsearching
    cases hstage
  · intro input hsome
    cases hinput.symm.trans hsome

theorem run (runner : String) (timeout : Nat) (p : StartPayload) (moves : List Move) :
    ∃ w, Wired timeout p (Callbook.run runner timeout p moves) w := by
  induction moves using List.reverseRecOn with
  | nil => exact start runner timeout p
  | append_singleton moves mv ih =>
    obtain ⟨w, h⟩ := ih
    rw [Callbook.run, List.foldl_append]
    exact h.take mv

end Wired

/-- Once a bridge was given its session, whatever lines arrive, however time passes and whatever its turns do:
no two calls share an id, and each ends once, with the first response that bears its id while it has time, or
else with its time, unless its turn is cancelled. What the runtime is given for a turn are the skills that could
be fetched, in the order of the session's, after all of them were tried, and what the turn's own call to the
memory got. Another start changes nothing. -/
theorem calls_get_their_own_answers (runner : String) (timeout : Nat) (p : StartPayload) (moves : List Move) :
    let b := Callbook.run runner timeout p moves
    Settled timeout b.watch.core.clock b.notes ∧
    (∀ x ∈ b.watch.given, Served b.notes p x) ∧
    (∀ input, b.watch.core.input? = some input → ∃ n ∈ b.watch.active, (n, input) ∈ b.watch.given) ∧
    b.watch.core.session = some p ∧ ∀ q, b.watch.core.start q = (b.watch.core, []) := by
  intro b
  obtain ⟨w, h⟩ := Wired.run runner timeout p moves
  refine ⟨h.books.settled fun x hx => ?_, h.given, h.input, h.session, fun q => ?_⟩
  · obtain ⟨y, hy, rfl⟩ := Option.map_eq_some_iff.mp hx
    exact h.clock y hy
  · rw [Core.start, h.session]

/-- The call for the second skill is answered too early and too late. -/
example :
    let response (id v : String) : Move := .line (Text.encode
      ("\x7b\"type\":\"cp_response\",\"id\":\"" ++ id ++ "\",\"result\":" ++ v ++ "\x7d"))
    let moves := [response "cp-2" "2", response "cp-1" "\"A\"", response "cp-1" "\"B\"",
      .line (Text.encode "\x7b\"type\":\"user_message\",\"message\":\"hi\"\x7d"), .enter 0, .tick 10, .expire,
      response "cp-2" "\"C\"", .search, response "cp-3" "\x7b\"hits\":[\x7b\"content\":\"D\"\x7d]\x7d"]
    (Callbook.run "mock" 10 { sessionId := "s", skills := ["a", "b"] } moves).watch.given.map
      (fun x => (x.1, x.2.skills, x.2.memory)) = [(0, [.str "A"], ["D"])] := by
  decide +kernel

end Fleet.Bridge
