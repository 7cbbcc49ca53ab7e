import Fleet.Proofs.Bridge.Blocks
import Mathlib.Data.List.Induction
import Mathlib.Data.List.InsertIdx
import Mathlib.Data.List.Perm.Basic
import Mathlib.Data.List.Range

/-!
What a bridge writes, turn by turn. Whoever watches it knows the users' messages by number, which turn wrote
which message, what the runtime was given for a turn and what it replied. A turn writes its block in one go
and closes it with a single terminal message; the replies so far are the history of the next turn.
-/

namespace Fleet.Bridge

def Stage.sessionId : Stage → String
  | .entered s | .searching s _ _ => s.sessionId
  | .running input => input.sessionId

/-- What the runtime has been given. -/
def Core.input? (c : Core) : Option TurnInput :=
  match c.active with
  | some (_, .running input) => some input
  | _ => none

structure Watch where
  core : Core
  /-- The users' messages that were read. A turn goes by the place of its message. -/
  asked : List String := []
  /-- The turns in the queue, in its order. -/
  queue : List Nat := []
  active : Option Nat := none
  /-- The turns that were given up at the end. -/
  dropped : List Nat := []
  /-- All that was written, and the turn that wrote it. -/
  written : List (Option Nat × Message) := []
  /-- What the runtime was given, and for which turn. -/
  given : List (Nat × TurnInput) := []
  /-- What the runtime replied. -/
  replies : List (Nat × String) := []

namespace Watch

/-- The turn that makes a move. -/
def author (w : Watch) : Move → Option Nat
  | .enter place => w.queue[place]?
  | .search | .quit | .say _ | .finish _ => w.active
  | .line _ | .endInput | .expire | .tick _ | .wind => none

/-- The queue of turns after a move. -/
def queueAfter (w : Watch) (mv : Move) : List Nat :=
  match mv with
  | .enter place => w.queue.eraseIdx place
  | .wind => []
  | mv => w.queue ++ ((w.core.heard mv).map fun _ => w.asked.length).toList

/-- Turns that have not ended when the bridge stops waiting for them are given up. -/
def droppedAt (w : Watch) : Move → List Nat
  | .wind => w.active.toList ++ w.queue
  | _ => []

/-- What the runtime is given when the bridge goes on to `d`. -/
def givenAt (w : Watch) (d : Core) : List (Nat × TurnInput) :=
  match w.core.input?, w.active, d.input? with
  | none, some n, some input => [(n, input)]
  | _, _, _ => []

def repliedAt (w : Watch) : Move → List (Nat × String)
  | .finish (.ok reply) => (w.active.map fun n => (n, reply)).toList
  | _ => []

/-- Sees a move. -/
def take (w : Watch) (mv : Move) : Watch :=
  match w.core.move mv with
  | none => w
  | some (d, out) =>
    { core := d
      asked := w.asked ++ (w.core.heard mv).toList
      queue := w.queueAfter mv
      active := if d.active.isSome then w.active.or (w.author mv) else none
      dropped := w.dropped ++ w.droppedAt mv
      written := w.written ++ out.map fun m => (w.author mv, m)
      given := w.given ++ w.givenAt d
      replies := w.replies ++ w.repliedAt mv }

def run (runner : String) (timeout : Nat) (moves : List Move) : Watch :=
  moves.foldl take { core := { runner, timeout } }

variable {w : Watch} {d : Core} {mv : Move} {out : List Message} {n : Nat}

/-- What is watched is the bridge itself. -/
theorem play_eq (w : Watch) (moves : List Move) :
    (moves.foldl take w).core = (w.core.play moves).1 ∧
    (moves.foldl take w).written.map Prod.snd = w.written.map Prod.snd ++ (w.core.play moves).2 := by
  induction moves generalizing w with
  | nil => simp [Core.play]
  | cons mv rest ih =>
    rw [List.foldl_cons, (ih _).1, (ih _).2, Core.play, take]
    cases w.core.move mv with
    | none => exact ⟨rfl, rfl⟩
    | some x => simp [Function.comp_def]

/-- All is as the blocks tell, and what is left of the turn that writes. -/
structure Told (w : Watch) (blocks : List Block) (left : List (Nat × Message)) : Prop where
  lines : (w.written.filter fun x => !x.2.isSkillRequest) =
    (blocks.flatMap Block.lines ++ left).map fun x => (some x.1, x.2)
  proper : ∀ b ∈ blocks, b.Proper w.core w.asked
  left : ∀ x ∈ left, x.2.isInner = true ∧ x.1 ∈ w.active.toList ++ w.dropped
  numbers : (blocks.map Block.turn ++ w.active.toList ++ w.queue ++ w.dropped).Perm
    (List.range w.asked.length)
  waiting : w.core.queue.map (fun t => some t.message) = w.queue.map (w.asked[·]?)
  running : w.core.active.map (fun x => some x.1.message) = w.active.map (w.asked[·]?)
  stage : ∀ t stage, w.core.active = some (t, stage) →
    ∃ s, w.core.session = some s ∧ stage.sessionId = s.sessionId
  history : w.core.history = blocks.flatMap (Block.exchange w.asked)
  given : ∀ x ∈ w.given, x.1 ∈ blocks.map Block.turn ++ w.active.toList ++ w.dropped ∧
    w.asked[x.1]? = some x.2.message ∧
    x.2.history = (blocks.takeWhile fun b => b.turn != x.1).flatMap (Block.exchange w.asked)
  replies : w.replies = blocks.filterMap Block.replied
  opened : w.core.isOpen = true → w.dropped = []
  closed : w.core.isOpen = false → w.core.active = none ∧ w.core.queue = []

variable {blocks : List Block} {left : List (Nat × Message)} {t : Turn} {stage : Stage}

theorem told_start (runner : String) (timeout : Nat) :
    Told { core := { runner, timeout } } [] [] := by
  refine ⟨rfl, ?_, ?_, .refl _, rfl, rfl, nofun, rfl, ?_, rfl, fun _ => rfl, nofun⟩ <;>
    exact fun _ h => absurd h List.not_mem_nil

namespace Told

theorem lt (ht : w.Told blocks left)
    (h : n ∈ blocks.map Block.turn ++ w.active.toList ++ w.queue ++ w.dropped) : n < w.asked.length :=
  List.mem_range.mp (ht.numbers.mem_iff.mp h)

theorem nodup (ht : w.Told blocks left) :
    (blocks.map Block.turn ++ w.active.toList ++ w.queue ++ w.dropped).Nodup :=
  ht.numbers.nodup_iff.mpr List.nodup_range

/-- The turn that holds the history has a number. -/
theorem active_eq (ht : w.Told blocks left) (h : w.core.active = some (t, stage)) :
    ∃ n, w.active = some n ∧ w.asked[n]? = some t.message := by
  have hr := ht.running
  rw [h] at hr
  obtain ⟨n, hn, hasked⟩ := Option.map_eq_some_iff.mp hr.symm
  exact ⟨n, hn, hasked⟩

theorem active_eq_none (ht : w.Told blocks left) (h : w.core.active = none) : w.active = none := by
  have hr := ht.running
  rw [h] at hr
  exact Option.map_eq_none_iff.mp hr.symm

theorem isOpen_of_active (ht : w.Told blocks left) (h : w.core.active = some (t, stage)) :
    w.core.isOpen = true := by
  by_contra hc
  rw [(ht.closed (Bool.eq_false_iff.mpr hc)).1] at h
  cases h

theorem isOpen_of_queued {place : Nat} (ht : w.Told blocks left) (h : w.core.queue[place]? = some t) :
    w.core.isOpen = true := by
  by_contra hc
  rw [(ht.closed (Bool.eq_false_iff.mpr hc)).2] at h
  cases h

/-- So has a turn in the queue. -/
theorem queued_eq {place : Nat} (ht : w.Told blocks left) (h : w.core.queue[place]? = some t) :
    ∃ n, w.queue[place]? = some n ∧ w.asked[n]? = some t.message := by
  have hw := congrArg (·[place]?) ht.waiting
  simp only [List.getElem?_map, h] at hw
  obtain ⟨n, hn, hasked⟩ := Option.map_eq_some_iff.mp hw.symm
  exact ⟨n, hn, hasked⟩

/-- While no turn holds the history nothing is left of one. -/
theorem left_eq_nil (ht : w.Told blocks left) (h : w.core.active = none) (ho : w.core.isOpen = true) :
    left = [] := by
  refine List.eq_nil_iff_forall_not_mem.mpr fun x hx => ?_
  have := (ht.left x hx).2
  rw [ht.active_eq_none h, ht.opened ho] at this
  exact List.not_mem_nil this

/-- At the end no turn is left. -/
theorem shut (ht : w.Told blocks left) (hc : w.core.isOpen = false) : w.active = none ∧ w.queue = [] := by
  obtain ⟨hactive, hqueue⟩ := ht.closed hc
  have hw := ht.waiting
  rw [hqueue] at hw
  exact ⟨ht.active_eq_none hactive, List.map_eq_nil_iff.mp hw.symm⟩

/-! ### Moves that leave the blocks as they are -/

/-- The turn that holds the history may come to another stage. -/
theorem goes {active : Option (Turn × Stage)} (ht : w.Told blocks left)
    (hg : w.core.Goes d w.core.queue active w.core.history)
    (hsame : active.map (fun x => some x.1.message) = w.core.active.map fun x => some x.1.message)
    (hstage : ∀ t stage, active = some (t, stage) →
      ∃ s, w.core.session = some s ∧ stage.sessionId = s.sessionId) :
    { w with core := d }.Told blocks left := by
  refine { ht with
    proper := ?_, waiting := ?_, running := ?_, stage := ?_, history := ?_, opened := ?_, closed := ?_ }
  · exact fun b hb => (ht.proper b hb).mono hg (List.prefix_refl _)
  · exact (congrArg _ hg.queue).trans ht.waiting
  · exact (congrArg _ hg.active).trans (hsame.trans ht.running)
  · intro t stage h
    obtain ⟨s, hs, hid⟩ := hstage t stage (hg.active.symm.trans h)
    exact ⟨s, hg.session s hs, hid⟩
  · exact hg.history.trans ht.history
  · exact fun h => ht.opened (hg.isOpen.symm.trans h)
  · intro h
    obtain ⟨hactive, hqueue⟩ := ht.closed (hg.isOpen.symm.trans h)
    rw [hactive] at hsame
    exact ⟨hg.active.trans (Option.map_eq_none_iff.mp hsame), hg.queue.trans hqueue⟩

theorem asks (ht : w.Told blocks left) (hskills : ∀ m ∈ out, m.isSkillRequest = true) :
    { w with written := w.written ++ out.map fun m => (none, m) }.Told blocks left := by
  refine { ht with lines := ?_ }
  change List.filter (fun x => !x.2.isSkillRequest) (w.written ++ out.map fun m => (none, m)) = _
  rw [List.filter_append, ht.lines, List.filter_eq_nil_iff.mpr, List.append_nil]
  intro x hx
  obtain ⟨m, hm, rfl⟩ := List.mem_map.mp hx
  simp [hskills m hm]

theorem writes {m : Message} (ht : w.Told blocks left) (hn : w.active = some n) (hm : m.isInner = true) :
    { w with written := w.written ++ [(some n, m)] }.Told blocks (left ++ [(n, m)]) := by
  refine { ht with lines := ?_, left := ?_ }
  · change ((w.written ++ [(some n, m)]).filter fun x => !x.2.isSkillRequest) = _
    rw [List.filter_append, ht.lines]
    simp [Message.not_isSkillRequest_of_isInner hm]
  · intro x hx
    rcases List.mem_append.mp hx with hx | hx
    · exact ht.left x hx
    · rw [List.mem_singleton.mp hx]
      exact ⟨hm, by simp [hn]⟩

theorem gives {input : TurnInput} (ht : w.Told blocks left) (hn : w.active = some n)
    (hasked : w.asked[n]? = some input.message) (hh : input.history = w.core.history) :
    { w with given := w.given ++ [(n, input)] }.Told blocks left := by
  refine { ht with given := fun x hx => ?_ }
  rcases List.mem_append.mp hx with hx | hx
  · exact ht.given x hx
  · rw [List.mem_singleton.mp hx]
    have hnew : n ∉ blocks.map Block.turn := by
      have hd := ht.nodup
      rw [hn, List.append_assoc, List.append_assoc, List.nodup_append] at hd
      exact fun h => hd.2.2 n h n (by simp) rfl
    refine ⟨by simp [hn], hasked, ?_⟩
    rw [hh, ht.history]
    exact congrArg (List.flatMap _) (Block.before_eq_self hnew).symm

theorem hears {message : String} {token : Nat} (ht : w.Told blocks left)
    (hg : w.core.Goes d (w.core.queue ++ [⟨message, token⟩]) w.core.active w.core.history)
    (ho : w.core.isOpen = true) :
    { w with core := d, asked := w.asked ++ [message], queue := w.queue ++ [w.asked.length] }.Told
      blocks left := by
  have hold {n : Nat} (h : n ∈ blocks.map Block.turn ++ w.active.toList ++ w.queue ++ w.dropped) :
      (w.asked ++ [message])[n]? = w.asked[n]? := List.getElem?_append_left (ht.lt h)
  have hexchange (bs : List Block) (hbs : ∀ b ∈ bs, b ∈ blocks) :
      bs.flatMap (Block.exchange (w.asked ++ [message])) = bs.flatMap (Block.exchange w.asked) := by
    refine List.flatMap_congr fun b hb => Block.exchange_append (ht.lt ?_) _
    simp only [List.mem_append]
    exact .inl (.inl (.inl (List.mem_map.mpr ⟨b, hbs b hb, rfl⟩)))
  refine ⟨ht.lines, ?_, ht.left, ?_, ?_, ?_, ?_, ?_, ?_, ht.replies, ?_, ?_⟩
  · exact fun b hb => (ht.proper b hb).mono hg (List.prefix_append _ _)
  · change (blocks.map Block.turn ++ w.active.toList ++ (w.queue ++ [w.asked.length]) ++ w.dropped).Perm
      (List.range (w.asked ++ [message]).length)
    rw [List.length_append, List.length_singleton, List.range_succ]
    have hp := ht.numbers.append_right [w.asked.length]
    refine List.Perm.trans ?_ hp
    simp only [List.append_assoc]
    exact ((List.perm_append_comm.append_left w.queue).append_left _).append_left _
  · change d.queue.map (fun t => some t.message) =
      (w.queue ++ [w.asked.length]).map ((w.asked ++ [message])[·]?)
    rw [hg.queue, List.map_append, List.map_append, ht.waiting]
    refine congr (congrArg _ (List.map_congr_left fun n hn => (hold ?_).symm)) ?_
    · simp only [List.mem_append]
      exact .inl (.inr hn)
    · simp
  · change d.active.map (fun x => some x.1.message) = w.active.map ((w.asked ++ [message])[·]?)
    rw [hg.active, ht.running]
    cases h : w.active with
    | none => rfl
    | some n => exact congrArg some (hold (by simp [h])).symm
  · intro t stage h
    obtain ⟨s, hs, hid⟩ := ht.stage t stage (hg.active.symm.trans h)
    exact ⟨s, hg.session s hs, hid⟩
  · exact hg.history.trans (ht.history.trans (hexchange blocks fun _ h => h).symm)
  · intro x hx
    obtain ⟨hmem, hasked, hhistory⟩ := ht.given x hx
    refine ⟨hmem, (hold ?_).trans hasked, hhistory.trans (hexchange _ fun _ h => ?_).symm⟩
    · simp only [List.mem_append] at hmem ⊢
      tauto
    · exact (List.takeWhile_sublist _).subset h
  · exact fun h => ht.opened (hg.isOpen.symm.trans h)
  · exact fun h => absurd (ho.symm.trans (hg.isOpen.symm.trans h)) (by decide)

/-! ### Moves that begin and end turns -/

theorem queue_perm {place : Nat} (h : w.queue[place]? = some n) :
    (n :: w.queue.eraseIdx place).Perm w.queue := by
  obtain ⟨hlt, rfl⟩ := List.getElem?_eq_some_iff.mp h
  exact List.getElem_cons_eraseIdx_perm hlt

theorem waiting_eraseIdx (ht : w.Told blocks left) (place : Nat) :
    (w.core.queue.eraseIdx place).map (fun t => some t.message) =
      (w.queue.eraseIdx place).map (w.asked[·]?) := by
  rw [← List.eraseIdx_map, ht.waiting, List.eraseIdx_map]

theorem enters {place : Nat} {s : StartPayload} (ht : w.Told blocks left) (hfree : w.core.active = none)
    (hqueued : w.queue[place]? = some n) (hasked : w.asked[n]? = some t.message)
    (hs : w.core.session = some s) (ho : w.core.isOpen = true)
    (hg : w.core.Goes d (w.core.queue.eraseIdx place) (some (t, .entered s)) w.core.history) :
    { w with core := d, queue := w.queue.eraseIdx place, active := some n }.Told blocks left := by
  have hnone := ht.active_eq_none hfree
  have hleft := ht.left_eq_nil hfree ho
  refine { ht with
    proper := ?_, left := ?_, numbers := ?_, waiting := ?_, running := ?_, stage := ?_, history := ?_,
    given := ?_, opened := ?_, closed := ?_ }
  · exact fun b hb => (ht.proper b hb).mono hg (List.prefix_refl _)
  · rw [hleft]
    exact fun _ h => absurd h List.not_mem_nil
  · refine List.Perm.trans ?_ ht.numbers
    rw [hnone]
    simp only [Option.toList_some, Option.toList_none, List.append_nil, List.append_assoc]
    exact ((queue_perm hqueued).append_right _).append_left _
  · exact (congrArg _ hg.queue).trans (ht.waiting_eraseIdx place)
  · change d.active.map _ = some w.asked[n]?
    rw [hg.active, hasked]
    rfl
  · intro t' stage h
    obtain ⟨-, rfl⟩ := Prod.mk.inj (Option.some.inj (hg.active.symm.trans h))
    exact ⟨s, hg.session s hs, rfl⟩
  · exact hg.history.trans ht.history
  · intro x hx
    obtain ⟨hmem, hrest⟩ := ht.given x hx
    refine ⟨?_, hrest⟩
    rw [hnone] at hmem
    simp only [Option.toList_none, List.append_nil, List.mem_append] at hmem ⊢
    tauto
  · exact fun h => ht.opened (hg.isOpen.symm.trans h)
  · exact fun h => absurd (ho.symm.trans (hg.isOpen.symm.trans h)) (by decide)

/-- A block is closed: that of the turn that holds the history, or of one that never got hold of it. -/
theorem closes {queue : List Nat} {tasks : List Turn} {history : List ChatMessage}
    (ht : w.Told blocks left) (b : Block) (out : List Message) (ho : w.core.isOpen = true)
    (hnumbers : (b.turn :: queue).Perm (w.active.toList ++ w.queue))
    (hg : w.core.Goes d tasks none history) (hp : b.Proper w.core w.asked)
    (hwaiting : tasks.map (fun t => some t.message) = queue.map (w.asked[·]?))
    (hhistory : history = w.core.history ++ b.exchange w.asked)
    (hactive : ∀ n ∈ w.active, n = b.turn)
    (hinner : ∀ m ∈ out, m.isSkillRequest = false)
    (hlines : left ++ out.map (fun m => (b.turn, m)) = b.lines) :
    { w with
      core := d, queue := queue, active := none, written := w.written ++ out.map fun m => (some b.turn, m),
      replies := w.replies ++ b.replied.toList }.Told (blocks ++ [b]) [] := by
  have hdropped := ht.opened ho
  have hnew : b.turn ∉ blocks.map Block.turn := by
    have hd := ht.nodup
    rw [hdropped, List.append_nil, List.append_assoc, List.nodup_append] at hd
    exact fun h => hd.2.2 _ h _ (hnumbers.mem_iff.mp List.mem_cons_self) rfl
  refine ⟨?_, ?_, fun _ h => absurd h List.not_mem_nil, ?_, ?_, ?_, ?_, ?_, ?_, ?_, fun _ => hdropped,
    ?_⟩
  · change List.filter (fun x => !x.2.isSkillRequest) (w.written ++ out.map fun m => (some b.turn, m)) = _
    rw [List.filter_append, ht.lines, List.filter_eq_self.mpr, List.append_nil, List.flatMap_append,
      List.flatMap_singleton, ← hlines]
    · simp [Function.comp_def]
    · intro x hx
      obtain ⟨m, hm, rfl⟩ := List.mem_map.mp hx
      simp [hinner m hm]
  · intro a ha
    rcases List.mem_append.mp ha with ha | ha
    · exact (ht.proper a ha).mono hg (List.prefix_refl _)
    · rw [List.mem_singleton.mp ha]
      exact hp.mono hg (List.prefix_refl _)
  · refine List.Perm.trans ?_ ht.numbers
    rw [hdropped, List.map_append, List.append_nil, List.append_nil, List.append_assoc, List.append_assoc,
      List.append_assoc]
    exact hnumbers.append_left _
  · exact (congrArg _ hg.queue).trans hwaiting
  · exact congrArg (Option.map _) hg.active
  · exact fun t stage h => absurd (hg.active.symm.trans h) nofun
  · refine hg.history.trans (hhistory.trans ?_)
    rw [List.flatMap_append, List.flatMap_singleton, ht.history]
  · intro x hx
    obtain ⟨hmem, hasked, hgiven⟩ := ht.given x hx
    have hknown : x.1 ∈ blocks.map Block.turn ∨ x.1 = b.turn := by
      rw [hdropped, List.append_nil, List.mem_append, Option.mem_toList] at hmem
      exact hmem.imp_right (hactive x.1)
    refine ⟨?_, hasked, ?_⟩
    · rw [hdropped]
      simpa using hknown
    · rw [hgiven, Block.before_append hnew hknown]
  · rw [List.filterMap_append, ← ht.replies]
    cases h : b.replied <;> simp [h]
  · exact fun h => absurd (ho.symm.trans (hg.isOpen.symm.trans h)) (by decide)

/-- The turn that holds the history ends, and all that is left of it belongs to its block. -/
theorem ends {history : List ChatMessage} (ht : w.Told blocks left) (extra : List Message) (ending : Ending)
    (hactive : w.core.active = some (t, stage)) (hn : w.active = some n)
    (hg : w.core.Goes d w.core.queue none history)
    (hhistory : history = w.core.history ++ (⟨n, extra, ending⟩ : Block).exchange w.asked)
    (hp : (⟨n, extra, ending⟩ : Block).Proper w.core w.asked)
    (hextra : ∀ m ∈ extra ++ [ending.message], m.isSkillRequest = false) :
    { w with
      core := d, active := none,
      written := w.written ++ (extra ++ [ending.message]).map fun m => (some n, m),
      replies := w.replies ++ (⟨n, extra, ending⟩ : Block).replied.toList }.Told
      (blocks ++ [(⟨n, left.map Prod.snd ++ extra, ending⟩ : Block)]) [] := by
  have ho := ht.isOpen_of_active hactive
  have hleft : ∀ x ∈ left, x.2.isInner = true ∧ x.1 = n := by
    intro x hx
    obtain ⟨hinner, hmem⟩ := ht.left x hx
    rw [hn, ht.opened ho] at hmem
    exact ⟨hinner, by simpa using hmem⟩
  have hbody : (⟨n, left.map Prod.snd ++ extra, ending⟩ : Block).Proper w.core w.asked := by
    refine hp.prepend fun m hm => ?_
    obtain ⟨x, hx, rfl⟩ := List.mem_map.mp hm
    exact (hleft x hx).1
  refine ht.closes ⟨n, left.map Prod.snd ++ extra, ending⟩ (extra ++ [ending.message]) ho ?_ hg hbody
    ht.waiting hhistory ?_ hextra ?_
  · rw [hn]
    exact .refl _
  · intro m hm
    rw [hn] at hm
    exact (Option.some.inj hm).symm
  · have hown : (left.map Prod.snd).map (fun m => (n, m)) = left := by
      rw [List.map_map]
      refine (List.map_congr_left fun x hx => ?_).trans (List.map_id left)
      rw [← (hleft x hx).2]
      rfl
    symm
    unfold Block.lines
    dsimp only
    rw [List.append_assoc, List.map_append, hown]

theorem shuts (ht : w.Told blocks left) (ho : w.core.isOpen = true) (hc : d.isOpen = false)
    (hd : d = { w.core with phase := d.phase, queue := [], active := none }) :
    { w with
      core := d, queue := [], active := none,
      dropped := w.dropped ++ (w.active.toList ++ w.queue) }.Told blocks left := by
  have hdropped := ht.opened ho
  refine { ht with
    proper := ?_, left := ?_, numbers := ?_, waiting := ?_, running := ?_, stage := ?_, history := ?_,
    given := ?_, opened := ?_, closed := ?_ }
  · intro b hb
    obtain ⟨hsingle, hreported, hunreported⟩ := ht.proper b hb
    refine ⟨hsingle, fun reply h => ?_, hunreported⟩
    rw [hd]
    exact hreported reply h
  · intro x hx
    obtain ⟨hinner, hmem⟩ := ht.left x hx
    refine ⟨hinner, ?_⟩
    simp only [Option.toList_none, List.nil_append, List.mem_append] at hmem ⊢
    tauto
  · refine List.Perm.trans ?_ ht.numbers
    simp [hdropped]
  · rw [hd]
    rfl
  · rw [hd]
    rfl
  · intro t stage h
    rw [hd] at h
    cases h
  · rw [hd]
    exact ht.history
  · intro x hx
    obtain ⟨hmem, hrest⟩ := ht.given x hx
    refine ⟨?_, hrest⟩
    simp only [Option.toList_none, List.append_nil, List.mem_append] at hmem ⊢
    tauto
  · exact fun h => absurd (hc.symm.trans h) (by decide)
  · intro _
    rw [hd]
    exact ⟨rfl, rfl⟩

/-! ### Any move -/

theorem isSome_active (ht : w.Told blocks left) : w.active.isSome = w.core.active.isSome := by
  have h := congrArg Option.isSome ht.running
  simpa using h.symm

end Told

theorem givenAt_eq_nil (h : d.input? = none ∨ d.input? = w.core.input?) : w.givenAt d = [] := by
  unfold givenAt
  split
  · rename_i hbefore _ hafter
    rcases h with h | h
    · cases h.symm.trans hafter
    · cases (h.trans hbefore).symm.trans hafter
  · rfl

/-- A move that is none of a turn's. -/
theorem take_of_outside (hmove : w.core.move mv = some (d, out)) (houtside : mv.isOutside = true)
    (hactive : d.active.isSome = w.active.isSome) :
    w.take mv = { w with
      core := d
      asked := w.asked ++ (w.core.heard mv).toList
      queue := w.queue ++ ((w.core.heard mv).map fun _ => w.asked.length).toList
      written := w.written ++ out.map fun m => (none, m)
      given := w.given ++ w.givenAt d } := by
  have hsame : (if d.active.isSome then w.active.or none else none) = w.active := by
    rw [hactive]
    cases w.active <;> rfl
  rw [take, hmove]
  cases mv <;> simp only [Move.isOutside, Bool.false_eq_true] at houtside <;>
    simp only [queueAfter, droppedAt, repliedAt, author, hsame, List.append_nil]

/-- The turn that holds the history goes on. -/
theorem take_of_active (hmove : w.core.move mv = some (d, out)) (hn : w.active = some n)
    (hactive : d.active.isSome = true) (hmv : mv = .search ∨ ∃ m, mv = .say m)
    (hinput : d.input? = none ∨ d.input? = w.core.input?) :
    w.take mv = { w with core := d, written := w.written ++ out.map fun m => (some n, m) } := by
  rw [take, hmove]
  rcases hmv with rfl | ⟨m, rfl⟩ <;>
    simp [queueAfter, droppedAt, repliedAt, author, Core.heard, hn, hactive, givenAt_eq_nil hinput]

/-- The turn that holds the history ends. -/
theorem take_of_end (hmove : w.core.move mv = some (d, out)) (hn : w.active = some n)
    (hactive : d.active = none) (hmv : mv = .quit ∨ ∃ r, mv = .finish r) :
    w.take mv = { w with
      core := d
      active := none
      written := w.written ++ out.map fun m => (some n, m)
      replies := w.replies ++ w.repliedAt mv } := by
  have hinput : d.input? = none := by rw [Core.input?, hactive]
  rw [take, hmove]
  rcases hmv with rfl | ⟨r, rfl⟩ <;>
    simp [queueAfter, droppedAt, author, Core.heard, hn, hactive, givenAt_eq_nil (.inl hinput)]

/-- A turn leaves the queue. -/
theorem take_of_enter {place : Nat} (hmove : w.core.move (.enter place) = some (d, out))
    (hfree : w.active = none) (hn : w.queue[place]? = some n) :
    w.take (.enter place) = { w with
      core := d
      queue := w.queue.eraseIdx place
      active := if d.active.isSome then some n else none
      written := w.written ++ out.map fun m => (some n, m) } := by
  have hgiven : w.givenAt d = [] := by
    unfold givenAt
    rw [hfree]
    split <;> first | rfl | simp_all
  rw [take, hmove]
  simp [queueAfter, droppedAt, repliedAt, author, Core.heard, hfree, hn, hgiven]

namespace Told

theorem take_aside (ht : w.Told blocks left) (hmove : w.core.move mv = some (d, out))
    (outside : mv.isOutside = true) (silent : w.core.heard mv = none) (h : w.core.Aside d out) :
    (w.take mv).Told blocks left := by
  have hactive : d.active.isSome = w.active.isSome := by rw [h.goes.active, ht.isSome_active]
  have hinput : d.input? = w.core.input? := by rw [Core.input?, h.goes.active, Core.input?]
  have hwatch := take_of_outside hmove outside hactive
  simp only [silent, givenAt_eq_nil (.inr hinput), Option.map_none, Option.toList_none,
    List.append_nil] at hwatch
  rw [hwatch]
  exact (ht.goes h.goes rfl ht.stage).asks h.skills

theorem take_heard {bytes : List UInt8} {message : String} {token : Nat} (ht : w.Told blocks left)
    (hmove : w.core.move (.line bytes) = some (d, [])) (heard : w.core.heard (.line bytes) = some message)
    (hg : w.core.Goes d (w.core.queue ++ [⟨message, token⟩]) w.core.active w.core.history) :
    (w.take (.line bytes)).Told blocks left := by
  have hactive : d.active.isSome = w.active.isSome := by rw [hg.active, ht.isSome_active]
  have hinput : d.input? = w.core.input? := by rw [Core.input?, hg.active, Core.input?]
  have hwatch := take_of_outside hmove rfl hactive
  simp only [heard, givenAt_eq_nil (.inr hinput), Option.map_some, Option.toList_some, List.map_nil,
    List.append_nil] at hwatch
  rw [hwatch]
  exact ht.hears hg (Core.isOpen_of_heard heard)

theorem take_given {s : StartPayload} {skills : List Json} {call : Waiting} {memory : List String}
    (ht : w.Told blocks left) (hmove : w.core.move mv = some (d, [])) (outside : mv.isOutside = true)
    (silent : w.core.heard mv = none) (hactive : w.core.active = some (t, .searching s skills call))
    (hg : w.core.Goes d w.core.queue
      (some (t, .running ⟨s.sessionId, t.message, w.core.history, memory, skills, s.agentConfig⟩))
      w.core.history) : (w.take mv).Told blocks left := by
  obtain ⟨n, hn, hasked⟩ := ht.active_eq hactive
  obtain ⟨r, hr, hid⟩ := ht.stage _ _ hactive
  have hgiven : w.givenAt d =
      [(n, ⟨s.sessionId, t.message, w.core.history, memory, skills, s.agentConfig⟩)] := by
    rw [givenAt, Core.input?, hactive, hn, Core.input?, hg.active]
  have hsome : d.active.isSome = w.active.isSome := by
    rw [hg.active, hn]
    rfl
  have hwatch := take_of_outside hmove outside hsome
  simp only [silent, hgiven, Option.map_none, Option.toList_none, List.append_nil, List.map_nil] at hwatch
  rw [hwatch]
  refine Told.gives (ht.goes hg ?_ ?_) hn hasked hg.history.symm
  · rw [hactive]
    rfl
  · intro t' stage h
    obtain ⟨-, rfl⟩ := Prod.mk.inj (Option.some.inj h)
    exact ⟨r, hr, hid⟩

theorem take_refused {place : Nat} {f : Fault} (ht : w.Told blocks left)
    (hmove : w.core.move (.enter place) = some (d, [.error f])) (hfree : w.core.active = none)
    (hqueued : w.core.queue[place]? = some t)
    (hg : w.core.Goes d (w.core.queue.eraseIdx place) none w.core.history) :
    ∃ n, (w.take (.enter place)).Told (blocks ++ [⟨n, [], .failed f⟩]) [] := by
  obtain ⟨n, hn, hasked⟩ := ht.queued_eq hqueued
  have ho := ht.isOpen_of_queued hqueued
  have hnone := ht.active_eq_none hfree
  have hnumbers : (n :: w.queue.eraseIdx place).Perm (w.active.toList ++ w.queue) := by
    rw [hnone]
    exact queue_perm hn
  have htold := ht.closes ⟨n, [], .failed f⟩ [.error f] ho hnumbers hg (.of_unanswered (by simp))
    (ht.waiting_eraseIdx place) (by simp [Block.exchange, hasked]) (by simp [hnone])
    (by simp [Message.isSkillRequest]) (by rw [ht.left_eq_nil hfree ho]; rfl)
  simp only [Block.replied, Option.toList_none, List.append_nil] at htold
  rw [take_of_enter hmove hnone hn, hg.active]
  exact ⟨n, htold⟩

theorem take_answered {input : TurnInput} {reply : String} (ht : w.Told blocks left)
    (hmove : w.core.move (.finish (.ok reply)) =
      some (d, w.core.usage input.sessionId t.message reply ++ [.done false]))
    (hactive : w.core.active = some (t, .running input))
    (hg : w.core.Goes d w.core.queue none (w.core.history ++ [.user t.message, .assistant reply])) :
    ∃ b, (w.take (.finish (.ok reply))).Told (blocks ++ [b]) [] := by
  obtain ⟨n, hn, hasked⟩ := ht.active_eq hactive
  obtain ⟨s, hs, hid⟩ := ht.stage _ _ hactive
  replace hid : input.sessionId = s.sessionId := hid
  have hreplied : w.repliedAt (.finish (.ok reply)) = [(n, reply)] := by
    rw [repliedAt, hn]
    rfl
  have hp : (⟨n, w.core.usage s.sessionId t.message reply, .answered reply⟩ : Block).Proper
      w.core w.asked := .of_answered hs hasked
  have htold := ht.ends _ _ hactive hn hg (by simp [Block.exchange, hasked]) hp
    (by simp [Ending.message, Message.isSkillRequest, Core.usage])
  rw [take_of_end hmove hn hg.active (.inr ⟨_, rfl⟩), hreplied, hid]
  exact ⟨_, htold⟩

theorem take_shut (ht : w.Told blocks left) (hmove : w.core.move .wind = some (d, []))
    (ho : w.core.isOpen = true) (hd : d = { w.core with phase := d.phase, queue := [], active := none })
    (hc : d.isOpen = false) : (w.take .wind).Told blocks left := by
  have hactive : d.active = none := by rw [hd]
  have hinput : d.input? = none := by rw [Core.input?, hactive]
  have hwatch : w.take .wind = { w with
      core := d, queue := [], active := none, dropped := w.dropped ++ (w.active.toList ++ w.queue) } := by
    rw [Watch.take, hmove]
    simp [queueAfter, droppedAt, repliedAt, author, Core.heard, hactive, givenAt_eq_nil (.inl hinput)]
  rw [hwatch]
  exact ht.shuts ho hc hd

theorem take_ended (ht : w.Told blocks left) (hmove : w.core.move .wind = some (d, []))
    (hc : w.core.isOpen = false) (hg : w.core.Goes d w.core.queue w.core.active w.core.history) :
    (w.take .wind).Told blocks left := by
  obtain ⟨hnone, hempty⟩ := ht.shut hc
  have hinput : d.input? = none := by rw [Core.input?, hg.active, (ht.closed hc).1]
  have hwatch : w.take .wind = { w with core := d } := by
    rw [Watch.take, hmove]
    simp [queueAfter, droppedAt, repliedAt, author, Core.heard, hg.active, (ht.closed hc).1, hnone, hempty,
      givenAt_eq_nil (.inl hinput)]
  rw [hwatch]
  exact ht.goes hg rfl ht.stage

/-- Any move leaves it so, with one more block where a turn has ended. -/
theorem take (ht : w.Told blocks left) (mv : Move) (native : ∀ m, mv = .say m → m.isNative = true) :
    ∃ blocks left, (w.take mv).Told blocks left := by
  cases hmove : w.core.move mv with
  | none =>
    rw [Watch.take, hmove]
    exact ⟨blocks, left, ht⟩
  | some x =>
    obtain ⟨d, out⟩ := x
    cases Core.move_cases hmove with
    | aside outside silent h => exact ⟨blocks, left, ht.take_aside hmove outside silent h⟩
    | heard heard goes => exact ⟨blocks, left, ht.take_heard hmove heard goes⟩
    | given outside silent active goes =>
      exact ⟨blocks, left, ht.take_given hmove outside silent active goes⟩
    | refused free queued goes =>
      obtain ⟨n, htold⟩ := ht.take_refused hmove free queued goes
      exact ⟨_, [], htold⟩
    | entered free queued session goes =>
      obtain ⟨n, hn, hasked⟩ := ht.queued_eq queued
      have htold := ht.enters free hn hasked session (ht.isOpen_of_queued queued) goes
      rw [take_of_enter hmove (ht.active_eq_none free) hn, goes.active]
      simp only [Option.isSome_some, ↓reduceIte, List.map_nil, List.append_nil]
      exact ⟨blocks, left, htold⟩
    | searched active goes =>
      obtain ⟨n, hn, hasked⟩ := ht.active_eq active
      obtain ⟨s, hs, hid⟩ := ht.stage _ _ active
      have hinput : d.input? = none := by rw [Core.input?, goes.active]
      rw [take_of_active hmove hn (by rw [goes.active]; rfl) (.inl rfl) (.inl hinput)]
      refine ⟨blocks, left ++ [(n, _)], (ht.goes goes ?_ ?_).writes hn rfl⟩
      · rw [active]
        rfl
      · intro t stage h
        obtain ⟨-, rfl⟩ := Prod.mk.inj (Option.some.inj h)
        exact ⟨s, hs, hid⟩
    | quit active goes =>
      obtain ⟨n, hn, hasked⟩ := ht.active_eq active
      have htold := ht.ends [] .cancelled active hn goes (by simp [Block.exchange])
        (.of_unanswered (by simp)) (by simp [Ending.message, Message.isSkillRequest])
      rw [take_of_end hmove hn goes.active (.inl rfl)]
      exact ⟨_, [], htold⟩
    | spoke active same =>
      obtain ⟨n, hn, hasked⟩ := ht.active_eq active
      subst same
      rw [take_of_active hmove hn (by rw [active]; rfl) (.inr ⟨_, rfl⟩) (.inr rfl)]
      exact ⟨blocks, left ++ [(n, _)], ht.writes hn (Message.isInner_of_isNative (native _ rfl))⟩
    | answered active goes =>
      obtain ⟨b, htold⟩ := ht.take_answered hmove active goes
      exact ⟨_, [], htold⟩
    | @failed t input e active goes =>
      obtain ⟨n, hn, hasked⟩ := ht.active_eq active
      have htold := ht.ends [] (.failed (Core.failure e)) active hn goes (by simp [Block.exchange])
        (.of_unanswered (by simp)) (by simp [Ending.message, Message.isSkillRequest])
      rw [take_of_end hmove hn goes.active (.inr ⟨_, rfl⟩)]
      exact ⟨_, [], htold⟩
    | shut isOpen shut closed => exact ⟨blocks, left, ht.take_shut hmove isOpen shut closed⟩
    | ended closed goes => exact ⟨blocks, left, ht.take_ended hmove closed goes⟩

end Told

theorem told_run (runner : String) (timeout : Nat) {moves : List Move}
    (native : ∀ m, .say m ∈ moves → m.isNative = true) :
    ∃ blocks left, (run runner timeout moves).Told blocks left := by
  induction moves using List.reverseRecOn with
  | nil => exact ⟨[], [], told_start runner timeout⟩
  | append_singleton moves mv ih =>
    obtain ⟨blocks, left, ht⟩ := ih fun m h => native m (List.mem_append_left _ h)
    have hrun : run runner timeout (moves ++ [mv]) = (run runner timeout moves).take mv := by
      rw [run, List.foldl_append]
      rfl
    rw [hrun]
    exact ht.take mv fun m h => native m (by simp [h])

end Watch

/-- Whatever lines arrive and whenever calls are answered, run out or are cancelled: but for requests for
skills, all that a bridge writes is one block for each turn that has ended, and then what the turn that
holds the history has written, or one that was given up at the end. A block has one terminal message, its
last, and reports just of a turn that was answered; each user's message has one turn. The history that a
turn is given is what the answered turns before it have added. -/
theorem turns_write_blocks (runner : String) (timeout : Nat) (moves : List Move)
    (native : ∀ m, .say m ∈ moves → m.isNative = true) :
    let w := Watch.run runner timeout moves
    (w.core, w.written.map Prod.snd) = Core.play { runner, timeout } moves ∧
    ∃ (blocks : List Block) (left : List (Nat × Message)),
      (w.written.filter fun x => !x.2.isSkillRequest) =
        (blocks.flatMap Block.lines ++ left).map (fun x => (some x.1, x.2)) ∧
      (∀ b ∈ blocks, b.Proper w.core w.asked) ∧
      (∀ x ∈ left, x.2.isInner = true ∧ x.1 ∈ w.active.toList ++ w.dropped) ∧
      (blocks.map Block.turn ++ w.active.toList ++ w.queue ++ w.dropped).Perm
        (List.range w.asked.length) ∧
      (w.core.isOpen = true → w.dropped = []) ∧
      (w.core.isOpen = false → w.active = none ∧ w.queue = []) ∧
      w.core.history = blocks.flatMap (Block.exchange w.asked) ∧
      (∀ x ∈ w.given, w.asked[x.1]? = some x.2.message ∧
        x.2.history = (blocks.takeWhile fun b => b.turn != x.1).flatMap (Block.exchange w.asked)) ∧
      w.replies = blocks.filterMap Block.replied := by
  intro w
  obtain ⟨blocks, left, ht⟩ := Watch.told_run runner timeout native
  obtain ⟨hcore, hwritten⟩ := Watch.play_eq { core := { runner, timeout } } moves
  exact ⟨Prod.ext hcore hwritten, blocks, left, ht.lines, ht.proper, ht.left, ht.numbers, ht.opened, ht.shut,
    ht.history, fun x hx => (ht.given x hx).2, ht.replies⟩

/-- Of two turns the later one comes to the history first and is answered without memory, as its search gets
no response; the other one is cancelled when the input ends. -/
theorem blocks_of_two_turns :
    let line (s : String) : Move := .line (Text.encode s)
    let moves := [line "\x7b\"type\":\"start\",\"sessionId\":\"s\"\x7d",
      line "\x7b\"type\":\"user_message\",\"message\":\"hi\"\x7d",
      line "\x7b\"type\":\"user_message\",\"message\":\"bye\"\x7d",
      .enter 1, .search, .tick 10, .expire, .say (.assistantMessage "yes"), .finish (.ok "yes"), .enter 0,
      .endInput, .quit]
    let w := Watch.run "mock" 10 moves
    (∃ blocks : List Block, w.core.history = blocks.flatMap (Block.exchange w.asked) ∧
      w.replies = blocks.filterMap Block.replied) ∧
    (w.core.history, w.written.map Prod.fst) =
      ([.user "bye", .assistant "yes"], [some 1, some 1, some 1, some 1, some 1, some 0]) := by
  intro line moves w
  obtain ⟨-, blocks, -, -, -, -, -, -, -, hhistory, -, hreplies⟩ :=
    turns_write_blocks "mock" 10 moves (by simp [moves, line, Message.isNative])
  exact ⟨⟨blocks, hhistory, hreplies⟩, by decide +kernel⟩

end Fleet.Bridge
