import Fleet.Proofs.Bridge.Orders
import Fleet.Proofs.Session.Cancels

/-!
Which turns of a bridge its cancels reach. A turn takes its token when its message is read, not when it gets
the history, so a turn that waits is cancelled with the one that it waits for. The runtime sees a cancel only
when it pauses, but it looks for one before it begins.
-/

namespace Fleet.Bridge

open Happening (Books Cancelled InScope Overtaken)

variable {c d : Core} {mv : Move} {out : List Message} {t : Turn} {stage : Stage} {n : Nat}

namespace Core

/-- Whether the runtime may go on with a turn after a pause. -/
def mayWake (c : Core) : Bool := !c.isStopped && c.input?.isSome

theorem say_eq (c : Core) (m : Message) : c.say m = if c.mayWake then c.speak m else none := by
  unfold say mayWake input? speak
  cases c.isStopped with
  | true => rfl
  | false => rcases c.active with _ | ⟨t, _ | _ | _⟩ <;> rfl

theorem finish_eq (c : Core) (result : Except Error String) :
    c.finish result = if c.mayWake then c.settle result else none := by
  unfold finish mayWake input? settle
  cases c.isStopped with
  | true => rfl
  | false => rcases c.active with _ | ⟨t, _ | _ | _⟩ <;> rfl

/-- A turn's number, and whether it is cancelled. -/
def standing (c : Core) (x : Nat × Turn) : Nat × Bool := (x.1, c.isCancelled x.2)

/-- The turns stay where they are, and none is cancelled. -/
structure Still (c d : Core) : Prop where
  session : d.session = c.session
  queue : d.queue = c.queue
  turn : d.active.map Prod.fst = c.active.map Prod.fst
  token : d.token = c.token
  isOpen : d.isOpen = c.isOpen

theorem Still.isSome_active (h : c.Still d) : d.active.isSome = c.active.isSome := by
  rw [← Option.isSome_map (f := Prod.fst), h.turn, Option.isSome_map]

theorem Still.refl (c : Core) : c.Still c := ⟨rfl, rfl, rfl, rfl, rfl⟩

theorem still_fetched (c : Core) (p : Prefetch) (package : Option Json) :
    c.Still (c.fetched p package).1 := by
  unfold fetched
  split <;> exact ⟨rfl, rfl, rfl, rfl, rfl⟩

theorem still_run {s : StartPayload} {skills : List Json} {call : Waiting} (memory : List String)
    (hactive : c.active = some (t, .searching s skills call)) : c.Still (c.run t s skills memory) :=
  ⟨rfl, rfl, by simp [run, hactive], rfl, rfl⟩

theorem still_resolve (c : Core) (id : String) (outcome : Except Fault Json) :
    c.Still (c.resolve id outcome).1 := by
  have helsewhere : c.Still (resolve.elsewhere c id outcome).1 := by
    unfold resolve.elsewhere
    split
    · rename_i hactive
      split
      · exact still_run _ hactive
      · exact .refl c
    · exact .refl c
  unfold resolve
  split
  · split
    · exact still_fetched c _ _
    · exact helsewhere
  · exact helsewhere

end Core

/-! ### What is watched -/

/-- A bridge moves, or its runtime wakes up to a turn or pauses. -/
inductive Beat where
  | wake
  | pause
  | move (mv : Move)

/-- A bridge that is watched, whether its runtime is awake, and all that happened to turns. -/
structure Vigil where
  watch : Watch
  awake : Bool := false
  log : List Happening := []

namespace Watch

/-- What an order does to turns. -/
def onOrder (w : Watch) : Command → List Happening
  | .cancel | .stop => [.cancelled]
  | .userMessage _ => [.accepted w.asked.length]
  | .start _ | .cpResponse .. => []

/-- What happens to a turn in a move of its own after which the bridge is `d`. -/
def onStep (d : Core) (out : List Message) (turn : Nat) : Move → List Happening
  | .enter _ => .entered turn :: if d.active.isSome then [] else [.ended turn (out.contains (.done true))]
  | .say _ => [.worked turn]
  | .quit | .finish _ => [.ended turn (out.contains (.done true))]
  | _ => []

/-- What happens to turns in a move. -/
def happened (w : Watch) (d : Core) (out : List Message) (mv : Move) : List Happening :=
  match w.core.order mv with
  | some cmd => w.onOrder cmd
  | none => (w.author mv).toList.flatMap fun n => onStep d out n mv

/-- The turns that are not over, each with its number. -/
def turns (w : Watch) : List (Nat × Turn) :=
  (w.active.toList ++ w.queue).zip ((w.core.active.map Prod.fst).toList ++ w.core.queue)

/-- What a watch tells of turns. -/
structure Seen (w : Watch) (d : Core) (queue : List Nat) (active : Option Nat) (asked : List String) :
    Prop where
  core : w.core = d
  queue : w.queue = queue
  active : w.active = active
  asked : w.asked = asked

variable {w : Watch}

theorem seen_outside (hmove : w.core.move mv = some (d, out)) (houtside : mv.isOutside = true)
    (hactive : d.active.isSome = w.active.isSome) :
    (w.take mv).Seen d (w.queue ++ ((w.core.heard mv).map fun _ => w.asked.length).toList) w.active
      (w.asked ++ (w.core.heard mv).toList) := by
  rw [take_of_outside hmove houtside hactive]
  exact ⟨rfl, rfl, rfl, rfl⟩

theorem seen_active (hmove : w.core.move mv = some (d, out)) (hn : w.active = some n)
    (hactive : d.active.isSome = true) (hmv : mv = .search ∨ ∃ m, mv = .say m) :
    (w.take mv).Seen d w.queue w.active w.asked := by
  rw [take, hmove]
  rcases hmv with rfl | ⟨m, rfl⟩ <;>
    exact ⟨rfl, by simp [queueAfter, Core.heard], by simp [hactive, hn], by simp [Core.heard]⟩

theorem seen_end (hmove : w.core.move mv = some (d, out)) (hn : w.active = some n)
    (hactive : d.active = none) (hmv : mv = .quit ∨ ∃ r, mv = .finish r) :
    (w.take mv).Seen d w.queue none w.asked := by
  rw [take_of_end hmove hn hactive hmv]
  exact ⟨rfl, rfl, rfl, rfl⟩

theorem seen_enter {place : Nat} (hmove : w.core.move (.enter place) = some (d, out))
    (hfree : w.active = none) (hn : w.queue[place]? = some n) (hactive : d.active.isSome = true) :
    (w.take (.enter place)).Seen d (w.queue.eraseIdx place) (some n) w.asked := by
  rw [take_of_enter hmove hfree hn]
  exact ⟨rfl, rfl, by simp [hactive], rfl⟩

theorem seen_wind (hmove : w.core.move .wind = some (d, out)) (hactive : d.active = none) :
    (w.take .wind).Seen d [] none w.asked := by
  rw [take, hmove]
  exact ⟨rfl, rfl, by simp [hactive], by simp [Core.heard]⟩

end Watch

namespace Vigil

/-- A bridge that has been given its session. -/
def start (runner : String) (timeout : Nat) (p : StartPayload) : Vigil :=
  { watch := .started runner timeout p }

/-- Only a runtime that is awake speaks and finishes, and as long as it is the turn does not end otherwise. -/
def allows (v : Vigil) : Move → Bool
  | .say _ | .finish _ => v.awake
  | .quit => !v.awake
  | _ => true

def take (v : Vigil) : Beat → Vigil
  | .wake =>
    if v.watch.core.mayWake then
      { v with awake := true, log := v.log ++ (v.watch.active.map .worked).toList }
    else v
  | .pause => { v with awake := false }
  | .move mv =>
    match v.allows mv, v.watch.core.move mv with
    | true, some (d, out) =>
      { watch := v.watch.take mv
        awake := v.awake && d.active.isSome
        log := v.log ++ v.watch.happened d out mv }
    | _, _ => v

def play (v : Vigil) (beats : List Beat) : Vigil := beats.foldl take v

/-- What is watched is the bridge itself, which makes some of the moves. -/
theorem play_watch (v : Vigil) (beats : List Beat) :
    ∃ moves : List Move, (v.play beats).watch = moves.foldl Watch.take v.watch := by
  induction beats generalizing v with
  | nil => exact ⟨[], rfl⟩
  | cons beat rest ih =>
    obtain ⟨moves, hmoves⟩ := ih (v.take beat)
    have hbeat : ∃ before : List Move, (v.take beat).watch = before.foldl Watch.take v.watch := by
      unfold take
      split
      · split <;> exact ⟨[], rfl⟩
      · exact ⟨[], rfl⟩
      · rename_i mv
        split
        · exact ⟨[mv], rfl⟩
        · exact ⟨[], rfl⟩
    obtain ⟨before, hbefore⟩ := hbeat
    refine ⟨before ++ moves, ?_⟩
    rw [List.foldl_append, ← hbefore]
    exact hmoves

end Vigil

/-! ### Tokens -/

/-- The tokens of the turns say which of them are cancelled: of those in the queue and of the one that holds the
history, each with its number. A runtime that is awake has not been overtaken by a cancel. -/
structure Kept (v : Vigil) (tasks : List (Nat × Turn)) (holder : Option (Nat × Turn)) : Prop where
  session : v.watch.core.session.isSome = true
  queue : v.watch.queue = tasks.map Prod.fst
  turns : v.watch.core.queue = tasks.map Prod.snd
  active : v.watch.active = holder.map Prod.fst
  turn : v.watch.core.active.map Prod.fst = holder.map Prod.snd
  tokens : ∀ x ∈ holder.toList ++ tasks, x.2.token ≤ v.watch.core.token
  books : Books v.log (tasks.map v.watch.core.standing) (holder.map v.watch.core.standing)
    v.watch.asked.length
  awake : v.awake = true → ∃ x, holder = some x ∧ ¬ Overtaken v.log x.1
  closed : v.watch.core.isOpen = false → tasks = [] ∧ holder = none

namespace Kept

variable {v : Vigil} {tasks : List (Nat × Turn)} {holder : Option (Nat × Turn)} {w : Watch}

theorem start (runner : String) (timeout : Nat) (p : StartPayload) :
    Kept (Vigil.start runner timeout p) [] none := by
  obtain ⟨hsession, hqueue, hactive⟩ := Core.started runner timeout p
  refine ⟨?_, rfl, hqueue, rfl, ?_, by simp, .start, nofun, fun _ => ⟨rfl, rfl⟩⟩
  · exact Option.isSome_iff_exists.mpr ⟨p, hsession⟩
  · exact congrArg (Option.map Prod.fst) hactive

/-- The turn that holds the history. -/
theorem holder_eq (h : Kept v tasks holder) (hactive : v.watch.core.active = some (t, stage)) :
    ∃ n, holder = some (n, t) ∧ v.watch.active = some n := by
  have hturn := h.turn
  rw [hactive] at hturn
  obtain ⟨⟨n, t'⟩, rfl, heq⟩ := Option.map_eq_some_iff.mp hturn.symm
  cases heq
  exact ⟨n, rfl, h.active⟩

theorem holder_eq_none (h : Kept v tasks holder) (hactive : v.watch.core.active = none) : holder = none := by
  have hturn := h.turn
  rw [hactive] at hturn
  exact Option.map_eq_none_iff.mp hturn.symm

/-- A turn in the queue. -/
theorem task_eq (h : Kept v tasks holder) {place : Nat} (hqueued : v.watch.core.queue[place]? = some t) :
    ∃ n, tasks[place]? = some (n, t) ∧ v.watch.queue[place]? = some n := by
  rw [h.turns, List.getElem?_map] at hqueued
  obtain ⟨⟨n, t'⟩, htask, heq⟩ := Option.map_eq_some_iff.mp hqueued
  cases heq
  refine ⟨n, htask, ?_⟩
  rw [h.queue, List.getElem?_map, htask]
  rfl

theorem turns_eq (h : Kept v tasks holder) : v.watch.turns = holder.toList ++ tasks := by
  rw [Watch.turns, h.queue, h.turns, h.active, h.turn, Option.toList_map, Option.toList_map, ← List.map_append,
    ← List.map_append]
  exact (List.zip_of_prod rfl rfl).symm

/-- A turn is cancelled just if a cancel was issued since its message was accepted. -/
theorem cancelled_iff (h : Kept v tasks holder) {x : Nat × Turn} (hx : x ∈ v.watch.turns) :
    v.watch.core.isCancelled x.2 = true ↔ Cancelled v.log x.1 := by
  rw [h.turns_eq] at hx
  rcases List.mem_append.mp hx with hx | hx
  · rw [Option.mem_toList] at hx
    exact (h.books.active (v.watch.core.standing x) (Option.mem_map_of_mem _ hx)).cancelled
  · exact (h.books.waiting _ (List.mem_map_of_mem hx)).cancelled

theorem isSome_active (h : Kept v tasks holder) :
    v.watch.core.active.isSome = v.watch.active.isSome := by
  rw [h.active, Option.isSome_map, ← Option.isSome_map (f := Prod.fst), h.turn, Option.isSome_map]

/-- The turns may stay where they are. -/
theorem still (h : Kept v tasks holder) (hw : w.Seen d v.watch.queue v.watch.active v.watch.asked)
    (hd : v.watch.core.Still d) {a : Bool}
    (hawake : a = true → v.awake = true) : Kept ⟨w, a, v.log⟩ tasks holder := by
  obtain ⟨rfl, hqueue, hactive, hasked⟩ := hw
  have hstanding : w.core.standing = v.watch.core.standing := by
    funext x
    rw [Core.standing, Core.isCancelled, hd.token]
    rfl
  refine ⟨?_, hqueue.trans h.queue, hd.queue.trans h.turns, hactive.trans h.active, hd.turn.trans h.turn,
    fun x hx => ?_, ?_, fun ha => h.awake (hawake ha), fun hc => h.closed (hd.isOpen.symm.trans hc)⟩
  · rw [hd.session]
    exact h.session
  · rw [hd.token]
    exact h.tokens x hx
  · dsimp only
    rw [hstanding, hasked]
    exact h.books

/-- One that has not been overtaken may work. -/
theorem works (h : Kept v tasks (some (n, t))) (hfree : ¬ Overtaken v.log n) {a : Bool} :
    Kept ⟨v.watch, a, v.log ++ [.worked n]⟩ tasks (some (n, t)) where
  session := h.session
  queue := h.queue
  turns := h.turns
  active := h.active
  turn := h.turn
  tokens := h.tokens
  books := h.books.work hfree
  awake _ := ⟨_, rfl, fun ho => hfree (h.books.overtaken_later.mp ho)⟩
  closed := h.closed

/-- A runtime that is awake stays so, whatever else happens. -/
theorem awake_later (h : Kept v tasks holder) (ha : v.awake = true) {e : Happening} :
    ∃ x, holder = some x ∧ ¬ Overtaken (v.log ++ [e]) x.1 := by
  obtain ⟨x, rfl, hfree⟩ := h.awake ha
  exact ⟨x, rfl, fun ho => hfree (h.books.overtaken_later.mp ho)⟩

theorem not_overtaken (h : Kept v tasks (some (n, t))) (ha : v.awake = true) : ¬ Overtaken v.log n := by
  obtain ⟨x, hx, hfree⟩ := h.awake ha
  cases hx
  exact hfree

/-- A message is read, and its turn takes the token that there is. -/
theorem hears (h : Kept v tasks holder) {message : String} (hopen : v.watch.core.isOpen = true)
    (hw : w.Seen { v.watch.core with queue := v.watch.core.queue ++ [⟨message, v.watch.core.token⟩] }
      (v.watch.queue ++ [v.watch.asked.length]) v.watch.active (v.watch.asked ++ [message])) {a : Bool}
    (hawake : a = true → v.awake = true) :
    Kept ⟨w, a, v.log ++ [.accepted v.watch.asked.length]⟩
      (tasks ++ [(v.watch.asked.length, ⟨message, v.watch.core.token⟩)]) holder := by
  obtain ⟨hcore, hqueue, hactive, hasked⟩ := hw
  refine ⟨?_, ?_, ?_, hactive.trans h.active, ?_, fun x hx => ?_, ?_, fun ha => h.awake_later (hawake ha),
    fun hc => ?_⟩
  · rw [hcore]
    exact h.session
  · rw [hqueue, h.queue, List.map_append, List.map_singleton]
  · rw [hcore, h.turns, List.map_append, List.map_singleton]
  · rw [hcore]
    exact h.turn
  · rw [hcore]
    rw [← List.append_assoc] at hx
    rcases List.mem_append.mp hx with hx | hx
    · exact h.tokens x hx
    · rw [List.mem_singleton.mp hx]
  · have hbooks := h.books.accept
    have hstanding : w.core.standing = v.watch.core.standing := by
      rw [hcore]
      rfl
    have hnew : v.watch.core.standing (v.watch.asked.length, ⟨message, v.watch.core.token⟩) =
        (v.watch.asked.length, false) := by
      simp [Core.standing, Core.isCancelled]
    rw [← hnew] at hbooks
    dsimp only
    rw [hstanding, hasked, List.map_append, List.length_append]
    exact hbooks
  · rw [hcore] at hc
    exact absurd (hopen.symm.trans hc) nofun

/-- All turns so far are cancelled. -/
theorem cancels (h : Kept v tasks holder) (hopen : d.isOpen = true)
    (hd : d = { v.watch.core.cancel with phase := d.phase })
    (hw : w.Seen d v.watch.queue v.watch.active v.watch.asked) {a : Bool}
    (hawake : a = true → v.awake = true) :
    Kept ⟨w, a, v.log ++ [.cancelled]⟩ tasks holder := by
  obtain ⟨rfl, hqueue, hactive, hasked⟩ := hw
  have htoken : w.core.token = v.watch.core.token + 1 := by rw [hd]; rfl
  have hstanding {x : Nat × Turn} (hx : x ∈ holder.toList ++ tasks) :
      w.core.standing x = (x.1, true) := by
    have hle := h.tokens x hx
    rw [Core.standing, Core.isCancelled, htoken, decide_eq_true (Nat.lt_succ_of_le hle)]
  refine ⟨?_, hqueue.trans h.queue, ?_, hactive.trans h.active, ?_, fun x hx => ?_, ?_,
    fun ha => h.awake_later (hawake ha), fun hc => absurd (hopen.symm.trans hc) nofun⟩
  · rw [hd]
    exact h.session
  · rw [hd]
    exact h.turns
  · rw [hd]
    exact h.turn
  · rw [htoken]
    exact Nat.le_succ_of_le (h.tokens x hx)
  · have hbooks := h.books.cancel
    rw [List.map_map, Option.map_map] at hbooks
    have hwaiting : tasks.map w.core.standing = tasks.map ((fun x => (x.1, true)) ∘ v.watch.core.standing) :=
      List.map_congr_left fun x hx => hstanding (List.mem_append_right _ hx)
    have hholder : holder.map w.core.standing =
        holder.map ((fun x => (x.1, true)) ∘ v.watch.core.standing) :=
      Option.map_congr fun x hx => hstanding (List.mem_append_left _ (by simp [hx]))
    dsimp only
    rw [hwaiting, hholder, hasked]
    exact hbooks

theorem enters (h : Kept v tasks none) {place : Nat} {s : StartPayload} (htask : tasks[place]? = some (n, t))
    (hw : w.Seen { v.watch.core with
      queue := v.watch.core.queue.eraseIdx place, active := some (t, .entered s) }
      (v.watch.queue.eraseIdx place) (some n) v.watch.asked) :
    Kept ⟨w, false, v.log ++ [.entered n]⟩ (tasks.eraseIdx place) (some (n, t)) := by
  obtain ⟨hcore, hqueue, hactive, hasked⟩ := hw
  refine ⟨?_, ?_, ?_, hactive, ?_, fun x hx => ?_, ?_, nofun, fun hc => ?_⟩
  · rw [hcore]
    exact h.session
  · rw [hqueue, h.queue, List.eraseIdx_map]
  · rw [hcore, h.turns, List.eraseIdx_map]
  · rw [hcore]
    rfl
  · rw [hcore]
    refine h.tokens x (List.mem_append_right _ ?_)
    rcases List.mem_append.mp hx with hx | hx
    · cases List.mem_singleton.mp hx
      exact List.mem_of_getElem? htask
    · exact List.mem_of_mem_eraseIdx hx
  · have hstanding : w.core.standing = v.watch.core.standing := by
      rw [hcore]
      rfl
    dsimp only
    rw [hstanding, hasked]
    refine h.books.enter (x := v.watch.core.standing (n, t)) ?_ ?_ ?_
    · exact List.mem_map_of_mem (List.mem_of_getElem? htask)
    · exact (List.eraseIdx_sublist tasks place).map _
    · -- the numbers of the turns in the queue are different
      obtain ⟨hlt, hget⟩ := List.getElem?_eq_some_iff.mp htask
      have hperm := (List.getElem_cons_eraseIdx_perm hlt).map Prod.fst
      rw [hget] at hperm
      have hdistinct := h.books.distinct
      rw [List.map_map] at hdistinct ⊢
      exact (List.nodup_cons.mp (hperm.nodup_iff.mpr hdistinct)).1
  · rw [hcore] at hc
    rw [(h.closed hc).1] at htask
    cases htask

theorem finishes (h : Kept v tasks (some (n, t))) {b : Bool}
    (hd : d = { v.watch.core with history := d.history, active := none })
    (hw : w.Seen d v.watch.queue none v.watch.asked) (hb : b = true → v.watch.core.isCancelled t = true)
    (hspared : b = false → ¬ Overtaken v.log n) : Kept ⟨w, false, v.log ++ [.ended n b]⟩ tasks none := by
  obtain ⟨rfl, hqueue, hactive, hasked⟩ := hw
  have hstanding : w.core.standing = v.watch.core.standing := by
    rw [hd]
    rfl
  refine ⟨?_, hqueue.trans h.queue, ?_, hactive, ?_, fun x hx => ?_, ?_, nofun, fun hc => ⟨?_, rfl⟩⟩
  · rw [hd]
    exact h.session
  · rw [hd]
    exact h.turns
  · rw [hd]
    rfl
  · rw [hd]
    exact h.tokens x (List.mem_append_right _ hx)
  · dsimp only
    rw [hstanding, hasked]
    exact h.books.finish hb hspared
  · rw [hd] at hc
    exact (h.closed hc).1

/-- The turns are given up. -/
theorem drops (h : Kept v tasks holder)
    (hd : d = { v.watch.core with phase := d.phase, queue := [], active := none })
    (hw : w.Seen d [] none v.watch.asked) : Kept ⟨w, false, v.log⟩ [] none := by
  obtain ⟨rfl, hqueue, hactive, hasked⟩ := hw
  refine ⟨?_, hqueue, ?_, hactive, ?_, by simp, ?_, nofun, fun _ => ⟨rfl, rfl⟩⟩
  · rw [hd]
    exact h.session
  · rw [hd]
    rfl
  · rw [hd]
    rfl
  · dsimp only
    rw [hasked]
    exact h.books.drop

/-! ### Moves -/

/-- What is ordered is heard, cancels, or concerns no turn's place. -/
theorem ordered (h : Kept v tasks holder) {cmd : Command} (horder : v.watch.core.order mv = some cmd)
    (hcmd : v.watch.core.command cmd = (d, out)) (hmove : v.watch.core.move mv = some (d, out)) :
    ∃ tasks, Kept ⟨v.watch.take mv, v.awake && d.active.isSome, v.log ++ v.watch.onOrder cmd⟩
      tasks holder := by
  have hopen : v.watch.core.isOpen = true := by rw [Core.isOpen, Core.reading_of_order horder]
  have hawake : (v.awake && d.active.isSome) = true → v.awake = true :=
    fun ha => (Bool.and_eq_true_iff.mp ha).1
  have hseen (hactive : d.active.isSome = v.watch.core.active.isSome) :=
    Watch.seen_outside hmove (Core.isOutside_of_order horder) (hactive.trans h.isSome_active)
  rw [v.watch.core.heard_eq, horder] at hseen
  have hsilent (hd : v.watch.core.Still d) (hmute : ∀ message, cmd ≠ .userMessage message) :
      Kept ⟨v.watch.take mv, v.awake && d.active.isSome, v.log ++ []⟩ tasks holder := by
    have hw := hseen hd.isSome_active
    cases cmd with
    | userMessage message => exact absurd rfl (hmute message)
    | _ =>
      simp only [Option.map_none, Option.toList_none, List.append_nil] at hw ⊢
      exact h.still hw hd hawake
  cases cmd with
  | start p =>
    obtain ⟨s, hs⟩ := Option.isSome_iff_exists.mp h.session
    simp only [Core.command, Core.start, hs] at hcmd
    cases hcmd
    exact ⟨tasks, hsilent (.refl _) (by simp)⟩
  | userMessage message =>
    cases hcmd
    exact ⟨_, h.hears hopen (hseen rfl) hawake⟩
  | cancel =>
    cases hcmd
    have hw := hseen rfl
    simp only [Option.map_none, Option.toList_none, List.append_nil] at hw
    exact ⟨tasks, h.cancels (d := v.watch.core.cancel) hopen rfl hw hawake⟩
  | stop =>
    cases hcmd
    have hw := hseen rfl
    simp only [Option.map_none, Option.toList_none, List.append_nil] at hw
    exact ⟨tasks, h.cancels (d := v.watch.core.close) rfl rfl hw hawake⟩
  | cpResponse id result fault =>
    rw [Core.command_cpResponse] at hcmd
    have hstill := v.watch.core.still_resolve id (Core.outcome result fault)
    rw [hcmd] at hstill
    exact ⟨tasks, hsilent hstill (by simp)⟩

/-- So it is with what comes from outside but orders nothing. -/
theorem unordered (h : Kept v tasks holder) (horder : v.watch.core.order mv = none)
    (houtside : mv.isOutside = true) (hd : v.watch.core.Still d)
    (hmove : v.watch.core.move mv = some (d, out)) :
    Kept ⟨v.watch.take mv, v.awake && d.active.isSome, v.log ++ v.watch.happened d out mv⟩ tasks holder := by
  have hw := Watch.seen_outside hmove houtside (hd.isSome_active.trans h.isSome_active)
  have hauthor : v.watch.author mv = none := by cases mv <;> first | rfl | cases houtside
  rw [v.watch.core.heard_eq, horder] at hw
  rw [Watch.happened, horder, hauthor]
  simp only [Option.map_none, Option.toList_none, List.flatMap_nil, List.append_nil] at hw ⊢
  exact h.still hw hd fun ha => (Bool.and_eq_true_iff.mp ha).1

/-- Whatever move is made, what happens to turns is as the tokens say. -/
theorem moves (h : Kept v tasks holder) (hallow : v.allows mv = true)
    (hmove : v.watch.core.move mv = some (d, out)) :
    ∃ tasks holder, Kept ⟨v.watch.take mv, v.awake && d.active.isSome, v.log ++ v.watch.happened d out mv⟩
      tasks holder := by
  cases Core.made hmove with
  | ordered order =>
    obtain ⟨tasks, hk⟩ := h.ordered order rfl hmove
    rw [Watch.happened, order]
    exact ⟨tasks, holder, hk⟩
  | passed outside order => exact ⟨tasks, holder, h.unordered order outside (.refl _) hmove⟩
  | refused free queued session =>
    have hsession := h.session
    rw [session] at hsession
    cases hsession
  | @entered place t s free queued session =>
    obtain rfl := h.holder_eq_none free
    obtain ⟨n, htask, hqueued⟩ := h.task_eq queued
    have hasleep : v.awake = false := by
      rw [Bool.eq_false_iff]
      intro ha
      obtain ⟨x, hx, -⟩ := h.awake ha
      cases hx
    have hentered := h.enters htask (Watch.seen_enter hmove h.active hqueued rfl)
    refine ⟨tasks.eraseIdx place, some (n, t), ?_⟩
    simpa [Watch.happened, Core.order, Watch.author, Watch.onStep, hqueued, hasleep] using hentered
  | @searched t s active idle =>
    obtain ⟨n, rfl, hn⟩ := h.holder_eq active
    have hseen := Watch.seen_active hmove hn rfl (.inl rfl)
    have hstill := h.still hseen ⟨rfl, rfl, by rw [active]; rfl, rfl, rfl⟩ (a := v.awake) id
    refine ⟨tasks, some (n, t), ?_⟩
    simpa [Watch.happened, Core.order, Watch.author, Watch.onStep, hn] using hstill
  | quit active cancelled =>
    obtain ⟨n, rfl, hn⟩ := h.holder_eq active
    have hended := h.finishes (b := true) rfl (Watch.seen_end hmove hn rfl (.inl rfl)) (fun _ => cancelled)
      (by simp)
    refine ⟨tasks, none, ?_⟩
    simpa [Watch.happened, Core.order, Watch.author, Watch.onStep, hn] using hended
  | @spoke t input m active =>
    obtain ⟨n, rfl, hn⟩ := h.holder_eq active
    have hseen := Watch.seen_active hmove hn (by rw [active]; rfl) (.inr ⟨_, rfl⟩)
    have hstill := h.still hseen (.refl _) (a := v.awake) id
    have hworked := hstill.works (h.not_overtaken hallow) (a := v.awake)
    refine ⟨tasks, some (n, t), ?_⟩
    simpa [Watch.happened, Core.order, Watch.author, Watch.onStep, hn, active] using hworked
  | answered active =>
    obtain ⟨n, rfl, hn⟩ := h.holder_eq active
    have hended := h.finishes (b := false) rfl (Watch.seen_end hmove hn rfl (.inr ⟨_, rfl⟩)) (by simp)
      fun _ => h.not_overtaken hallow
    refine ⟨tasks, none, ?_⟩
    simpa [Watch.happened, Core.order, Watch.author, Watch.onStep, Core.usage, hn] using hended
  | failed active =>
    obtain ⟨n, rfl, hn⟩ := h.holder_eq active
    have hended := h.finishes (b := false) rfl (Watch.seen_end hmove hn rfl (.inr ⟨_, rfl⟩)) (by simp)
      fun _ => h.not_overtaken hallow
    refine ⟨tasks, none, ?_⟩
    simpa [Watch.happened, Core.order, Watch.author, Watch.onStep, hn] using hended
  | missed prefetch due =>
    exact ⟨tasks, holder, h.unordered rfl rfl (Core.still_fetched _ _ _) hmove⟩
  | forgot active due => exact ⟨tasks, holder, h.unordered rfl rfl (Core.still_run _ active) hmove⟩
  | ticked early => exact ⟨tasks, holder, h.unordered rfl rfl ⟨rfl, rfl, rfl, rfl, rfl⟩ hmove⟩
  | shut draining =>
    have hdropped := h.drops rfl (Watch.seen_wind hmove rfl)
    refine ⟨[], none, ?_⟩
    simpa [Watch.happened, Core.order, Watch.author] using hdropped
  | ended flushing =>
    obtain ⟨rfl, rfl⟩ := h.closed (by rw [Core.isOpen, flushing])
    have hqueue : v.watch.core.queue = [] := h.turns
    have hactive : v.watch.core.active = none := Option.map_eq_none_iff.mp h.turn
    have hdropped := h.drops (by dsimp only; rw [← hqueue, ← hactive]) (Watch.seen_wind hmove hactive)
    refine ⟨[], none, ?_⟩
    simpa [Watch.happened, Core.order, Watch.author, hactive] using hdropped

theorem wakes (h : Kept v tasks holder) (hwake : v.watch.core.mayWake = true) :
    Kept ⟨v.watch, true, v.log ++ (v.watch.active.map .worked).toList⟩ tasks holder := by
  obtain ⟨hgoes, hruns⟩ := Bool.and_eq_true_iff.mp hwake
  unfold Core.input? at hruns
  split at hruns
  · rename_i t input hactive
    obtain ⟨n, rfl, hn⟩ := h.holder_eq hactive
    rw [hn]
    refine h.works fun ho => ?_
    -- one that was overtaken is cancelled, and the runtime would have seen it
    have hcancelled : v.watch.core.isCancelled t = true := (h.books.active _ rfl).cancelled.mpr ho.cancelled
    simp [Core.isStopped, hactive, hcancelled] at hgoes
  · cases hruns

theorem take (h : Kept v tasks holder) (beat : Beat) : ∃ tasks holder, Kept (v.take beat) tasks holder := by
  unfold Vigil.take
  split
  · split
    · rename_i hwake
      exact ⟨tasks, holder, h.wakes hwake⟩
    · exact ⟨tasks, holder, h⟩
  · exact ⟨tasks, holder, { h with awake := nofun }⟩
  · split
    · rename_i hallow hmove
      exact h.moves hallow hmove
    · exact ⟨tasks, holder, h⟩

theorem play (h : Kept v tasks holder) (beats : List Beat) :
    ∃ tasks holder, Kept (v.play beats) tasks holder := by
  induction beats generalizing v tasks holder with
  | nil => exact ⟨tasks, holder, h⟩
  | cons beat rest ih =>
    obtain ⟨tasks, holder, hk⟩ := h.take beat
    exact ih hk

end Kept

/-! ### Turns that no cancel has reached -/

namespace Core

/-- A bridge on which nothing was ever cancelled. -/
def unspent (c : Core) : Core := { c with token := 0 }

theorem unspent_isCancelled (c : Core) (t : Turn) : c.unspent.isCancelled t = false := by
  simp [isCancelled, unspent]

/-- A turn that is not cancelled makes the moves that it would make if nothing had ever been cancelled. -/
theorem move_unspent (hmv : mv.isOutside = false)
    (hfree : ∀ t stage, c.active = some (t, stage) → c.isCancelled t = false) :
    c.move mv = (c.unspent.move mv).map fun (d, out) => ({ d with token := c.token }, out) := by
  obtain ⟨runner, timeout, clock, phase, session, prefetch, skills, history, token, calls, queue, active⟩ := c
  cases mv with
  | enter place =>
    rcases active with _ | ⟨t, stage⟩
    · simp only [move, enterAt]
      unfold unspent
      dsimp only
      cases queue[place]? with
      | none => rfl
      | some t => cases session <;> rfl
    · rfl
  | search => rcases active with _ | ⟨t, _ | _ | _⟩ <;> cases prefetch <;> rfl
  | quit =>
    rcases active with _ | ⟨t, stage⟩
    · rfl
    · have hkept := hfree t stage rfl
      cases stage <;> simp only [move, quit, unspent_isCancelled] <;> simp [unspent, hkept]
  | say m => rcases active with _ | ⟨t, _ | _ | _⟩ <;> rfl
  | finish result => rcases active with _ | ⟨t, _ | _ | _⟩ <;> cases result <;> rfl
  | wind =>
    cases phase with
    | reading => rfl
    | draining limit =>
      simp only [move, wind]
      unfold unspent
      dsimp only
      split
      · rfl
      · split <;> rfl
    | flushing limit =>
      simp only [move, wind]
      unfold unspent
      dsimp only
      split <;> rfl
    | ended => rfl
  | _ => cases hmv

theorem mayWake_unspent (hfree : ∀ t stage, c.active = some (t, stage) → c.isCancelled t = false) :
    c.mayWake = c.unspent.mayWake := by
  have hgoes : c.isStopped = false := by
    cases hactive : c.active with
    | none => rw [isStopped, hactive]; rfl
    | some x => simpa [isStopped, hactive] using hfree x.1 x.2 hactive
  have hnone : c.unspent.isStopped = false := by
    simp [isStopped, unspent_isCancelled]
  rw [mayWake, mayWake, hgoes, hnone]
  rfl

end Core

end Fleet.Bridge
