import Fleet.Proofs.Control.Conversation

/-!
How long a machine may be silent. Its loop ends when no heartbeat has come for the time that the settings
give, unless the machine goes or its connection is asked to close before that; nothing else that it sends
gains it time.
-/

namespace Fleet.Control

open Socket (hearWith handleWith)

variable {h g : Hub} {s s' : Socket} {m : Moment} {i j k : Nat} {c : Connection} {outcome : Except Fault Json}

/-! ### Whole runs -/

namespace Plane

variable {p q : Plane} {x : Happening} {xs : List Happening}

theorem onward_undergo (p : Plane) (x : Happening) :
    p.hub.connections.Onward (p.undergo x).hub.connections := by
  have hu := underwent_undergo p x
  generalize p.undergo x = q at hu
  cases hu with
  | served there hears heard quiet => exact Socket.hearWith_onward ..
  | turned t silent brings deaf => exact (went_take p t).onward deaf
  | missed silent quiet => exact .refl _

theorem given_undergo (p : Plane) (x : Happening) : (p.undergo x).hub.given = p.hub.given := by
  have hu := underwent_undergo p x
  generalize p.undergo x = q at hu
  cases hu with
  | served there hears heard quiet =>
    unfold hearWith
    split
    · rfl
    · exact (Socket.handleWith_same ..).1
  | turned t silent brings deaf => exact (went_take p t).given
  | missed silent quiet => rfl

theorem Tidy.undergo (hp : p.Tidy) (x : Happening) : (p.undergo x).Tidy := by
  have hu := underwent_undergo p x
  generalize p.undergo x = q at hu
  cases hu with
  | @served i j deadline s c t rest m outcome there hears heard quiet => exact hp.went there (hears.went m outcome)
  | turned t silent brings deaf => exact hp.step (went_take p t)
  | missed silent quiet => exact hp

theorem Tidy.fare (xs : List Happening) (hp : p.Tidy) : (fare xs p).Tidy := by
  induction xs generalizing p with
  | nil => exact hp
  | cons x rest ih => exact ih (hp.undergo x)

theorem given_fare (xs : List Happening) (p : Plane) : (fare xs p).hub.given = p.hub.given := by
  induction xs generalizing p with
  | nil => rfl
  | cons x rest ih => exact (ih _).trans (given_undergo p x)

/-! ### What a happening is to one socket -/

namespace Happening

def moment : Happening → Moment
  | .turn t => t.moment
  | .serve _ m _ => m

def clock (x : Happening) : Nat := x.moment.clock

end Happening

/-- What a happening is to one socket: the socket takes up a text, it goes on in another way, or it stands
where it was with what is brought to it. -/
inductive Touched (p : Plane) (x : Happening) (k : Nat) (s : Socket) : Prop
  | heard {j deadline : Nat} {c : Connection} {t : String} {rest : List Arrival} {outcome : Except Fault Json}
      (hears : s.Hears p.hub j deadline c t rest)
      (heard : p.heard? k x = some ⟨j, c.userId, x.clock, Frame.parse t, outcome⟩) (quiet : p.brings? k x = none)
      (becomes : p.undergo x =
        p.setSocket k (hearWith outcome { s with inbox := rest } x.moment j deadline c.userId t p.hub))
  | moved {s' : Socket} {g : Hub} (deaf : s.hears? p.hub = none) (next : s.next x.moment p.hub = some (s', g))
      (silent : p.heard? k x = none) (quiet : p.brings? k x = none) (becomes : p.undergo x = p.setSocket k (s', g))
  | stayed {r : Socket} (there : (p.undergo x).sockets[k]? = some r) (stage : r.stage = s.stage)
      (inbox : r.inbox = s.inbox ++ (p.brings? k x).toList) (silent : p.heard? k x = none)

/-- A turn that is no move of a socket's own leaves it where it is. -/
theorem touched_aside {t : Turn} (there : p.sockets[k]? = some s) (hact : t.act ≠ .move (.socket k)) :
    Touched p (.turn t) k s := by
  have silent : p.heard? k (.turn t) = none := by
    unfold heard?
    split
    · rename_i m i ht
      cases ht
      exact if_neg fun hi => hact (by rw [hi])
    · rename_i ht
      cases ht
    · rfl
  have hk := Nat.lt_of_lt_of_le (List.getElem?_eq_some_iff.mp there).1 (sockets_grow p t)
  have hr : (p.undergo (.turn t)).sockets[k]? = some _ := List.getElem?_eq_getElem hk
  cases found_take hr with
  | moved act there' next => exact absurd act hact
  | stayed there' stage inbox =>
    obtain rfl := Option.some.inj (there.symm.trans there')
    exact .stayed hr stage inbox silent
  | dialled absent quiet stage inbox =>
    rw [there] at absent
    cases absent

/-- A socket goes on if it can, by the text that is next if there is one. -/
theorem touched_move (there : p.sockets[k]? = some s) (m : Moment) :
    Touched p (.turn ⟨m, .move (.socket k)⟩) k s := by
  cases hh : s.hears? p.hub with
  | some y =>
    obtain ⟨j, user, frame⟩ := y
    obtain ⟨deadline, c, t, rest, hears, rfl, rfl⟩ := Socket.hears_of hh
    have heard : p.heard? k (.turn ⟨m, .move (.socket k)⟩) =
        some ⟨j, c.userId, m.clock, Frame.parse t, Socket.routed p.hub c.userId (Frame.parse t)⟩ := by
      simp only [heard?, ↓reduceIte, there, Option.bind_some, hh, Option.map_some]
    exact .heard hears heard rfl
      (by simp [undergo, take, move, there, hears.next_eq, hears.serve_eq, Happening.moment])
  | none =>
    have silent : p.heard? k (.turn ⟨m, .move (.socket k)⟩) = none := by simp [heard?, there, hh]
    cases hn : s.next m p.hub with
    | some y => exact .moved hh hn silent rfl (by simp [undergo, take, move, there, hn])
    | none =>
      have he : p.undergo (.turn ⟨m, .move (.socket k)⟩) = p := by simp [undergo, take, move, there, hn]
      exact .stayed (by rw [he, there]) rfl (List.append_nil _).symm silent

/-- A socket is served if a text is next. -/
theorem touched_serve (there : p.sockets[k]? = some s) (m : Moment) (outcome : Except Fault Json) :
    Touched p (.serve k m outcome) k s := by
  cases hh : s.hears? p.hub with
  | some y =>
    obtain ⟨j, user, frame⟩ := y
    obtain ⟨deadline, c, t, rest, hears, rfl, rfl⟩ := Socket.hears_of hh
    have heard : p.heard? k (.serve k m outcome) = some ⟨j, c.userId, m.clock, Frame.parse t, outcome⟩ := by
      simp only [heard?, ↓reduceIte, there, Option.bind_some, hh, Option.map_some]
    exact .heard hears heard rfl (by simp [undergo, there, hears.serve_eq, Happening.moment])
  | none =>
    have he : p.undergo (.serve k m outcome) = p := by simp [undergo, there, Socket.serve_deaf hh]
    exact .stayed (by rw [he, there]) rfl (List.append_nil _).symm (by simp [heard?, there, hh])

theorem touched (there : p.sockets[k]? = some s) (x : Happening) : Touched p x k s := by
  cases x with
  | turn t =>
    obtain ⟨m, act⟩ := t
    by_cases hact : act = .move (.socket k)
    · exact hact ▸ touched_move there m
    · exact touched_aside there hact
  | serve i m outcome =>
    by_cases hi : i = k
    · exact hi ▸ touched_serve there m outcome
    · refine .stayed (r := s) ?_ rfl (List.append_nil _).symm (if_neg hi)
      change ((p.sockets[i]?.bind fun s => (s.serve m outcome p.hub).map (p.setSocket i)).getD p).sockets[k]? =
        some s
      cases hs : p.sockets[i]?.bind fun s => (s.serve m outcome p.hub).map (p.setSocket i) with
      | none => exact there
      | some q =>
        obtain ⟨r, _, hq⟩ := Option.bind_eq_some_iff.mp hs
        obtain ⟨y, _, rfl⟩ := Option.map_eq_some_iff.mp hq
        exact (setSocket_ne hi y).trans there

end Plane

/-! ### What a loop meets -/

/-- What the loop of a live machine meets: something arrives, or its connection is asked to close. -/
inductive Signal where
  | came (x : Arrival)
  | dismissed
  deriving DecidableEq

namespace Signal

/-- Whether it ends the loop. -/
def stops : Signal → Bool
  | .came .close | .came .lost | .dismissed => true
  | _ => false

/-- Whether it is a well-formed heartbeat. -/
def beats : Signal → Bool
  | .came (.text t) =>
    match Frame.parse t with
    | .ok (.heartbeat _) => true
    | _ => false
  | _ => false

end Signal

/-- What arrives, of some signals with their times. -/
def arrivals (es : List (Nat × Signal)) : List Arrival :=
  es.filterMap fun e =>
    match e.2 with
    | .came x => some x
    | .dismissed => none

/-- What the texts among some signals say, and when. -/
def texts (es : List (Nat × Signal)) : List (Nat × Except Error Frame) :=
  es.filterMap fun e =>
    match e.2 with
    | .came (.text t) => some (e.1, Frame.parse t)
    | _ => none

/-- The time of the last heartbeat among some signals, or of the start of the loop. -/
def lastBeat (since : Nat) (es : List (Nat × Signal)) : Nat :=
  ((es.filter fun e => e.2.beats).getLast?.map Prod.fst).getD since

variable {es : List (Nat × Signal)} {since : Nat}

@[simp] theorem arrivals_append (es fs : List (Nat × Signal)) : arrivals (es ++ fs) = arrivals es ++ arrivals fs :=
  List.filterMap_append

@[simp] theorem texts_append (es fs : List (Nat × Signal)) : texts (es ++ fs) = texts es ++ texts fs :=
  List.filterMap_append

/-- All that arrives is what does. -/
theorem arrivals_came (now : Nat) (xs : List Arrival) : arrivals (xs.map fun a => (now, .came a)) = xs := by
  unfold arrivals
  rw [List.filterMap_map]
  exact List.filterMap_some

theorem lastBeat_concat (since : Nat) (es : List (Nat × Signal)) (e : Nat × Signal) :
    lastBeat since (es ++ [e]) = if e.2.beats then e.1 else lastBeat since es := by
  unfold lastBeat
  rw [List.filter_append]
  by_cases he : e.2.beats = true <;> simp [he]

theorem mem_arrivals {x : Arrival} : x ∈ arrivals es ↔ ∃ e ∈ es, e.2 = .came x := by
  unfold arrivals
  rw [List.mem_filterMap]
  refine exists_congr fun e => and_congr_right fun _ => ?_
  cases e.2 <;> simp

/-- Where nothing was dismissed, what waits first was met first. -/
theorem arrivals_eq_cons {x : Arrival} {rest : List Arrival} (hn : ∀ e ∈ es, e.2 ≠ .dismissed)
    (h : arrivals es = x :: rest) : ∃ t fs, es = (t, .came x) :: fs ∧ arrivals fs = rest := by
  cases es with
  | nil => cases h
  | cons e fs =>
    obtain ⟨t, y | _⟩ := e
    · simp only [arrivals, List.filterMap_cons, List.cons.injEq] at h
      obtain ⟨rfl, h⟩ := h
      exact ⟨t, fs, rfl, h⟩
    · exact absurd rfl (hn _ List.mem_cons_self)

/-- What a loop met until some time falls into what it dealt with by then, of which nothing ended it, and the
rest. -/
structure Dealt (upTo : Nat) (met : List (Nat × Signal)) (heard : List (Nat × Except Error Frame))
    (front rest : List (Nat × Signal)) : Prop where
  all : met = front ++ rest
  onward : ∀ e ∈ front, e.2.stops = false
  past : ∀ e ∈ front, e.1 ≤ upTo
  heard : heard = texts front

namespace Dealt

variable {upTo : Nat} {met front rest : List (Nat × Signal)} {heard : List (Nat × Except Error Frame)}
  {e : Nat × Signal}

theorem later {now : Nat} (hd : Dealt upTo met heard front rest) (h : upTo ≤ now) :
    Dealt now met heard front rest :=
  ⟨hd.all, hd.onward, fun e he => Nat.le_trans (hd.past e he) h, hd.heard⟩

theorem meets (hd : Dealt upTo met heard front rest) (more : List (Nat × Signal)) :
    Dealt upTo (met ++ more) heard front (rest ++ more) :=
  ⟨by rw [hd.all, List.append_assoc], hd.onward, hd.past, hd.heard⟩

theorem takes (hd : Dealt upTo met heard front (e :: rest)) (stops : e.2.stops = false) (past : e.1 ≤ upTo) :
    Dealt upTo met (heard ++ texts [e]) (front ++ [e]) rest := by
  refine ⟨by rw [hd.all, List.append_assoc]; rfl, fun f hf => ?_, fun f hf => ?_, by rw [hd.heard, texts_append]⟩
  · rcases List.mem_append.mp hf with hf | hf
    · exact hd.onward f hf
    · exact List.mem_singleton.mp hf ▸ stops
  · rcases List.mem_append.mp hf with hf | hf
    · exact hd.past f hf
    · exact List.mem_singleton.mp hf ▸ past

end Dealt

/-- What a text says that was taken up, and when it was. -/
def Heard.stamped (y : Heard) : Nat × Except Error Frame := (y.clock, y.frame)

/-- What taking up a text does beside the socket: its frame is handled if it is well-formed. -/
def Heard.effect (y : Heard) (m : Moment) (h : Hub) : Hub :=
  match y.frame with
  | .error _ => h
  | .ok f => handleWith y.outcome m y.connection y.user h f

/-! ### Moves of a live socket -/

namespace Socket

variable {deadline : Nat}

theorem next_live (stage : s.stage = .live j deadline) (found : h.connections.opened[j]? = some c) (m : Moment) :
    s.next m h = s.attend m j deadline c h := by
  simp only [next, stage, found, Option.bind_some]

/-- Only the end of its time moves a live socket to which nothing has come, and which was not asked to close. -/
theorem attend_none (hn : s.attend m j deadline c h = none) :
    c.closing = false ∧ s.inbox = [] ∧ m.clock < deadline := by
  unfold attend at hn
  split at hn
  · cases hn
  · rename_i hopen
    refine ⟨by simpa using hopen, ?_⟩
    cases hi : s.inbox with
    | nil =>
      simp only [hi] at hn
      split at hn
      · cases hn
      · exact ⟨rfl, Nat.lt_of_not_le ‹_›⟩
    | cons x rest => cases x <;> simp [hi] at hn

theorem attend_quiet (hopen : c.closing = false) (inbox : s.inbox = []) (hm : m.clock < deadline) :
    s.attend m j deadline c h = none := by
  simp [attend, hopen, inbox, Nat.not_le.mpr hm]

/-- A live socket that takes up no text passes over what is none, or leaves: because of what came or because it was
asked to close, or for silence. -/
inductive Passes (s : Socket) (m : Moment) (j deadline : Nat) (c : Connection) (h : Hub) : Socket → Hub → Prop
  | passed {rest : List Arrival} (opened : c.closing = false) (inbox : s.inbox = .other :: rest) :
      Passes s m j deadline c h { s with inbox := rest } h
  | dismissed (closing : c.closing = true) :
      Passes s m j deadline c h (s.leave j c .clean h).1 (s.leave j c .clean h).2
  | stopped {x : Arrival} {rest : List Arrival} (inbox : s.inbox = x :: rest)
      (stops : (Signal.came x).stops = true) :
      Passes s m j deadline c h (s.leave j c .clean h).1 (s.leave j c .clean h).2
  | late (due : deadline ≤ m.clock) :
      Passes s m j deadline c h (s.leave j c .timeout h).1 (s.leave j c .timeout h).2

theorem passes_attend (stage : s.stage = .live j deadline) (found : h.connections.opened[j]? = some c)
    (deaf : s.hears? h = none) (hn : s.attend m j deadline c h = some (s', g)) :
    s.Passes m j deadline c h s' g := by
  unfold attend at hn
  split at hn
  · cases hn
    exact .dismissed ‹_›
  · rename_i hopen
    replace hopen : c.closing = false := by simpa using hopen
    split at hn
    · rename_i t rest hi
      rw [Hears.hears? ⟨stage, hi, found, hopen⟩] at deaf
      cases deaf
    · rename_i rest hi
      cases hn
      exact .passed hopen hi
    · rename_i rest hi
      cases hn
      exact .stopped hi rfl
    · rename_i rest hi
      cases hn
      exact .stopped hi rfl
    · split at hn
      · cases hn
        exact .late ‹_›
      · cases hn

/-- Only a well-formed heartbeat moves the deadline. -/
theorem hearWith_stage (stage : s.stage = .live j deadline) (outcome : Except Fault Json) (m : Moment)
    (user t : String) (h : Hub) : (hearWith outcome s m j deadline user t h).1.stage = .live j
      (if (Signal.came (.text t)).beats then m.clock + h.settings.ws.heartbeatTimeout else deadline) := by
  unfold hearWith
  split
  · rename_i e he
    simp [Signal.beats, he, stage]
  · rename_i f hf
    cases f <;> simp [Signal.beats, hf]

/-- Whether its loop is over. -/
def Stage.isOver : Stage → Bool
  | .leaving _ _ _ | .ended _ => true
  | _ => false

theorem next_over (finished : s.stage.isOver = true) (hn : s.next m h = some (s', g)) : s'.stage.isOver = true := by
  unfold next at hn
  cases stage : s.stage with
  | leaving i current ending =>
    simp only [stage] at hn
    obtain ⟨c, _, hn⟩ := Option.bind_eq_some_iff.mp hn
    split at hn
    · cases hn
      rfl
    · cases hn
  | ended ending => simp [stage] at hn
  | _ =>
    rw [stage] at finished
    cases finished

end Socket
/-! ### One loop with all that goes on around it -/

namespace Plane

variable {p : Plane} {x : Happening} {xs : List Happening} {since now due timeout : Nat}
  {met front rest : List (Nat × Signal)} {heard : List (Nat × Except Error Frame)}

/-- How the loop of a socket ends, and when. -/
def left? (k : Nat) (p : Plane) (x : Happening) : Option (Nat × Ending) :=
  match p.sockets[k]?.map Socket.stage, (p.undergo x).sockets[k]?.map Socket.stage with
  | some (.live _ _), some (.leaving _ _ ending) => some (x.clock, ending)
  | _, _ => none

/-- Whether a connection comes to be asked to close, but for its own loop that ends. -/
def dismisses (k j : Nat) (p : Plane) (x : Happening) : Bool :=
  (p.left? k x).isNone && !p.hub.connections.closing j && (p.undergo x).hub.connections.closing j

/-- What the loop of a socket meets on its connection. -/
def meets? (k j : Nat) (p : Plane) (x : Happening) : Option (Nat × Signal) :=
  match p.brings? k x with
  | some a => some (x.clock, .came a)
  | none => if p.dismisses k j x then some (x.clock, .dismissed) else none

/-- What a loop that starts now has met before. -/
def awaiting (k j now : Nat) (p : Plane) : List (Nat × Signal) :=
  (if p.hub.connections.closing j then [(now, .dismissed)] else []) ++
    ((p.sockets[k]?.map Socket.inbox).getD []).map fun a => (now, .came a)

/-- A socket has nothing to do for some time. -/
structure Idles (k now later : Nat) (p : Plane) : Prop where
  onward : now ≤ later
  idle : ∀ (s : Socket) (m : Moment), p.sockets[k]? = some s → now ≤ m.clock → m.clock < later →
    s.next m p.hub = none

/-- Over a run, time passes only while a socket has nothing to do: whatever it has to do takes none. -/
def Prompt (k : Nat) : Nat → Plane → List Happening → Prop
  | _, _, [] => True
  | now, p, x :: xs => p.Idles k now x.clock ∧ Prompt k x.clock (p.undergo x) xs

/-- The time at the end of a run. -/
def timeAfter (now : Nat) (xs : List Happening) : Nat := (xs.getLast?.map Happening.clock).getD now

theorem Prompt.concat (hp : Prompt k now p (xs ++ [x])) :
    Prompt k now p xs ∧ (fare xs p).Idles k (timeAfter now xs) x.clock := by
  induction xs generalizing now p with
  | nil => exact ⟨trivial, hp.1⟩
  | cons y rest ih =>
    obtain ⟨hy, hrest⟩ := hp
    obtain ⟨hrest, hx⟩ := ih hrest
    refine ⟨⟨hy, hrest⟩, ?_⟩
    have htime : timeAfter now (y :: rest) = timeAfter y.clock rest := by
      unfold timeAfter
      rw [List.getLast?_cons]
      cases rest.getLast? <;> rfl
    rw [htime]
    exact hx

/-- What is brought to a socket leaves all else as it is. -/
theorem hub_of_brings {a : Arrival} (hb : p.brings? k x = some a) : (p.undergo x).hub = p.hub := by
  cases x with
  | serve i m outcome => cases hb
  | turn t =>
    obtain ⟨m, act⟩ := t
    cases act with
    | arrive i y => rfl
    | _ => cases hb

theorem left?_of_live {r : Socket} {j deadline : Nat} (hr : (p.undergo x).sockets[k]? = some r)
    (stage : r.stage = .live j deadline) : p.left? k x = none := by
  unfold left?
  rw [hr, Option.map_some, stage]
  split
  · rename_i h
    cases h
  · rfl

theorem left?_of_over (there : p.sockets[k]? = some s) (finished : s.stage.isOver = true) :
    p.left? k x = none := by
  unfold left?
  rw [there, Option.map_some]
  split
  · rename_i h _
    rw [Option.some.inj h] at finished
    cases finished
  · rfl

theorem meets?_clock {e : Nat × Signal} (he : e ∈ (p.meets? k j x).toList) : e.1 = x.clock := by
  unfold meets? at he
  split at he
  · rw [List.mem_singleton.mp he]
  · split at he
    · rw [List.mem_singleton.mp he]
    · cases he

theorem arrivals_meets? (k j : Nat) (p : Plane) (x : Happening) :
    arrivals (p.meets? k j x).toList = (p.brings? k x).toList := by
  unfold meets?
  split
  · rename_i a ha
    rw [ha]
    rfl
  · rename_i hb
    rw [hb]
    split <;> rfl

/-- While a loop goes on, whether its connection was asked to close is what it has met. -/
theorem closing_meets? (left : p.left? k x = none) : (p.undergo x).hub.connections.closing j = true ↔
    p.hub.connections.closing j = true ∨ ∃ e ∈ (p.meets? k j x).toList, e.2 = .dismissed := by
  cases hb : p.brings? k x with
  | some a => simp [meets?, hb, hub_of_brings hb]
  | none =>
    have latch := (onward_undergo p x).latch (j := j)
    cases hp : p.hub.connections.closing j with
    | true => simp [latch hp]
    | false =>
      cases hq : (p.undergo x).hub.connections.closing j <;> simp [meets?, hb, dismisses, left, hp, hq]

/-- A loop goes on: what it met and has not dealt with waits, and its time is not over. -/
structure Living (k j due now : Nat) (rest : List (Nat × Signal)) (p : Plane) : Prop where
  there : ∃ s, p.sockets[k]? = some s ∧ s.stage = .live j due ∧ s.inbox = arrivals rest
  closing : p.hub.connections.closing j = true ↔ ∃ e ∈ rest, e.2 = .dismissed
  present : ∀ e ∈ rest, e.1 = now
  timely : now ≤ due

/-- A loop has ended, for silence when its time was over or before that because of what it met then. -/
structure Gone (k due ended : Nat) (ending : Ending) (now : Nat) (rest : List (Nat × Signal)) (p : Plane) :
    Prop where
  there : ∃ s, p.sockets[k]? = some s ∧ s.stage.isOver = true
  later : ∀ e ∈ rest, ended ≤ e.1
  past : ended ≤ now
  cause : (ending = .timeout ∧ ended = due) ∨
    (ending = .clean ∧ ended ≤ due ∧ ∃ e ∈ rest, e.1 = ended ∧ e.2.stops = true)

/-- Nothing waits for longer than no time, and no time passes after the deadline. -/
theorem Living.wait {later : Nat} (hl : Living k j due now rest p) (hp : p.Tidy) (m : Moment)
    (hi : p.Idles k now later) : Living k j due later rest p := by
  obtain ⟨s, there, stage, inbox⟩ := hl.there
  obtain ⟨c, found⟩ := (hp.fits there).found j (by simp [Socket.line?, stage])
  -- The socket is at rest at every time from now on.
  have rests (t : Nat) (ht : now ≤ t) (hlt : t < later) : c.closing = false ∧ s.inbox = [] ∧ t < due := by
    have hn := hi.idle s { m with clock := t } there ht hlt
    rw [Socket.next_live stage found] at hn
    exact Socket.attend_none hn
  rcases Nat.eq_or_lt_of_le hi.onward with rfl | hlt
  · exact hl
  · obtain ⟨hopen, hinbox, _⟩ := rests now (Nat.le_refl _) hlt
    refine ⟨hl.there, hl.closing, fun e he => ?_, Nat.le_of_not_lt fun hdue => ?_⟩
    · obtain ⟨t, a | _⟩ := e
      · have ha : a ∈ arrivals rest := mem_arrivals.mpr ⟨_, he, rfl⟩
        rw [← inbox, hinbox] at ha
        cases ha
      · have hclosing := hl.closing.mpr ⟨_, he, rfl⟩
        rw [Connections.closing_eq found, hopen] at hclosing
        cases hclosing
    · exact Nat.lt_irrefl _ (rests due hl.timely hdue).2.2

/-- A loop that goes on after a happening has met what the happening brought. -/
theorem Living.after {r : Socket} (hr : (p.undergo x).sockets[k]? = some r) (stage : r.stage = .live j due)
    (inbox : r.inbox = arrivals rest ++ (p.brings? k x).toList)
    (closing : p.hub.connections.closing j = true ↔ ∃ e ∈ rest, e.2 = .dismissed)
    (present : ∀ e ∈ rest, e.1 = x.clock) (timely : x.clock ≤ due) :
    Living k j due x.clock (rest ++ (p.meets? k j x).toList) (p.undergo x) := by
  refine ⟨⟨r, hr, stage, by rw [inbox, arrivals_append, arrivals_meets?]⟩, ?_, fun e he => ?_, timely⟩
  · rw [closing_meets? (left?_of_live hr stage), closing]
    simp only [List.mem_append, or_and_right, exists_or]
  · rcases List.mem_append.mp he with he | he
    · exact present e he
    · exact meets?_clock he

/-- What a loop met and heard, and how it ended if it did. -/
inductive Attended (k j since timeout now : Nat) (p : Plane) (met : List (Nat × Signal))
    (heard : List (Nat × Except Error Frame)) : List (Nat × Ending) → Prop
  | living {front rest : List (Nat × Signal)} (dealt : Dealt now met heard front rest)
      (lives : Living k j (lastBeat since front + timeout) now rest p) :
      Attended k j since timeout now p met heard []
  | gone {front rest : List (Nat × Signal)} {ended : Nat} {ending : Ending}
      (dealt : Dealt ended met heard front rest)
      (gone : Gone k (lastBeat since front + timeout) ended ending now rest p) :
      Attended k j since timeout now p met heard [(ended, ending)]

theorem setSocket_there {y : Socket × Hub} (there : p.sockets[k]? = some s)
    (becomes : p.undergo x = p.setSocket k y) : (p.undergo x).sockets[k]? = some y.1 :=
  becomes ▸ setSocket_self there y

theorem left?_of_leave {deadline : Nat} {ending : Ending} (there : p.sockets[k]? = some s)
    (stage : s.stage = .live j deadline) (becomes : p.undergo x = p.setSocket k (s.leave j c ending p.hub)) :
    p.left? k x = some (x.clock, ending) := by
  rw [left?, there, setSocket_there there becomes, Option.map_some, Option.map_some, stage]
  rfl

/-- A loop that is left has ended. -/
theorem Living.leaves {ending : Ending} (hl : Living k j due x.clock rest p) (there : p.sockets[k]? = some s)
    (stage : s.stage = .live j due) (becomes : p.undergo x = p.setSocket k (s.leave j c ending p.hub))
    (cause : (ending = .timeout ∧ x.clock = due) ∨
      (ending = .clean ∧ x.clock ≤ due ∧ ∃ e ∈ rest, e.2.stops = true)) :
    p.left? k x = some (x.clock, ending) ∧
    Gone k due x.clock ending x.clock (rest ++ (p.meets? k j x).toList) (p.undergo x) := by
  refine ⟨left?_of_leave there stage becomes, ⟨_, setSocket_there there becomes, rfl⟩, fun e he => ?_,
    Nat.le_refl _, cause.imp_right ?_⟩
  · rcases List.mem_append.mp he with he | he
    · exact Nat.le_of_eq (hl.present e he).symm
    · exact Nat.le_of_eq (meets?_clock he).symm
  · rintro ⟨hclean, hle, e, he, stops⟩
    exact ⟨hclean, hle, e, List.mem_append_left _ he, hl.present e he, stops⟩

/-- What came first, of a loop that is not asked to close, is dealt with. -/
theorem Living.first {a : Arrival} {later : List Arrival} (hl : Living k j due now rest p)
    (there : p.sockets[k]? = some s) (found : p.hub.connections.opened[j]? = some c) (opened : c.closing = false)
    (inbox : s.inbox = a :: later) :
    ∃ fs, rest = (now, .came a) :: fs ∧ arrivals fs = later ∧ (∀ e ∈ fs, e.1 = now) ∧
      (p.hub.connections.closing j = true ↔ ∃ e ∈ fs, e.2 = .dismissed) := by
  obtain ⟨r, hr, _, hinbox⟩ := hl.there
  obtain rfl := Option.some.inj (there.symm.trans hr)
  have hn : ¬ ∃ e ∈ rest, e.2 = .dismissed := by
    rw [← hl.closing, Connections.closing_eq found, opened]
    exact Bool.false_ne_true
  obtain ⟨t, fs, rfl, hfs⟩ := arrivals_eq_cons (fun e he hd => hn ⟨e, he, hd⟩) (hinbox.symm.trans inbox)
  obtain rfl : t = now := hl.present _ List.mem_cons_self
  exact ⟨fs, rfl, hfs, fun e he => hl.present e (List.mem_cons_of_mem _ he), by rw [hl.closing]; simp⟩

/-- A loop that goes on takes up a text, passes over what is none, ends, or goes on as it was. -/
theorem Living.step (hl : Living k j (lastBeat since front + p.hub.settings.ws.heartbeatTimeout) x.clock rest p)
    (hp : p.Tidy) (hd : Dealt x.clock met heard front rest) :
    Attended k j since p.hub.settings.ws.heartbeatTimeout x.clock (p.undergo x) (met ++ (p.meets? k j x).toList)
      (heard ++ ((p.heard? k x).map Heard.stamped).toList) (p.left? k x).toList := by
  obtain ⟨s, there, stage, inbox⟩ := hl.there
  cases touched there x with
  | @heard i deadline c t later outcome hears heard quiet becomes =>
    -- The text came first of what waits, so it joins the front; if it is a heartbeat, it is the last one.
    obtain ⟨rfl, rfl⟩ : i = j ∧ deadline = _ := by simpa [stage, eq_comm] using hears.stage
    obtain ⟨fs, rfl, hfs, present, closing⟩ := hl.first there hears.found hears.opened hears.inbox
    have hr := setSocket_there there becomes
    have hstage := Socket.hearWith_stage (s := { s with inbox := later }) stage outcome x.moment c.userId t p.hub
    rw [left?_of_live hr hstage, heard]
    have hd' := (hd.takes (e := (x.clock, .came (.text t))) rfl (Nat.le_refl _)).meets (p.meets? k i x).toList
    refine .living hd' (.after hr ?_ (by rw [Socket.hearWith_inbox, quiet, hfs]; simp) closing present ?_)
    · rw [hstage, lastBeat_concat]
      split <;> rfl
    · rw [lastBeat_concat]
      split
      · exact Nat.le_add_right _ _
      · exact hl.timely
  | @moved s' g deaf next silent quiet becomes =>
    -- A message that is passed over joins the front; where the loop is left, the cause is in the rest.
    obtain ⟨c, found⟩ := (hp.fits there).found j (by simp [Socket.line?, stage])
    rw [Socket.next_live stage found] at next
    rw [silent, Option.map_none, Option.toList_none, List.append_nil]
    have leaves {ending : Ending} (becomes : p.undergo x = p.setSocket k (s.leave j c ending p.hub))
        (cause : (ending = .timeout ∧ x.clock = lastBeat since front + p.hub.settings.ws.heartbeatTimeout) ∨
          (ending = .clean ∧ x.clock ≤ lastBeat since front + p.hub.settings.ws.heartbeatTimeout ∧
            ∃ e ∈ rest, e.2.stops = true)) :
        Attended k j since p.hub.settings.ws.heartbeatTimeout x.clock (p.undergo x)
          (met ++ (p.meets? k j x).toList) heard (p.left? k x).toList := by
      obtain ⟨hleft, hgone⟩ := hl.leaves there stage becomes cause
      rw [hleft]
      exact .gone (hd.meets _) hgone
    cases Socket.passes_attend stage found deaf next with
    | @passed later opened hinbox =>
      obtain ⟨fs, rfl, hfs, present, closing⟩ := hl.first there found opened hinbox
      have hr := setSocket_there there becomes
      have hd' := (hd.takes rfl (Nat.le_refl _)).meets (p.meets? k j x).toList
      rw [left?_of_live hr stage, ← List.append_nil heard]
      exact .living hd' (.after hr (by rw [lastBeat_concat]; exact stage) (by simp [quiet, hfs]) closing present
        (by rw [lastBeat_concat]; exact hl.timely))
    | dismissed hclosing =>
      obtain ⟨e, he, hdismissed⟩ := hl.closing.mp ((Connections.closing_eq found).trans hclosing)
      exact leaves becomes (.inr ⟨rfl, hl.timely, e, he, by rw [hdismissed]; rfl⟩)
    | @stopped a later hinbox stops =>
      obtain ⟨e, he, hcame⟩ := mem_arrivals.mp (inbox ▸ hinbox ▸ List.mem_cons_self)
      exact leaves becomes (.inr ⟨rfl, hl.timely, e, he, hcame ▸ stops⟩)
    | late hdue => exact leaves becomes (.inl ⟨rfl, Nat.le_antisymm hl.timely hdue⟩)
  | @stayed r hr hstage hinbox silent =>
    rw [left?_of_live hr (hstage.trans stage), silent, Option.map_none, Option.toList_none, Option.toList_none,
      List.append_nil]
    exact .living (hd.meets _)
      (.after hr (hstage.trans stage) (by rw [hinbox, inbox]) hl.closing hl.present hl.timely)

/-- A loop that has ended does nothing more. -/
theorem Gone.step {ended : Nat} {ending : Ending} (hg : Gone k due ended ending now rest p) (hi : now ≤ x.clock) :
    p.heard? k x = none ∧ p.left? k x = none ∧
    Gone k due ended ending x.clock (rest ++ (p.meets? k j x).toList) (p.undergo x) := by
  obtain ⟨s, there, finished⟩ := hg.there
  have silent : p.heard? k x = none ∧ ∃ r, (p.undergo x).sockets[k]? = some r ∧ r.stage.isOver = true := by
    cases touched there x with
    | heard hears heard quiet becomes =>
      rw [hears.stage] at finished
      cases finished
    | moved deaf next silent quiet becomes =>
      exact ⟨silent, _, setSocket_there there becomes, Socket.next_over finished next⟩
    | stayed hr stage inbox silent => exact ⟨silent, _, hr, stage ▸ finished⟩
  refine ⟨silent.1, left?_of_over there finished, silent.2, fun e he => ?_, Nat.le_trans hg.past hi,
    hg.cause.imp_right ?_⟩
  · rcases List.mem_append.mp he with he | he
    · exact hg.later e he
    · exact meets?_clock he ▸ Nat.le_trans hg.past hi
  · rintro ⟨hclean, hle, e, he, h⟩
    exact ⟨hclean, hle, e, List.mem_append_left _ he, h⟩

/-- Time passes first, as far as the loop lets it, and then the happening is dealt with. -/
theorem Attended.step {left : List (Nat × Ending)} (ha : Attended k j since timeout now p met heard left)
    (hp : p.Tidy) (ht : p.hub.settings.ws.heartbeatTimeout = timeout) (hi : p.Idles k now x.clock) :
    Attended k j since timeout x.clock (p.undergo x) (met ++ (p.meets? k j x).toList)
      (heard ++ ((p.heard? k x).map Heard.stamped).toList) (left ++ (p.left? k x).toList) := by
  subst ht
  cases ha with
  | living dealt lives => exact (lives.wait hp x.moment hi).step hp (dealt.later hi.onward)
  | gone dealt gone =>
    obtain ⟨hheard, hleft, hgone⟩ := gone.step hi.onward
    rw [hheard, hleft, Option.map_none, Option.toList_none, Option.toList_none, List.append_nil]
    exact .gone (dealt.meets _) hgone

theorem Attended.run (ha : Attended k j since timeout now p met [] []) (hp : p.Tidy)
    (ht : p.hub.settings.ws.heartbeatTimeout = timeout) (hxs : Prompt k now p xs) :
    Attended k j since timeout (timeAfter now xs) (fare xs p) (met ++ gathered (meets? k j) xs p)
      ((heardBy k xs p).map Heard.stamped) (gathered (left? k) xs p) := by
  induction xs using List.reverseRecOn with
  | nil => simpa [gathered, heardBy, fare, timeAfter] using ha
  | append_singleton xs x ih =>
    obtain ⟨hxs, hi⟩ := hxs.concat
    have ht' : (fare xs p).hub.settings.ws.heartbeatTimeout = timeout := by
      rw [← ht, show (fare xs p).hub.settings = p.hub.settings from congrArg Prod.fst (given_fare xs p)]
    have htime : timeAfter now (xs ++ [x]) = x.clock := by simp [timeAfter]
    rw [htime, fare_concat, heardBy, gathered_concat, gathered_concat, gathered_concat, List.map_append,
      ← List.append_assoc]
    have hs := (ih hxs).step (hp.fare xs) ht' hi
    rw [heardBy] at hs
    rw [← Option.toList_map]
    exact hs

/-- A machine that has been greeted begins its loop. -/
theorem Greets.begins (hp : p.Tidy) (hg : p.Greets k j) (m : Moment) :
    ∃ s, (p.undergo (.turn ⟨m, .move (.socket k)⟩)).sockets[k]? = some s ∧
      s.stage = .live j (m.clock + p.hub.settings.ws.heartbeatTimeout) := by
  obtain ⟨s, there, stage⟩ := hg
  obtain ⟨c, found⟩ := (hp.fits there).found j (by simp [Socket.line?, stage])
  have becomes : p.undergo (.turn ⟨m, .move (.socket k)⟩) = p.setSocket k (s.greet m j c p.hub) := by
    simp [undergo, take, move, there, Socket.next, stage, found]
  exact ⟨_, setSocket_there there becomes, rfl⟩

/-- A loop that begins has dealt with nothing. -/
theorem Living.begin (there : p.sockets[k]? = some s) (stage : s.stage = .live j due) (hdue : now ≤ due) :
    Living k j due now (p.awaiting k j now) p := by
  have hwaits : p.awaiting k j now = (if p.hub.connections.closing j then [(now, .dismissed)] else []) ++
      s.inbox.map fun a => (now, .came a) := by
    rw [awaiting, there]
    rfl
  refine ⟨⟨s, there, stage, ?_⟩, ?_, fun e he => ?_, hdue⟩
  · rw [hwaits, arrivals_append, arrivals_came]
    split <;> rfl
  · rw [hwaits]
    cases p.hub.connections.closing j <;> simp
  · rw [hwaits] at he
    rcases List.mem_append.mp he with he | he
    · split at he
      · rw [List.mem_singleton.mp he]
      · cases he
    · obtain ⟨a, _, rfl⟩ := List.mem_map.mp he
      rfl

/-- Where nothing waits, the next move of a loop whose time is over ends it. -/
theorem Living.falls_silent (hl : Living k j due now [] p) (hp : p.Tidy) {m : Moment} (hm : due ≤ m.clock) :
    p.left? k (.turn ⟨m, .move (.socket k)⟩) = some (m.clock, .timeout) := by
  obtain ⟨s, there, stage, inbox⟩ := hl.there
  obtain ⟨c, found⟩ := (hp.fits there).found j (by simp [Socket.line?, stage])
  have opened : c.closing = false := by
    rw [← Connections.closing_eq found, Bool.eq_false_iff]
    intro hclosing
    obtain ⟨e, he, _⟩ := hl.closing.mp hclosing
    cases he
  have hn : s.next m p.hub = some (s.leave j c .timeout p.hub) := by
    rw [Socket.next_live stage found]
    simp [Socket.attend, opened, inbox, arrivals, hm]
  exact left?_of_leave (c := c) there stage (by simp [undergo, take, move, there, hn])

/-- Only a socket that is there takes up a text. -/
theorem there_of_heard {y : Heard} (hy : p.heard? k x = some y) : ∃ s, p.sockets[k]? = some s := by
  have hu := underwent_undergo p x
  generalize p.undergo x = q at hu
  cases hu with
  | served there hears heard quiet =>
    rw [heard k] at hy
    split at hy
    · rename_i hi
      exact ⟨_, hi ▸ there⟩
    · cases hy
  | turned t silent brings deaf => rw [silent k] at hy; cases hy
  | missed silent quiet => rw [silent k] at hy; cases hy

/-- A text that is taken up is handled at once, if it is well-formed. -/
theorem hub_of_heard {y : Heard} (hy : p.heard? k x = some y) : (p.undergo x).hub = y.effect x.moment p.hub := by
  obtain ⟨s, there⟩ := there_of_heard hy
  cases touched there x with
  | @heard j deadline c t rest outcome hears heard quiet becomes =>
    rw [heard, Option.some.injEq] at hy
    subst hy
    rw [becomes]
    change (hearWith outcome _ x.moment j deadline c.userId t p.hub).2 = _
    unfold hearWith Heard.effect
    cases Frame.parse t <;> rfl
  | moved deaf next silent quiet becomes => rw [silent] at hy; cases hy
  | stayed hr stage inbox silent => rw [silent] at hy; cases hy

/-- The loop of a machine, of which nothing that it has to do takes time, ends for silence exactly when the
time that the settings give has passed since its last heartbeat or since it began, unless the machine goes or
its connection is asked to close before that, when it ends at that point. What it met before its end it has
dealt with: each text was taken up once, in its order and when it came, and what it says was handled if it is
well-formed. Nothing but a well-formed heartbeat moves the deadline. -/
theorem silence_ends_a_machine (settings : Settings.ControlPlane) (policy : Vm.Policy) (store : Vm.Store)
    (secrets : List (String × String)) (router : Router) (early late : List Happening) (k j : Nat) (m : Moment)
    (greets : (fare early (start settings policy store secrets router)).Greets k j)
    (prompt : Prompt k m.clock
      (fare (early ++ [.turn ⟨m, .move (.socket k)⟩]) (start settings policy store secrets router)) late) :
    let p := fare (early ++ [.turn ⟨m, .move (.socket k)⟩]) (start settings policy store secrets router)
    let now := timeAfter m.clock late
    ∃ front rest,
      p.awaiting k j m.clock ++ gathered (meets? k j) late p = front ++ rest ∧
      (∀ e ∈ front, e.2.stops = false) ∧
      (heardBy k late p).map Heard.stamped = texts front ∧
      (∀ before x y, (fare before p).heard? k x = some y →
        (fare (before ++ [x]) p).hub = y.effect x.moment (fare before p).hub) ∧
      let due := lastBeat m.clock front + settings.ws.heartbeatTimeout
      (gathered (left? k) late p = [] ∧ now ≤ due ∧ (∀ e ∈ front, e.1 ≤ now) ∧ (∀ e ∈ rest, e.1 = now) ∧
        (∃ s, (fare late p).sockets[k]? = some s ∧ s.stage = .live j due) ∧
        (rest = [] → ∀ n : Moment, due ≤ n.clock →
          (fare late p).left? k (.turn ⟨n, .move (.socket k)⟩) = some (n.clock, .timeout))) ∨
      ∃ ended ending, gathered (left? k) late p = [(ended, ending)] ∧ ended ≤ now ∧ (∀ e ∈ front, e.1 ≤ ended) ∧
        (∀ e ∈ rest, ended ≤ e.1) ∧
        ((ending = .timeout ∧ ended = due) ∨
          (ending = .clean ∧ ended ≤ due ∧ ∃ e ∈ rest, e.1 = ended ∧ e.2.stops = true)) := by
  intro p now
  have tidy : p.Tidy := (Tidy.start settings policy store secrets router).fare _
  have begun := greets.begins ((Tidy.start settings policy store secrets router).fare early) m
  rw [← fare_concat] at begun
  obtain ⟨s, there, stage⟩ := begun
  have hsettings (xs : List Happening) :
      (fare xs (start settings policy store secrets router)).hub.settings = settings :=
    congrArg Prod.fst (given_fare xs _)
  rw [hsettings early] at stage
  have nothing : Dealt m.clock (p.awaiting k j m.clock) [] [] (p.awaiting k j m.clock) := ⟨rfl, nofun, nofun, rfl⟩
  have begins : Attended k j m.clock settings.ws.heartbeatTimeout m.clock p (p.awaiting k j m.clock) [] [] :=
    .living nothing (.begin there stage (Nat.le_add_right _ _))
  have handled (before : List Happening) (x : Happening) (y : Heard) (hy : (fare before p).heard? k x = some y) :
      (fare (before ++ [x]) p).hub = y.effect x.moment (fare before p).hub := by
    rw [fare_concat]
    exact hub_of_heard hy
  have attended := begins.run tidy (by rw [hsettings]) prompt
  generalize hleft : gathered (left? k) late p = left at attended
  cases attended with
  | @living front rest dealt lives =>
    refine ⟨front, rest, dealt.all, dealt.onward, dealt.heard, handled, .inl ⟨rfl, lives.timely, dealt.past,
      lives.present, ?_, ?_⟩⟩
    · obtain ⟨s, there, stage, _⟩ := lives.there
      exact ⟨s, there, stage⟩
    · rintro rfl n hn
      exact lives.falls_silent (tidy.fare late) hn
  | @gone front rest ended ending dealt gone =>
    exact ⟨front, rest, dealt.all, dealt.onward, dealt.heard, handled,
      .inr ⟨ended, ending, rfl, gone.past, dealt.past, gone.later, gone.cause⟩⟩

/-! ### A machine that falls silent -/

/-- Whether no time passes, or the loop of a socket has nothing to do and its time is not over before. -/
def idles (k now later : Nat) (p : Plane) : Bool :=
  decide (now = later) || (decide (now ≤ later) &&
    match p.sockets[k]? with
    | some ⟨.live j deadline, [], _, _⟩ => !p.hub.connections.closing j && decide (later ≤ deadline)
    | _ => false)

theorem idles_of {later : Nat} (h : p.idles k now later = true) : p.Idles k now later := by
  unfold idles at h
  rw [Bool.or_eq_true, Bool.and_eq_true, decide_eq_true_iff, decide_eq_true_iff] at h
  obtain rfl | ⟨onward, h⟩ := h
  · exact ⟨Nat.le_refl _, fun _ _ _ hle hlt => absurd hlt (Nat.not_lt.mpr hle)⟩
  · refine ⟨onward, fun s m there _ hlt => ?_⟩
    split at h
    · rename_i j deadline written shut hs
      obtain rfl := Option.some.inj (hs.symm.trans there)
      rw [Bool.and_eq_true, Bool.not_eq_true', decide_eq_true_iff] at h
      obtain ⟨hopen, hle⟩ := h
      cases found : p.hub.connections.opened[j]? with
      | none => simp [Socket.next, found]
      | some c =>
        rw [Socket.next_live rfl found]
        exact Socket.attend_quiet ((Connections.closing_eq found).symm.trans hopen) rfl
          (Nat.lt_of_lt_of_le hlt hle)
    · cases h

def promptly (k : Nat) : Nat → Plane → List Happening → Bool
  | _, _, [] => true
  | now, p, x :: xs => p.idles k now x.clock && promptly k x.clock (p.undergo x) xs

theorem prompt_of_promptly (h : promptly k now p xs = true) : Prompt k now p xs := by
  induction xs generalizing now p with
  | nil => trivial
  | cons x rest ih =>
    rw [promptly, Bool.and_eq_true] at h
    exact ⟨idles_of h.1, ih h.2⟩

def greeted : List Happening := (numbered greetingAlice).map .turn

def momentAt (clock : Nat) : Moment := ⟨⟨⟨0, 0⟩, 0, "", "", .ok ()⟩, clock, "f"⟩

def happens (clock : Nat) (act : Act) : Happening := .turn ⟨momentAt clock, act⟩

/-- A machine sends a heartbeat, then something that is no text and a text that is malformed, and then nothing. -/
def fading : List Happening :=
  [happens 20000 (.arrive 0 (.text (Frame.heartbeat (some 1)).text)), happens 20000 (.move (.socket 0)),
    happens 49000 (.arrive 0 .other), happens 49000 (.move (.socket 0)),
    happens 49500 (.arrive 0 (.text "?")), happens 49500 (.move (.socket 0)),
    happens 50000 (.move (.socket 0))]

theorem machine_that_fades_times_out :
    let p := fare (greeted ++ [happens 5 (.move (.socket 0))]) opening
    gathered (left? 0) fading p = [(50000, .timeout)] ∧
    ∃ front rest, p.awaiting 0 0 5 ++ gathered (meets? 0 0) fading p = front ++ rest ∧
      (heardBy 0 fading p).map Heard.stamped = texts front ∧ 50000 = lastBeat 5 front + 30000 := by
  intro p
  have hleft : gathered (left? 0) fading p = [(50000, .timeout)] := by decide +kernel
  have hgreets : ((fare greeted opening).sockets[0]?.map Socket.stage) = some (.greeting 0) := by decide +kernel
  have hprompt : promptly 0 5 p fading = true := by decide +kernel
  obtain ⟨s, there, stage⟩ := Option.map_eq_some_iff.mp hgreets
  obtain ⟨front, rest, hmet, _, hheard, _, hend⟩ := silence_ends_a_machine {} ⟨{}, ⟨"secret", 600⟩⟩
    { keeping := .arrival } [] {} greeted fading 0 0 (momentAt 5) ⟨s, there, stage⟩ (prompt_of_promptly hprompt)
  refine ⟨hleft, front, rest, hmet, hheard, ?_⟩
  obtain ⟨hnone, _⟩ | ⟨ended, ending, hended, _, _, _, hcause⟩ := hend
  · cases hleft.symm.trans hnone
  · cases hleft.symm.trans hended
    obtain ⟨_, hdue⟩ | ⟨hclean, _⟩ := hcause
    · exact hdue
    · cases hclean

end Plane
end Fleet.Control
