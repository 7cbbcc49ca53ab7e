import Fleet.Proofs.Control.Hearing

/-!
Conversations of machines with the whole control plane around them, in which the router may answer a
request in any way.
-/

namespace Fleet.Control

open Socket (hearWith)

variable {h g : Hub} {s s' : Socket} {j k : Nat}

/-- Requests that wait for a machine to answer are none of what it is told of its own calls. -/
theorem told_requestsOn (j : Nat) (more : List (Nat × Call)) :
    (requestsOn j more).filterMap told? = [] := by
  simp [requestsOn, told?]

/-- Where no frames of a connection's own are queued, nothing is told. -/
theorem Connections.Gains.told {own : Option Nat} {more : List (Nat × Call)} {s t : Connections}
    (hg : Gains own more s t) (hne : own ≠ some j) :
    (t.queued j).filterMap told? = (s.queued j).filterMap told? := by
  obtain ⟨added, hq, hadded⟩ := hg.queued j
  rw [hq, hadded hne, List.filterMap_append, told_requestsOn, List.append_nil]

namespace Socket

/-- Of its calls a machine has been told, or will be, what is due for the texts that were taken up, all
of them on one connection. -/
structure Abreast (s : Socket) (h : Hub) (log : List Heard) : Prop where
  new : s.stage.isNew = true → log = []
  heard : ∀ j, s.line? = some j → ∀ y ∈ log, y.connection = j
  told : ∀ j, s.line? = some j →
    (s.written ++ h.connections.queued j).filterMap told? = log.filterMap Heard.due?

variable {log : List Heard} {m : Moment} {outcome : Except Fault Json} {c : Connection}
  {deadline : Nat} {t : String} {rest : List Arrival}

theorem Abreast.keeps (hs : s.Abreast h log) (line : s'.line? = s.line?)
    (new : s'.stage.isNew = true → s.stage.isNew = true) (written : s'.written = s.written)
    (told : ∀ j, s.line? = some j →
      (g.connections.queued j).filterMap told? = (h.connections.queued j).filterMap told?) :
    s'.Abreast g log := by
  refine ⟨fun hn => hs.new (new hn), fun j hj => hs.heard j (line ▸ hj), fun j hj => ?_⟩
  rw [written, List.filterMap_append, told j (line ▸ hj), ← List.filterMap_append]
  exact hs.told j (line ▸ hj)

/-- A socket that takes up no text goes on as before. -/
theorem Went.abreast (hw : s.Went h s' g) (next : s.next m h = some (s', g))
    (deaf : s.hears? h = none) (fits : s.Fits h) (hs : s.Abreast h log) : s'.Abreast g log := by
  cases hw with
  | apart line line' new connections =>
    exact ⟨fun hn => hs.new (new hn).1, by simp [line'], by simp [line']⟩
  | enrolled id user org new stage written connections =>
    obtain ⟨d, hd, _, hout⟩ := enrolled_found connections
    obtain rfl := hs.new new
    refine ⟨fun _ => rfl, by simp, fun j hj => ?_⟩
    obtain rfl : h.connections.opened.length = j := by simpa [line?, stage] using hj
    rw [written, fits.new new, Connections.queued_eq hd, hout]
    rfl
  | @greeted j deadline c greets found stage written connections =>
    obtain ⟨_, hwritable, _⟩ := fits.greeting j c greets found
    refine hs.keeps (by simp [line?, stage, greets]) (by simp [stage, Stage.isNew]) written fun i hi => ?_
    obtain rfl : j = i := by simpa [line?, greets] using hi
    rw [connections, (push_queued found hwritable _).1, List.filterMap_append]
    exact List.append_nil _
  | lived lives stage written current gains =>
    obtain rfl := next_deaf lives stage next deaf
    exact hs.keeps (by simp [line?, stage, lives]) (by simp [stage, Stage.isNew]) written fun _ _ => rfl
  | @left j deadline c ending lives found stage written connections =>
    have silent : Connections.Silent h.connections g.connections := by
      rw [connections]
      exact ((Connections.silent_unregister _ _ _).trans (Connections.silent_failPending _ _)).trans
        (Connections.silent_close _ _)
    exact hs.keeps (by simp [line?, stage, lives]) (by simp [stage, Stage.isNew]) written
      fun _ _ => (silent.gains none).told (by simp)
  | finished leaves stage connections =>
    exact ⟨by simp [stage, Stage.isNew], by simp [line?, stage], by simp [line?, stage]⟩

theorem Wrote.abreast (hw : s.Wrote h s' g j) (hs : s.Abreast h log) : s'.Abreast g log := by
  have hline : s'.line? = s.line? := by
    unfold line?
    rw [hw.stage]
  refine ⟨fun hn => hs.new (hw.stage ▸ hn), fun i hi => hs.heard i (hline ▸ hi), fun i hi => ?_⟩
  rw [hline] at hi
  obtain rfl := Option.some.inj ((line?_of_connection? hw.line).symm.trans hi)
  rw [hw.frames]
  exact hs.told j hi

theorem Went.onward (hw : s.Went h s' g) (next : s.next m h = some (s', g)) (deaf : s.hears? h = none) :
    h.connections.Onward g.connections := by
  cases hw with
  | apart line line' new connections => exact connections ▸ .refl _
  | enrolled id user org new stage written connections =>
    rw [connections]
    exact (Connections.onward_connect ..).trans (Connections.onward_register ..)
  | greeted greets found stage written connections =>
    rw [connections]
    exact push_onward ..
  | lived lives stage written current gains =>
    obtain rfl := next_deaf lives stage next deaf
    exact .refl _
  | left lives found stage written connections =>
    rw [connections]
    exact ((Connections.onward_unregister ..).trans (Connections.onward_failPending ..)).trans
      (Connections.onward_close ..)
  | finished leaves stage connections => exact connections ▸ .refl _

/-- A text that is taken up comes to be noted, and what is due for it is told. -/
theorem Abreast.served (hs : s.Abreast h log) (hears : s.Hears h j deadline c t rest)
    (hm : h.connections.Manned) :
    (hearWith outcome { s with inbox := rest } m j deadline c.userId t h).1.Abreast
      (hearWith outcome { s with inbox := rest } m j deadline c.userId t h).2
      (log ++ [⟨j, c.userId, m.clock, Frame.parse t, outcome⟩]) := by
  have hj : s.line? = some j := by simp [line?, hears.stage]
  have served := hears.served hm m outcome
  obtain ⟨d, stage, written⟩ := hears.stays m outcome
  have line {i : Nat} (hi : (hearWith outcome { s with inbox := rest } m j deadline c.userId t h).1.line? =
      some i) : j = i := by simpa [line?, stage] using hi
  refine ⟨by simp [stage, Stage.isNew], fun i hi y hy => ?_, fun i hi => ?_⟩
  · obtain rfl := line hi
    rcases List.mem_append.mp hy with hy | hy
    · exact hs.heard j hj y hy
    · rw [List.mem_singleton.mp hy]
  · obtain rfl := line hi
    rw [written, List.filterMap_append, served.told, ← List.append_assoc, ← List.filterMap_append,
      hs.told j hj, List.filterMap_append]
    congr 1

end Socket

namespace Plane

/-- What happens: a turn, or a socket takes up a text to which the router gives this outcome if it is a
request. -/
inductive Happening where
  | turn (t : Turn)
  | serve (k : Nat) (m : Moment) (outcome : Except Fault Json)

def undergo (p : Plane) : Happening → Plane
  | .turn t => p.take t
  | .serve k m outcome =>
    (p.sockets[k]?.bind fun s => (s.serve m outcome p.hub).map (p.setSocket k)).getD p

def fare (xs : List Happening) (p : Plane) : Plane := xs.foldl undergo p

/-- The text that a socket takes up. -/
def heard? (k : Nat) (p : Plane) : Happening → Option Heard
  | .turn ⟨m, .move (.socket i)⟩ =>
    if i = k then
      (p.sockets[i]?.bind (Socket.hears? · p.hub)).map fun (j, user, frame) =>
        ⟨j, user, m.clock, frame, Socket.routed p.hub user frame⟩
    else none
  | .serve i m outcome =>
    if i = k then
      (p.sockets[i]?.bind (Socket.hears? · p.hub)).map fun (j, user, frame) =>
        ⟨j, user, m.clock, frame, outcome⟩
    else none
  | _ => none

/-- What is brought to a socket. -/
def brings? (k : Nat) (p : Plane) : Happening → Option Arrival
  | .turn t => p.arrival? k t
  | .serve _ _ _ => none

/-- What there is to note over a run, in its order. -/
def gathered {α : Type} (note? : Plane → Happening → Option α) : List Happening → Plane → List α
  | [], _ => []
  | x :: xs, p => (note? p x).toList ++ gathered note? xs (p.undergo x)

/-- The texts that a socket takes up over a run. -/
def heardBy (k : Nat) : List Happening → Plane → List Heard := gathered (heard? k)

/-- What is brought to a socket over a run. -/
def broughtTo (k : Nat) : List Happening → Plane → List Arrival := gathered (brings? k)

variable {p q : Plane} {x : Happening} {xs : List Happening} {log : List Heard} {came : List Arrival}

theorem fare_concat (xs : List Happening) (x : Happening) (p : Plane) :
    fare (xs ++ [x]) p = (fare xs p).undergo x := List.foldl_append

theorem gathered_concat {α : Type} (note? : Plane → Happening → Option α) (xs : List Happening)
    (x : Happening) (p : Plane) :
    gathered note? (xs ++ [x]) p = gathered note? xs p ++ (note? (fare xs p) x).toList := by
  induction xs generalizing p with
  | nil => simp [gathered, fare]
  | cons y rest ih =>
    rw [List.cons_append, gathered, gathered, ih, List.append_assoc]
    rfl

/-- What a happening is: a socket takes up a text, or something else does what a turn does, if
anything. -/
inductive Underwent (p : Plane) (x : Happening) : Plane → Prop
  | served {i j deadline : Nat} {s : Socket} {c : Connection} {t : String} {rest : List Arrival}
      {m : Moment} {outcome : Except Fault Json} (there : p.sockets[i]? = some s)
      (hears : s.Hears p.hub j deadline c t rest)
      (heard : ∀ k, p.heard? k x =
        if i = k then some ⟨j, c.userId, m.clock, Frame.parse t, outcome⟩ else none)
      (quiet : ∀ k, p.brings? k x = none) :
      Underwent p x
        (p.setSocket i (hearWith outcome { s with inbox := rest } m j deadline c.userId t p.hub))
  | turned (t : Turn) (silent : ∀ k, p.heard? k x = none)
      (brings : ∀ k, p.brings? k x = p.arrival? k t)
      (deaf : ∀ i s, t.act = .move (.socket i) → p.sockets[i]? = some s → s.hears? p.hub = none) :
      Underwent p x (p.take t)
  | missed (silent : ∀ k, p.heard? k x = none) (quiet : ∀ k, p.brings? k x = none) : Underwent p x p

theorem underwent_undergo (p : Plane) (x : Happening) : Underwent p x (p.undergo x) := by
  cases x with
  | turn t =>
    obtain ⟨m, act⟩ := t
    change Underwent p _ (p.take ⟨m, act⟩)
    by_cases hmove : ∃ i, act = .move (.socket i)
    · obtain ⟨i, rfl⟩ := hmove
      cases hh : p.sockets[i]?.bind (Socket.hears? · p.hub) with
      | none =>
        refine .turned _ (fun k => by simp only [heard?, hh, Option.map_none, ite_self])
          (fun _ => rfl) fun i' s hi hs => ?_
        cases hi
        simpa [hs] using hh
      | some y =>
        obtain ⟨s, there, hy⟩ := Option.bind_eq_some_iff.mp hh
        obtain ⟨j, user, frame⟩ := y
        obtain ⟨deadline, c, t, rest, hears, rfl, rfl⟩ := Socket.hears_of hy
        have he : p.take ⟨m, .move (.socket i)⟩ = p.setSocket i
            (hearWith (Socket.routed p.hub c.userId (Frame.parse t)) { s with inbox := rest } m j
              deadline c.userId t p.hub) := by
          simp [take, move, there, hears.next_eq, hears.serve_eq]
        rw [he]
        exact .served there hears (fun k => by simp only [heard?, hh, Option.map_some]) fun _ => rfl
    · refine .turned _ (fun k => ?_) (fun _ => rfl) fun i s hi => absurd ⟨i, hi⟩ hmove
      unfold heard?
      split
      · rename_i h
        cases h
        exact absurd ⟨_, rfl⟩ hmove
      · rename_i h
        cases h
      · rfl
  | serve i m outcome =>
    cases hh : p.sockets[i]?.bind (Socket.hears? · p.hub) with
    | none =>
      have he : p.undergo (.serve i m outcome) = p := by
        cases hs : p.sockets[i]? with
        | none => simp [undergo, hs]
        | some s =>
          rw [hs] at hh
          simp [undergo, hs, Socket.serve_deaf hh]
      rw [he]
      exact .missed (fun k => by simp only [heard?, hh, Option.map_none, ite_self]) fun _ => rfl
    | some y =>
      obtain ⟨s, there, hy⟩ := Option.bind_eq_some_iff.mp hh
      obtain ⟨j, user, frame⟩ := y
      obtain ⟨deadline, c, t, rest, hears, rfl, rfl⟩ := Socket.hears_of hy
      have he : p.undergo (.serve i m outcome) = p.setSocket i
          (hearWith outcome { s with inbox := rest } m j deadline c.userId t p.hub) := by
        simp [undergo, there, hears.serve_eq]
      rw [he]
      exact .served there hears (fun k => by simp only [heard?, hh, Option.map_some]) fun _ => rfl

/-- One socket and what it has heard, in a plane in which all is in order. -/
structure Even (k : Nat) (log : List Heard) (p : Plane) : Prop where
  tidy : p.Tidy
  manned : p.hub.connections.Manned
  absent : p.sockets[k]? = none → log = []
  there : ∀ s, p.sockets[k]? = some s → s.Abreast p.hub log

theorem Even.start (settings : Settings.ControlPlane) (policy : Vm.Policy) (store : Vm.Store)
    (secrets : List (String × String)) (router : Router) :
    Even k [] (start settings policy store secrets router) :=
  ⟨.start settings policy store secrets router, nofun, fun _ => rfl, nofun⟩

/-- Beside the socket that goes on, the others stay as they are. -/
theorem Even.set {i : Nat} (hp : Even k log p) (hi : i ≠ k)
    (tidy : (p.setSocket i (s', g)).Tidy) (manned : g.connections.Manned)
    (gains : ∀ s j, p.sockets[k]? = some s → s.line? = some j →
      (g.connections.queued j).filterMap told? = (p.hub.connections.queued j).filterMap told?) :
    Even k log (p.setSocket i (s', g)) := by
  refine ⟨tidy, manned, ?_, ?_⟩
  · rw [setSocket_ne hi]
    exact hp.absent
  · rw [setSocket_ne hi]
    exact fun s hs => (hp.there s hs).keeps rfl id rfl (gains s · hs)

theorem sockets_grow (p : Plane) (t : Turn) : p.sockets.length ≤ (p.take t).sockets.length := by
  unfold take
  split
  · rename_i x _
    cases hm : p.move t.moment x with
    | none => exact Nat.le_refl _
    | some q =>
      rw [Option.getD_some]
      cases x with
      | socket i =>
        obtain ⟨s, _, hm⟩ := Option.bind_eq_some_iff.mp hm
        obtain ⟨y, _, rfl⟩ := Option.map_eq_some_iff.mp hm
        simp [setSocket]
      | write i =>
        obtain ⟨s, _, hm⟩ := Option.bind_eq_some_iff.mp hm
        obtain ⟨y, _, rfl⟩ := Option.map_eq_some_iff.mp hm
        simp [setSocket]
      | errand n => rw [sockets_moveErrand hm]
      | feed n => rw [sockets_moveFeed hm]
      | expire c =>
        simp only [move] at hm
        split at hm
        · cases hm
          exact Nat.le_refl _
        · cases hm
  · simp [accept]
  · simp [arrive]
  · exact Nat.le_refl _
  · rw [sockets_abandon]
  · exact Nat.le_refl _
  · exact Nat.le_refl _

theorem Went.onward {t : Turn} (hw : Went p t q)
    (deaf : ∀ i s, t.act = .move (.socket i) → p.sockets[i]? = some s → s.hears? p.hub = none) :
    p.hub.connections.Onward q.hub.connections := by
  cases hw with
  | socket act there next went given => exact went.onward next (deaf _ _ act there)
  | write there write wrote => exact Socket.write_onward write
  | beside sockets hub => exact hub.onward

theorem Even.turned {t : Turn} (hp : Even k log p)
    (deaf : ∀ i s, t.act = .move (.socket i) → p.sockets[i]? = some s → s.hears? p.hub = none) :
    Even k log (p.take t) := by
  have hw := went_take p t
  have tidy := hp.tidy.step hw
  have manned := (hw.onward deaf).manned hp.manned
  have grow := sockets_grow p t
  generalize p.take t = q at *
  cases hw with
  | @socket i s s' g act there next went given =>
    by_cases hi : i = k
    · subst hi
      refine ⟨tidy, manned, fun hn => ?_, fun r hr => ?_⟩
      · rw [setSocket_self there] at hn
        cases hn
      · obtain rfl := Option.some.inj ((setSocket_self there _).symm.trans hr)
        exact went.abreast next (deaf i s act there) (hp.tidy.fits there) (hp.there s there)
    · exact hp.set hi tidy manned fun r j hr hj =>
        went.gains.told fun he => hi (hp.tidy.alone there hr he hj)
  | @write i j s s' g there write wrote =>
    by_cases hi : i = k
    · subst hi
      refine ⟨tidy, manned, fun hn => ?_, fun r hr => ?_⟩
      · rw [setSocket_self there] at hn
        cases hn
      · obtain rfl := Option.some.inj ((setSocket_self there _).symm.trans hr)
        exact wrote.abreast (hp.there s there)
    · refine hp.set hi tidy manned fun r j' hr hj => ?_
      have hne : j' ≠ j := by
        rintro rfl
        exact hi (hp.tidy.alone there hr (Socket.line?_of_connection? wrote.line) hj)
      simp only [Connections.queued, wrote.others j' hne]
  | beside sockets hub =>
    obtain ⟨more, hg⟩ := hub.aside.gains
    refine ⟨tidy, manned, fun hn => hp.absent ?_, fun r hr => ?_⟩
    · rw [List.getElem?_eq_none_iff] at hn ⊢
      exact Nat.le_trans grow hn
    · cases sockets k r hr with
      | @old s there stage written =>
        have hline : r.line? = s.line? := by
          unfold Socket.line?
          rw [stage]
        exact (hp.there s there).keeps hline (fun hn => stage ▸ hn) written fun _ _ => hg.told (by simp)
      | new absent stage written =>
        obtain rfl := hp.absent absent
        have hline := Socket.line?_of_new stage
        exact ⟨fun _ => rfl, by simp [hline], by simp [hline]⟩

theorem Even.step (hp : Even k log p) (x : Happening) :
    Even k (log ++ (p.heard? k x).toList) (p.undergo x) := by
  have hu := underwent_undergo p x
  generalize p.undergo x = q at hu
  cases hu with
  | @served i j deadline s c t rest m outcome there hears heard quiet =>
    have went := hears.went m outcome
    have tidy := hp.tidy.went there went
    have manned := (Socket.hearWith_onward outcome { s with inbox := rest } m j deadline c.userId t p.hub).manned
      hp.manned
    rw [heard k]
    by_cases hi : i = k
    · subst hi
      rw [if_pos rfl]
      refine ⟨tidy, manned, fun hn => ?_, fun r hr => ?_⟩
      · rw [setSocket_self there] at hn
        cases hn
      · obtain rfl := Option.some.inj ((setSocket_self there _).symm.trans hr)
        exact (hp.there s there).served hears hp.manned
    · rw [if_neg hi, Option.toList_none, List.append_nil]
      exact hp.set hi tidy manned fun r j' hr hj =>
        went.gains.told fun he => hi (hp.tidy.alone there hr he hj)
  | turned t silent brings deaf =>
    rw [silent k, Option.toList_none, List.append_nil]
    exact hp.turned deaf
  | missed silent quiet =>
    rw [silent k, Option.toList_none, List.append_nil]
    exact hp

theorem Even.run (hp : Even k [] p) (xs : List Happening) : Even k (heardBy k xs p) (fare xs p) := by
  induction xs using List.reverseRecOn with
  | nil => exact hp
  | append_singleton xs x ih =>
    rw [fare_concat, heardBy, gathered_concat]
    exact ih.step x

/-- What was brought to one socket and what it has heard, in a plane. -/
structure Minds (k : Nat) (came : List Arrival) (log : List Heard) (p : Plane) : Prop where
  absent : p.sockets[k]? = none → came = []
  there : ∀ s, p.sockets[k]? = some s → s.Heeds came log

theorem Minds.turned {t : Turn} (hp : Minds k came log p) (he : Even k log p)
    (deaf : ∀ i s, t.act = .move (.socket i) → p.sockets[i]? = some s → s.hears? p.hub = none) :
    Minds k (came ++ (p.arrival? k t).toList) log (p.take t) := by
  refine ⟨fun hn => ?_, fun r hr => ?_⟩
  · have absent : p.sockets[k]? = none := by
      rw [List.getElem?_eq_none_iff] at hn ⊢
      exact Nat.le_trans (sockets_grow p t) hn
    have quiet : p.arrival? k t = none := by
      unfold arrival?
      split
      · exact if_neg fun h => Nat.not_lt.mpr (List.getElem?_eq_none_iff.mp absent) h.2
      · rfl
    rw [hp.absent absent, quiet, Option.toList_none, List.append_nil]
  · cases found_take hr with
    | @moved s g act there next =>
      have quiet : p.arrival? k t = none := by
        unfold arrival?
        rw [act]
      rw [quiet, Option.toList_none, List.append_nil]
      exact (hp.there s there).next (he.there s there).new (deaf k s act there) next
    | stayed there stage inbox => exact (hp.there _ there).arrive stage _ inbox
    | dialled absent quiet stage inbox =>
      obtain ⟨d, hd⟩ := stage
      rw [hp.absent absent, quiet]
      refine ⟨fun _ _ => by rw [inbox]; rfl, ?_, ?_⟩ <;> simp [Socket.line?, hd]

theorem Minds.step (hp : Minds k came log p) (he : Even k log p) (x : Happening) :
    Minds k (came ++ (p.brings? k x).toList) (log ++ (p.heard? k x).toList) (p.undergo x) := by
  have hu := underwent_undergo p x
  generalize p.undergo x = q at hu
  cases hu with
  | @served i j deadline s c t rest m outcome there hears heard quiet =>
    rw [heard k, quiet k, Option.toList_none, List.append_nil]
    by_cases hi : i = k
    · subst hi
      rw [if_pos rfl]
      refine ⟨fun hn => ?_, fun r hr => ?_⟩
      · rw [setSocket_self there] at hn
        cases hn
      · obtain rfl := Option.some.inj ((setSocket_self there _).symm.trans hr)
        exact (hp.there s there).served hears m outcome
    · rw [if_neg hi, Option.toList_none, List.append_nil]
      exact ⟨fun hn => hp.absent (setSocket_ne hi _ ▸ hn), fun r hr => hp.there r (setSocket_ne hi _ ▸ hr)⟩
  | turned t silent brings deaf =>
    rw [silent k, brings k, Option.toList_none, List.append_nil]
    exact hp.turned he deaf
  | missed silent quiet =>
    rw [silent k, quiet k, Option.toList_none, Option.toList_none, List.append_nil, List.append_nil]
    exact hp

theorem Minds.run (hp : Minds k [] [] p) (he : Even k [] p) (xs : List Happening) :
    Minds k (broughtTo k xs p) (heardBy k xs p) (fare xs p) := by
  induction xs using List.reverseRecOn with
  | nil => exact hp
  | append_singleton xs x ih =>
    rw [fare_concat, heardBy, broughtTo, gathered_concat, gathered_concat]
    exact ih.step (he.run xs) x

/-- A machine sends a text, which it is then served. -/
def sent (f : Frame) : List Act := [.arrive 0 (.text f.text), .move (.socket 0)]

/-- A machine makes a call, greets again, makes another call that the router answers in its own way,
and asks what became of the second and of one that it never made. -/
def twice : List Happening :=
  (numbered (greetingAlice ++ [.move (.socket 0)] ++ sent (.request ⟨"r1", "nothing", .null⟩) ++
    sent (.auth ⟨"alice", "", "", none⟩) ++
    [.arrive 0 (.text (Frame.request ⟨"r2", "nothing", .null⟩).text)])).map .turn ++
  [.serve 0 ⟨⟨⟨0, 0⟩, 0, "", "", .ok ()⟩, 20, "f"⟩ (.ok (.bool true))] ++
  (numbered (sent (.resume ["r2", "r3"]))).map .turn

/-- What is due for both calls and for the resumption. -/
def dueTwice : List Due :=
  [.reply (.ofOutcome "r1" (.error ⟨Code.methodNotFound, "Unknown method 'nothing'"⟩)),
    .reply (.ofOutcome "r2" (.ok (.bool true))), .recall ["r2", "r3"]]

end Plane
end Fleet.Control
