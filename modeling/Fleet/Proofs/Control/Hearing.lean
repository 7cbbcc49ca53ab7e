import Fleet.Proofs.Control.Serving

/-!
What reaches a socket and what the socket takes up of it. The first text is what the machine is admitted
by, and each later one is heard in the order in which they came, with none passed over.
-/

namespace Fleet.Control

variable {h g : Hub} {s s' : Socket} {m : Moment} {i j k : Nat}

/-- What the texts among some arrivals say. -/
def said (xs : List Arrival) : List (Except Error Frame) :=
  xs.filterMap fun
    | .text t => some (Frame.parse t)
    | _ => none

@[simp] theorem said_text (t : String) (rest : List Arrival) :
    said (.text t :: rest) = Frame.parse t :: said rest := rfl

@[simp] theorem said_other (rest : List Arrival) : said (.other :: rest) = said rest := rfl

@[simp] theorem said_append (xs ys : List Arrival) : said (xs ++ ys) = said xs ++ said ys :=
  List.filterMap_append

/-! ### One socket -/

namespace Socket

/-- All that came is accounted for: the credentials of an admitted machine, the texts that were heard,
and those that wait. -/
structure Heeds (s : Socket) (came : List Arrival) (log : List Heard) : Prop where
  expecting : ∀ d, s.stage = .expecting d → said came = said s.inbox
  admitting : ∀ c, s.stage = .admitting c → said came = .ok (.auth c) :: said s.inbox
  line : ∀ j, s.line? = some j →
    ∃ c, said came = .ok (.auth c) :: (log.map Heard.frame ++ said s.inbox)

variable {came : List Arrival} {log : List Heard} {c : Connection} {deadline : Nat} {t : String}
  {rest : List Arrival} {outcome : Except Fault Json}

/-- Of a socket that has ended nothing is said. -/
theorem Heeds.of_ended {ending : Ending} (hs : s.stage = .ended ending) : s.Heeds came log := by
  refine ⟨?_, ?_, ?_⟩ <;> simp [line?, hs]

/-- A socket whose machine is admitted goes on with the texts that it had. -/
theorem Heeds.of_line (hs : s.Heeds came log) (line : s.line? = some i)
    (admitted : s'.stage.isNew = false) (inbox : said s'.inbox = said s.inbox) :
    s'.Heeds came log := by
  refine ⟨fun d hd => ?_, fun c hc => ?_, fun j _ => inbox ▸ hs.line i line⟩
  · simp [hd, Stage.isNew] at admitted
  · simp [hc, Stage.isNew] at admitted

/-- More comes, and waits. -/
theorem Heeds.arrive (hs : s.Heeds came log) (stage : s'.stage = s.stage) (more : List Arrival)
    (inbox : s'.inbox = s.inbox ++ more) : s'.Heeds (came ++ more) log := by
  have hline : s'.line? = s.line? := by
    unfold line?
    rw [stage]
  refine ⟨fun d hd => ?_, fun c hc => ?_, fun j hj => ?_⟩
  · rw [said_append, hs.expecting d (stage ▸ hd), inbox, said_append]
  · rw [said_append, hs.admitting c (stage ▸ hc), inbox, said_append, List.cons_append]
  · obtain ⟨c, hc⟩ := hs.line j (hline ▸ hj)
    refine ⟨c, ?_⟩
    rw [said_append, hc, inbox, said_append, List.cons_append, List.append_assoc]

/-- The first text decides whether there are credentials. -/
theorem Heeds.expect (hs : said came = Frame.parse t :: said rest) :
    ({ s with inbox := rest }.expect t).Heeds came log := by
  unfold Socket.expect
  split
  · exact .of_ended rfl
  · rename_i c hc
    rw [hc] at hs
    refine ⟨fun _ hd => (by cases hd), fun d hd => ?_, fun _ hj => (by cases hj)⟩
    cases hd
    exact hs
  · exact .of_ended rfl

/-- A live socket that takes up no text passes over none. -/
theorem Heeds.attend (hs : s.Heeds came log) (stage : s.stage = .live j deadline)
    (found : h.connections.opened[j]? = some c) (deaf : s.hears? h = none)
    (hn : s.attend m j deadline c h = some (s', g)) : s'.Heeds came log := by
  have hline : s.line? = some j := by simp [line?, stage]
  have leaves {ending : Ending} (hx : s.leave j c ending h = (s', g)) : s'.Heeds came log := by
    cases hx
    exact hs.of_line hline rfl rfl
  unfold Socket.attend at hn
  split at hn
  · exact leaves (Option.some.inj hn)
  · rename_i hopen
    split at hn
    · rename_i t rest hi
      have := Hears.hears? ⟨stage, hi, found, by simpa using hopen⟩
      rw [deaf] at this
      cases this
    · rename_i rest hi
      cases hn
      exact hs.of_line hline (by simp [stage, Stage.isNew]) (by rw [hi, said_other])
    · exact leaves (Option.some.inj hn)
    · exact leaves (Option.some.inj hn)
    · split at hn
      · exact leaves (Option.some.inj hn)
      · cases hn

/-- A socket that takes up no text passes over none, but for the one that admits it. -/
theorem Heeds.next (hs : s.Heeds came log) (new : s.stage.isNew = true → log = [])
    (deaf : s.hears? h = none) (hn : s.next m h = some (s', g)) : s'.Heeds came log := by
  unfold Socket.next at hn
  split at hn
  · rename_i d stage
    have hcame := hs.expecting d stage
    split at hn
    · rename_i t rest hi
      cases hn
      exact .expect (by rw [hcame, hi, said_text])
    · rename_i rest hi
      cases hn
      refine ⟨fun _ _ => by rw [hcame, hi, said_other], ?_, ?_⟩ <;> simp [line?, stage]
    · cases hn
      exact .of_ended rfl
    · cases hn
      exact .of_ended rfl
    · split at hn
      · cases hn
        exact .of_ended rfl
      · cases hn
  · rename_i c stage
    obtain rfl := new (by simp [stage, Stage.isNew])
    have hcame := hs.admitting c stage
    unfold enrol at hn
    split at hn
    · cases hn
      exact .of_ended rfl
    · cases hn
      exact ⟨fun _ hd => (by cases hd), fun _ hc => (by cases hc), fun _ _ => ⟨c, hcame⟩⟩
  · rename_i i stage
    obtain ⟨c, _, hn⟩ := Option.map_eq_some_iff.mp hn
    cases hn
    exact hs.of_line (i := i) (by simp [line?, stage]) rfl rfl
  · rename_i i deadline stage
    obtain ⟨c, found, hn⟩ := Option.bind_eq_some_iff.mp hn
    exact hs.attend stage found deaf hn
  · obtain ⟨c, _, hn⟩ := Option.bind_eq_some_iff.mp hn
    split at hn
    · cases hn
      exact .of_ended rfl
    · cases hn
  · cases hn

/-- A text that is taken up was the oldest that waited. -/
theorem Heeds.served (hs : s.Heeds came log) (hears : s.Hears h j deadline c t rest) (m : Moment)
    (outcome : Except Fault Json) :
    (hearWith outcome { s with inbox := rest } m j deadline c.userId t h).1.Heeds came
      (log ++ [⟨j, c.userId, m.clock, Frame.parse t, outcome⟩]) := by
  obtain ⟨d, stage, _⟩ := hears.stays m outcome
  have inbox : (hearWith outcome { s with inbox := rest } m j deadline c.userId t h).1.inbox = rest :=
    hearWith_inbox ..
  refine ⟨by simp [stage], by simp [stage], fun i hi => ?_⟩
  obtain ⟨credentials, hc⟩ := hs.line j (by simp [line?, hears.stage])
  refine ⟨credentials, ?_⟩
  rw [hc, inbox, hears.inbox, said_text, List.map_append, List.append_assoc]
  rfl

end Socket

/-! ### The sockets after a turn -/

namespace Plane

variable {p : Plane} {t : Turn}

/-- What a turn brings to a socket. -/
def arrival? (k : Nat) (p : Plane) (t : Turn) : Option Arrival :=
  match t.act with
  | .arrive i x => if i = k ∧ k < p.sockets.length then some x else none
  | _ => none

/-- A socket after a turn: it moved, or it stands where it was with what the turn brought, or its machine
has just dialled in. -/
inductive Found (p : Plane) (t : Turn) (k : Nat) (r : Socket) : Prop
  | moved {s : Socket} {g : Hub} (act : t.act = .move (.socket k)) (there : p.sockets[k]? = some s)
      (next : s.next t.moment p.hub = some (r, g))
  | stayed {s : Socket} (there : p.sockets[k]? = some s) (stage : r.stage = s.stage)
      (inbox : r.inbox = s.inbox ++ (p.arrival? k t).toList)
  | dialled (absent : p.sockets[k]? = none) (quiet : p.arrival? k t = none)
      (stage : ∃ d, r.stage = .expecting d) (inbox : r.inbox = [])

theorem found_take {r : Socket} (hr : (p.take t).sockets[k]? = some r) : Found p t k r := by
  obtain ⟨m, act⟩ := t
  -- Where nothing is brought, a socket that is as before stayed.
  have same (quiet : p.arrival? k ⟨m, act⟩ = none) (hs : p.sockets[k]? = some r) :
      Found p ⟨m, act⟩ k r := .stayed hs rfl (by simp [quiet])
  cases act with
  | move x =>
    cases hm : p.move m x with
    | none => exact same rfl (by simpa [take, hm] using hr)
    | some q =>
      replace hr : q.sockets[k]? = some r := by simpa [take, hm] using hr
      cases x with
      | socket i =>
        obtain ⟨s, there, hm⟩ := Option.bind_eq_some_iff.mp hm
        obtain ⟨⟨s', g⟩, next, rfl⟩ := Option.map_eq_some_iff.mp hm
        by_cases hi : i = k
        · subst hi
          obtain rfl := Option.some.inj ((setSocket_self there _).symm.trans hr)
          exact .moved rfl there next
        · exact same rfl ((setSocket_ne hi _).symm.trans hr)
      | write i =>
        obtain ⟨s, there, hm⟩ := Option.bind_eq_some_iff.mp hm
        obtain ⟨⟨s', g⟩, write, rfl⟩ := Option.map_eq_some_iff.mp hm
        by_cases hi : i = k
        · subst hi
          obtain rfl := Option.some.inj ((setSocket_self there _).symm.trans hr)
          have wrote : p.hub.Leads [] g ∧ _ := Socket.write_cases write
          obtain ⟨_, inbox, stage, _⟩ := wrote
          exact .stayed there stage (by simp [inbox, arrival?])
        · exact same rfl ((setSocket_ne hi _).symm.trans hr)
      | errand n => exact same rfl (sockets_moveErrand hm ▸ hr)
      | feed n => exact same rfl (sockets_moveFeed hm ▸ hr)
      | expire c =>
        simp only [move] at hm
        split at hm
        · cases hm
          exact same rfl hr
        · cases hm
  | accept =>
    replace hr : (p.accept m).sockets[k]? = some r := hr
    unfold accept at hr
    rcases Nat.lt_or_ge k p.sockets.length with hk | hk
    · exact same rfl ((List.getElem?_append_left hk).symm.trans hr)
    · rw [List.getElem?_append_right hk] at hr
      obtain rfl := List.mem_singleton.mp (List.mem_of_getElem? hr)
      exact .dialled (List.getElem?_eq_none hk) rfl ⟨_, rfl⟩ rfl
  | arrive i x =>
    replace hr : (p.arrive i x).sockets[k]? = some r := hr
    unfold arrive at hr
    rw [List.getElem?_modify] at hr
    obtain ⟨s, there, rfl⟩ := Option.map_eq_some_iff.mp hr
    have hk : k < p.sockets.length := (List.getElem?_eq_some_iff.mp there).1
    split
    · rename_i hi
      exact .stayed there rfl (by simp [arrival?, hi, hk])
    · rename_i hi
      exact .stayed there rfl (by simp [arrival?, hi])
  | visit e => exact same rfl hr
  | abandon n => exact same rfl (sockets_abandon p n ▸ hr)
  | force user org => exact same rfl hr
  | sweep timeoutMs => exact same rfl hr

end Plane
end Fleet.Control
