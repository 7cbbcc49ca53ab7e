import Fleet.Proofs.Control.Silence

/-!
Whether the heartbeats of a machine come in time. They are as far apart as the control plane asks for, or as the
machine's own settings say where it asks for nothing. Only what the control plane asks for is held against its
timeout, so a machine that is left to its own settings is heard in time only if these happen to fit.
-/

namespace Fleet.Machine

/-- A move of a machine that nothing is brought to: of its loop, with what its wall clock says, or of its writer. -/
structure Tick where
  clock : Nat
  wall? : Option Int

namespace Tick

def act (x : Tick) : Act :=
  match x.wall? with
  | some wall => .next x.clock wall
  | none => .write

/-- What the wall clock says has 64 bits. -/
def InRange (x : Tick) : Prop := (Frame.heartbeat x.wall?).InRange

end Tick

namespace Client

variable {c : Client} {period due now later : Nat}

/-- The frames that go out over some ticks, each with its time. -/
def sent : Client → List Tick → List (Nat × Frame)
  | _, [] => []
  | c, x :: xs => (c.posts x.act).map (x.clock, ·) ++ (c.take x.act).sent xs

/-- A machine has nothing to do for some time. -/
structure Rests (c : Client) (now later : Nat) : Prop where
  onward : now ≤ later
  loop : ∀ t wall, now ≤ t → t < later → c.next t wall = none
  writer : now < later → c.write = none

/-- Over some ticks, and after them until some time, time passes only while a machine has nothing to do. -/
def Prompt : Nat → Nat → Client → List Tick → Prop
  | now, later, c, [] => c.Rests now later
  | now, later, c, x :: xs => c.Rests now x.clock ∧ Prompt x.clock later (c.take x.act) xs

/-- A machine that was welcomed, that nothing is brought to and that is not asked to stop. -/
structure Undisturbed (c : Client) (period due : Nat) : Prop where
  live : ∃ began, c.stage = .live began period due
  alone : c.inbox = []
  wanted : c.stopping = false
  connected : c.connected = true

theorem Undisturbed.next_early (h : c.Undisturbed period due) (hlt : now < due) (wall : Int) :
    c.next now wall = none := by
  obtain ⟨began, stage⟩ := h.live
  simp [next, stage, h.wanted, h.alone, Nat.not_le.mpr hlt]

theorem Undisturbed.next_due (h : c.Undisturbed period due) (hle : due ≤ now) (wall : Int) :
    ∃ d, c.next now wall = some d ∧ d.Undisturbed period (now + period) ∧
      d.queue = c.queue ++ [.heartbeat (some wall)] := by
  obtain ⟨began, stage⟩ := h.live
  refine ⟨{ c with stage := .live began period (now + period), queue := c.queue ++ [.heartbeat (some wall)] },
    ?_, ⟨⟨began, rfl⟩, h.alone, h.wanted, h.connected⟩, rfl⟩
  simp [next, stage, h.wanted, h.alone, hle, send, h.connected]

theorem Rests.none (c : Client) (now : Nat) : c.Rests now now :=
  ⟨Nat.le_refl now, fun _ _ hle hlt => absurd hlt (Nat.not_lt.mpr hle), fun hlt => absurd hlt (Nat.lt_irrefl now)⟩

theorem Undisturbed.rests (h : c.Undisturbed period due) (hq : c.queue = []) (honward : now ≤ later)
    (hdue : later ≤ due) : c.Rests now later :=
  ⟨honward, fun _ wall _ hlt => h.next_early (Nat.lt_of_lt_of_le hlt hdue) wall, fun _ => by simp [write, hq]⟩

theorem Undisturbed.written (h : c.Undisturbed period due) {f : Frame} {rest : List Frame}
    (hq : c.queue = f :: rest) : (c.take .write).Undisturbed period due ∧ (c.take .write).queue = rest := by
  have hwrite : c.take .write = { c with queue := rest, written := c.written ++ [f] } := by simp [take, write, hq]
  rw [hwrite]
  exact ⟨⟨h.live, h.alone, h.wanted, h.connected⟩, rfl⟩

end Client

end Fleet.Machine

namespace Fleet.Control

open Machine (Client Tick)

/-! ### Heartbeats at their times -/

/-- The times of the heartbeats among some signals. -/
def beatTimes (es : List (Nat × Signal)) : List Nat := (es.filter fun e => e.2.beats).map Prod.fst

/-- Each of some times comes at most `gap` after the one before, and the end does after the last. -/
def Spaced (gap : Nat) : Nat → Nat → List Nat → Prop
  | since, later, [] => later ≤ since + gap
  | since, later, t :: ts => t ≤ since + gap ∧ Spaced gap t later ts

/-- Frames as the far end meets them. -/
def carried (fs : List (Nat × Frame)) : List (Nat × Signal) := fs.map fun e => (e.1, .came (.text e.2.text))

variable {gap since now later period : Nat} {ts us : List Nat}

theorem beatTimes_cons (e : Nat × Signal) (es : List (Nat × Signal)) :
    beatTimes (e :: es) = if e.2.beats then e.1 :: beatTimes es else beatTimes es := by
  by_cases he : e.2.beats = true <;> simp [beatTimes, he]

theorem beatTimes_append (es fs : List (Nat × Signal)) : beatTimes (es ++ fs) = beatTimes es ++ beatTimes fs := by
  simp [beatTimes]

theorem lastBeat_eq (since : Nat) (es : List (Nat × Signal)) :
    lastBeat since es = (beatTimes es).getLast?.getD since := by
  simp [lastBeat, beatTimes]

theorem Spaced.onward (h : Spaced gap since later (ts ++ us)) : Spaced gap (ts.getLast?.getD since) later us := by
  induction ts generalizing since with
  | nil => exact h
  | cons t ts ih =>
    rw [List.getLast?_cons, Option.getD_some]
    exact ih h.2

/-- Something comes before the gap is over. -/
theorem Spaced.soon (h : Spaced gap since later ts) {t : Nat} (hts : ∀ u ∈ ts, t ≤ u) (hlater : t ≤ later) :
    t ≤ since + gap := by
  cases ts with
  | nil => exact Nat.le_trans hlater h
  | cons u ts => exact Nat.le_trans (hts u List.mem_cons_self) h.1

theorem beats_heartbeat {ts : Option Int} (h : (Frame.heartbeat ts).InRange) :
    (Signal.came (.text (Frame.heartbeat ts).text)).beats = true := by
  simp only [Signal.beats, (Frame.wellFormed_heartbeat h).parse_eq]
  rfl

/-! ### A machine that is left alone -/

/-- The heartbeat that is to follow the one at `since` is due in time, or it is on its way. -/
inductive InTime (c : Client) (period since now : Nat) : Prop
  | waiting {due : Nat} (undisturbed : c.Undisturbed period due) (past : since ≤ now) (timely : now ≤ due)
      (soon : due ≤ since + period)
  | sending {wall : Int} (undisturbed : c.Undisturbed period (now + period)) (past : since ≤ now)
      (timely : now ≤ since + period) (queued : .heartbeat (some wall) ∈ c.queue)
      (range : (Frame.heartbeat (some wall)).InRange)

namespace InTime

variable {c : Client}

theorem now_le (h : InTime c period since now) : now ≤ since + period := by
  cases h with
  | waiting undisturbed past timely soon => exact Nat.le_trans timely soon
  | sending undisturbed past timely queued range => exact timely

/-- No time passes after a heartbeat is due, or while one is on its way. -/
theorem rest (h : InTime c period since now) (hr : c.Rests now later) : InTime c period since later := by
  rcases Nat.eq_or_lt_of_le hr.onward with rfl | hlt
  · exact h
  · cases h with
    | @waiting due undisturbed past timely soon =>
      refine .waiting undisturbed (Nat.le_trans past hr.onward) (Nat.le_of_not_lt fun hdue => ?_) soon
      obtain ⟨d, hd, _⟩ := undisturbed.next_due (Nat.le_refl due) 0
      rw [hr.loop due 0 timely hdue] at hd
      cases hd
    | sending undisturbed past timely queued range =>
      have hempty := hr.writer hlt
      cases hq : c.queue with
      | nil => rw [hq] at queued; cases queued
      | cons f rest => simp [Client.write, hq] at hempty

/-- The loop sends the heartbeat that is due, and nothing else. -/
theorem loop (h : InTime c period since now) (hperiod : 0 < period) {wall : Int}
    (hwall : (Frame.heartbeat (some wall)).InRange) : InTime (c.take (.next now wall)) period since now := by
  cases h with
  | @waiting due undisturbed past timely soon =>
    rcases Nat.eq_or_lt_of_le timely with rfl | hlt
    · obtain ⟨d, hd, hundisturbed, hqueue⟩ := undisturbed.next_due (Nat.le_refl now) wall
      rw [Client.take, hd]
      exact .sending hundisturbed past soon (hqueue ▸ List.mem_append_right _ List.mem_cons_self) hwall
    · rw [Client.take, undisturbed.next_early hlt]
      exact .waiting undisturbed past timely soon
  | sending undisturbed past timely queued range =>
    rw [Client.take, undisturbed.next_early (Nat.lt_add_of_pos_right hperiod)]
    exact .sending undisturbed past timely queued range

/-- A frame that goes out is the heartbeat that was on its way, or it was not. -/
theorem writer (h : InTime c period since now) {f : Frame} {rest : List Frame} (hq : c.queue = f :: rest) :
    InTime (c.take .write) period (if (Signal.came (.text f.text)).beats then now else since) now := by
  cases h with
  | @waiting due undisturbed past timely soon =>
    -- Whatever goes out now comes no earlier than the last heartbeat did, so the next one is still due in time.
    refine .waiting (undisturbed.written hq).1 ?_ timely ?_
    · split
      · exact Nat.le_refl now
      · exact past
    · split
      · exact Nat.le_trans soon (Nat.add_le_add_right past period)
      · exact soon
  | sending undisturbed past timely queued range =>
    obtain ⟨hundisturbed, hqueue⟩ := undisturbed.written hq
    split
    · exact .waiting hundisturbed (Nat.le_refl now) (Nat.le_add_right now period) (Nat.le_refl _)
    · rename_i hbeats
      rw [hq] at queued
      rcases List.mem_cons.mp queued with rfl | queued
      · exact absurd (beats_heartbeat range) hbeats
      · exact .sending hundisturbed past timely (hqueue ▸ queued) range

/-- A machine that moves when it has to, and that nothing is brought to, sends heartbeats that are no more than
its period apart. -/
theorem spaced (h : InTime c period since now) (hperiod : 0 < period) {ticks : List Tick}
    (hticks : c.Prompt now later ticks) (hrange : ∀ x ∈ ticks, x.InRange) :
    Spaced period since later (beatTimes (carried (c.sent ticks))) := by
  -- By induction on the ticks: each of them leaves the machine in time, counted from what has gone out by then.
  induction ticks generalizing c since now with
  | nil => exact (h.rest hticks).now_le
  | cons x xs ih =>
    obtain ⟨hrests, hxs⟩ := hticks
    obtain ⟨hx, hrange'⟩ := List.forall_mem_cons.mp hrange
    have hnow := h.rest hrests
    obtain ⟨clock, _ | wall⟩ := x
    · cases hq : c.queue with
      | nil =>
        have hidle : c.take .write = c := by simp [Client.take, Client.write, hq]
        have hsent : c.sent (⟨clock, none⟩ :: xs) = c.sent xs := by
          simp only [Client.sent, Tick.act, Client.posts, hq, hidle, List.take_nil, List.map_nil, List.nil_append]
        rw [hsent]
        exact ih hnow (hidle ▸ hxs) hrange'
      | cons f rest =>
        have hsent : carried (c.sent (⟨clock, none⟩ :: xs)) =
            (clock, .came (.text f.text)) :: carried ((c.take .write).sent xs) := by
          simp [Client.sent, Tick.act, Client.posts, hq, carried]
        have hrest := ih (hnow.writer hq) hxs hrange'
        rw [hsent, beatTimes_cons]
        split
        · rename_i hbeats
          rw [if_pos hbeats] at hrest
          exact ⟨hnow.now_le, hrest⟩
        · rename_i hbeats
          rw [if_neg hbeats] at hrest
          exact hrest
    · exact ih (hnow.loop hperiod hx) hxs hrange'

end InTime

/-! ### The loop that hears it -/

namespace Plane

variable {p : Plane} {k j timeout : Nat} {met : List (Nat × Signal)} {heard : List (Nat × Except Error Frame)}
  {left : List (Nat × Ending)}

/-- A loop does not end for silence while heartbeats come closer together than its timeout. -/
theorem Attended.not_silent (ha : Attended k j since timeout now p met heard left)
    (hmet : Spaced gap since now (beatTimes met)) (hgap : gap < timeout) : ∀ e ∈ left, e.2 ≠ .timeout := by
  cases ha with
  | living dealt lives => exact nofun
  | @gone front rest ended ending dealt gone =>
    intro e he
    obtain rfl := List.mem_singleton.mp he
    rcases gone.cause with ⟨_, hended⟩ | ⟨rfl, _⟩
    · -- What is left to deal with came when the loop ended or later, so no heartbeat filled the gap before that.
      rw [dealt.all, beatTimes_append] at hmet
      have hrest : ∀ t ∈ beatTimes rest, ended ≤ t := by
        intro t ht
        obtain ⟨e, he, rfl⟩ := List.mem_map.mp ht
        exact gone.later e (List.mem_filter.mp he).1
      have hsoon := hmet.onward.soon hrest gone.past
      rw [← lastBeat_eq] at hsoon
      omega
    · exact nofun

/-- A machine that has been admitted is told when its socket goes on. -/
theorem Greets.welcomes (hp : p.Tidy) (hg : p.Greets k j) (m : Moment) : ∃ c d,
    p.hub.connections.opened[j]? = some c ∧
    (p.undergo (.turn ⟨m, .move (.socket k)⟩)).hub.connections.opened[j]? = some d ∧
    d.outbox = c.outbox ++ [Socket.welcome p.hub c] := by
  obtain ⟨s, there, stage⟩ := hg
  obtain ⟨c, found⟩ := (hp.fits there).found j (by simp [Socket.line?, stage])
  obtain ⟨_, hwritable, _⟩ := (hp.fits there).greeting j c stage found
  have becomes : p.undergo (.turn ⟨m, .move (.socket k)⟩) = p.setSocket k (s.greet m j c p.hub) := by
    simp [undergo, take, move, there, Socket.next, stage, found]
  have hpush : (s.greet m j c p.hub).2.connections =
      p.hub.connections.change j fun _ => { c with outbox := c.outbox ++ [Socket.welcome p.hub c] } := by
    have hsend := Connections.send_of_writable (f := Socket.welcome p.hub c) found hwritable
    change (Socket.push (p.hub.perform (Vm.Work.markConnected m.vm.now c.userId)).2 j
      (Socket.welcome p.hub c)).connections = _
    unfold Socket.push
    rw [show (p.hub.perform (Vm.Work.markConnected m.vm.now c.userId)).2.connections = p.hub.connections from rfl,
      hsend]
  refine ⟨c, { c with outbox := c.outbox ++ [Socket.welcome p.hub c] }, found, ?_, rfl⟩
  rw [becomes]
  change (s.greet m j c p.hub).2.connections.opened[j]? = _
  rw [hpush]
  simp [Connections.change, found]

/-- The loop of a machine that has been admitted has dealt with nothing when it begins. -/
theorem Greets.attended (hp : p.Tidy) (hg : p.Greets k j) (m : Moment) :
    Attended k j m.clock p.hub.settings.ws.heartbeatTimeout m.clock (p.undergo (.turn ⟨m, .move (.socket k)⟩))
      ((p.undergo (.turn ⟨m, .move (.socket k)⟩)).awaiting k j m.clock) [] [] := by
  obtain ⟨s, there, stage⟩ := hg.begins hp m
  have nothing (waits : List (Nat × Signal)) : Dealt m.clock waits [] [] waits := ⟨rfl, nofun, nofun, rfl⟩
  exact .living (nothing _) (.begin there stage (Nat.le_add_right _ _))

/-- A machine that hears its welcome is up, and its first heartbeat is due after one period. -/
theorem hears_welcome {client : Client} {began deadline : Nat} {w : Welcome} (now : Nat) (wall : Int)
    (hw : (Frame.init w).InRange) (stage : client.stage = .greeting began deadline)
    (inbox : client.inbox = [.text (Frame.init w).text]) :
    ∃ live, client.next now wall = some live ∧ live.stage = .live began (client.period w) (now + client.period w) ∧
      live.inbox = [] ∧ live.stopping = client.stopping ∧ live.connected = true := by
  have hparse := (Frame.wellFormed_init hw).parse_eq
  refine ⟨({ client with inbox := [] } : Client).welcome began now { w with secrets := Json.ordered w.secrets },
    ?_, ?_⟩
  · simp only [Client.next, stage, inbox, Client.expect, hparse]
    rfl
  · unfold Client.welcome Client.announce
    split
    · exact ⟨rfl, rfl, rfl, rfl⟩
    · simp [Client.send, Client.connect]
      rfl

/-- Settings that are accepted leave time for a heartbeat that they ask for. -/
theorem interval_lt_timeout {settings : Settings.ControlPlane} (valid : settings.validate = .ok ()) :
    settings.ws.heartbeatInterval < settings.ws.heartbeatTimeout := by
  by_contra hlate
  by_cases hnever : settings.vm.maxAttempts = 0
  · rw [Settings.ControlPlane.validate, if_pos hnever] at valid
    cases valid
  · rw [Settings.ControlPlane.validate, if_neg hnever, if_pos (Nat.le_of_not_lt hlate)] at valid
    cases valid

/-- The period that a machine takes up is positive and less than the timeout of the control plane exactly when the
control plane asks for one, which its settings hold against the timeout, or the machine's own one is so. -/
theorem period_fits_iff {settings : Settings.ControlPlane} (valid : settings.validate = .ok ()) {client : Client}
    {w : Welcome} (hw : w.heartbeatIntervalMs = settings.ws.heartbeatInterval) :
    (0 < client.period w ∧ client.period w < settings.ws.heartbeatTimeout) ↔
      0 < settings.ws.heartbeatInterval ∨ (0 < client.settings.heartbeatInterval ∧
        client.settings.heartbeatInterval < settings.ws.heartbeatTimeout) := by
  have hlt := interval_lt_timeout valid
  unfold Client.period
  rw [hw]
  split <;> omega

/-- The heartbeats of a machine are more than no time apart, and less than the timeout of the control plane, exactly
when the control plane asks for a period or the machine's own settings happen to fit the timeout. A machine for which
they are is never taken for silent, if it is left alone, moves when it has to and each of its heartbeats is met when
it is sent. -/
theorem machine_beats_in_time_iff (settings : Settings.ControlPlane) (policy : Vm.Policy) (store : Vm.Store)
    (secrets : List (String × String)) (router : Router) (own : Settings.Machine)
    (valid : settings.validate = .ok ()) (range : settings.ws.heartbeatInterval < bitBound 64)
    (distinct : (secrets.map Prod.fst).Nodup) (early : List Happening) (k j : Nat) (m : Moment)
    (greets : (fare early (start settings policy store secrets router)).Greets k j) :
    let o := fare early (start settings policy store secrets router)
    let p := o.undergo (.turn ⟨m, .move (.socket k)⟩)
    ∃ c d, o.hub.connections.opened[j]? = some c ∧ p.hub.connections.opened[j]? = some d ∧
      let welcome : Frame := .init ⟨c.id, secrets, settings.ws.heartbeatInterval⟩
      d.outbox = c.outbox ++ [welcome] ∧
      ∀ (client : Client) (began deadline : Nat) (wall : Int), client.settings = own →
        client.stage = .greeting began deadline → client.inbox = [.text welcome.text] →
        ∃ live period, client.next m.clock wall = some live ∧
          live.stage = .live began period (m.clock + period) ∧
          ((0 < period ∧ period < settings.ws.heartbeatTimeout) ↔ 0 < settings.ws.heartbeatInterval ∨
            (0 < own.heartbeatInterval ∧ own.heartbeatInterval < settings.ws.heartbeatTimeout)) ∧
          (0 < period → period < settings.ws.heartbeatTimeout → client.stopping = false →
            ∀ (ticks : List Tick) (late : List Happening), (∀ x ∈ ticks, x.InRange) →
            live.Prompt m.clock (timeAfter m.clock late) ticks → Prompt k m.clock p late →
            beatTimes (p.awaiting k j m.clock ++ gathered (meets? k j) late p) =
              beatTimes (carried (live.sent ticks)) →
            ∀ e ∈ gathered (left? k) late p, e.2 ≠ .timeout) := by
  intro o p
  have tidy : o.Tidy := (Tidy.start settings policy store secrets router).fare early
  obtain ⟨hsettings, hsecrets⟩ : o.hub.settings = settings ∧ o.hub.secrets = secrets := by
    have hgiven : o.hub.given = (settings, policy, secrets) :=
      given_fare early (start settings policy store secrets router)
    exact ⟨congrArg Prod.fst hgiven, congrArg (·.2.2) hgiven⟩
  obtain ⟨c, d, found, found', houtbox⟩ := greets.welcomes tidy m
  have hwelcome : Socket.welcome o.hub c = .init ⟨c.id, secrets, settings.ws.heartbeatInterval⟩ := by
    rw [Socket.welcome, hsettings, hsecrets]
  rw [hwelcome] at houtbox
  refine ⟨c, d, found, found', houtbox, fun client began deadline wall hown stage inbox => ?_⟩
  obtain ⟨live, hnext, hlive, halone, hstopping, hconnected⟩ :=
    hears_welcome m.clock wall ⟨range, distinct⟩ stage inbox
  refine ⟨live, _, hnext, hlive, hown ▸ period_fits_iff valid rfl,
    fun hperiod hlt wanted ticks late hrange hticks hlate hmet => ?_⟩
  have undisturbed : live.Undisturbed _ _ := ⟨⟨began, hlive⟩, halone, hstopping.trans wanted, hconnected⟩
  have begun : InTime live _ m.clock m.clock :=
    .waiting undisturbed (Nat.le_refl _) (Nat.le_add_right _ _) (Nat.le_refl _)
  have hspaced := begun.spaced hperiod hticks hrange
  rw [← hmet] at hspaced
  have begins := greets.attended tidy m
  rw [hsettings] at begins
  have hsettings' : p.hub.settings = settings :=
    (congrArg Prod.fst (given_undergo o _)).trans hsettings
  have attended := begins.run (tidy.undergo _) (by rw [hsettings']) hlate
  exact attended.not_silent hspaced hlt

/-! ### A control plane that asks for no period -/

/-- A control plane that leaves the period to its machines. -/
def unasking (timeout : Nat) : Settings.ControlPlane :=
  { ws := { heartbeatInterval := 0, heartbeatTimeout := timeout } }

def unasked (id : String) : Frame := .init ⟨id, [], 0⟩

/-- A machine to which such a welcome has come. -/
def hearing (own : Settings.Machine) (id : String) : Client :=
  { settings := own, schedule := ({} : Machine.Reconnect).start, stage := .greeting 0 10000,
    inbox := [.text (unasked id).text] }

/-- The machine once it is up. -/
def beating (own : Settings.Machine) (id : String) : Client :=
  { hearing own id with
    inbox := []
    connectionId := some id
    connected := true
    stage := .live 0 own.heartbeatInterval (5 + own.heartbeatInterval) }

theorem next_hearing (own : Settings.Machine) (id : String) : (hearing own id).next 5 0 = some (beating own id) := by
  have hrange : (unasked id).InRange := ⟨Nat.two_pow_pos 64, .nil⟩
  simp only [hearing, Client.next, Client.expect, unasked, (Frame.wellFormed_init hrange).parse_eq]
  rfl

/-- The loop and the writer of a machine move at some times. -/
def beatsAt (times : List Nat) : List Tick := times.flatMap fun t => [⟨t, some t⟩, ⟨t, none⟩]

/-- A socket meets heartbeats at some times, and moves at once. -/
def metAt (times : List Nat) : List Happening := times.flatMap fun (t : Nat) =>
  [happens t (.arrive 0 (.text (Frame.heartbeat (some t)).text)), happens t (.move (.socket 0))]

/-- A machine whose own period is a third of the timeout is heard past the timeout. -/
theorem machine_with_its_own_period_is_heard :
    let o := fare greeted (start (unasking 30000) ⟨{}, ⟨"secret", 600⟩⟩ { keeping := .arrival } [] {})
    let p := o.undergo (.turn ⟨momentAt 5, .move (.socket 0)⟩)
    (unasking 30000).validate = .ok () ∧ o.sockets[0]?.map Socket.stage = some (.greeting 0) ∧
    ∀ e ∈ gathered (left? 0) (metAt [10005, 20005, 30005] ++ [happens 40000 (.move (.socket 0))]) p,
      e.2 ≠ .timeout := by
  intro o p
  have valid : (unasking 30000).validate = .ok () := by rfl
  have hgreets : o.sockets[0]?.map Socket.stage = some (.greeting 0) := by decide +kernel
  refine ⟨valid, hgreets, ?_⟩
  obtain ⟨s, there, stage⟩ := Option.map_eq_some_iff.mp hgreets
  obtain ⟨c, d, -, -, -, h⟩ := machine_beats_in_time_iff (unasking 30000) ⟨{}, ⟨"secret", 600⟩⟩
    { keeping := .arrival } [] {} {} valid (by decide) .nil greeted 0 0 (momentAt 5) ⟨s, there, stage⟩
  obtain ⟨live, period, hnext, hlive, -, heard⟩ := h (hearing {} c.id) 0 10000 0 rfl rfl rfl
  obtain rfl := Option.some.inj ((next_hearing {} c.id).symm.trans hnext)
  obtain rfl : 10000 = period := (Client.Stage.live.inj hlive).2.1
  refine heard (by decide) (by decide) rfl (beatsAt [10005, 20005, 30005]) _ ?_ ?_ ?_ ?_
  · simp [beatsAt, Tick.InRange, Frame.InRange]
  · exact ⟨Client.Undisturbed.rests ⟨⟨_, rfl⟩, rfl, rfl, rfl⟩ rfl (by decide) (Nat.le_refl _), .none _ _,
      Client.Undisturbed.rests ⟨⟨_, rfl⟩, rfl, rfl, rfl⟩ rfl (by decide) (Nat.le_refl _), .none _ _,
      Client.Undisturbed.rests ⟨⟨_, rfl⟩, rfl, rfl, rfl⟩ rfl (by decide) (Nat.le_refl _), .none _ _,
      Client.Undisturbed.rests ⟨⟨_, rfl⟩, rfl, rfl, rfl⟩ rfl (by decide) (by decide)⟩
  · exact prompt_of_promptly (by decide +kernel)
  · have hsent : (beating {} c.id).sent (beatsAt [10005, 20005, 30005]) =
        [10005, 20005, 30005].map fun (t : Nat) => (t, .heartbeat (some t)) := rfl
    rw [hsent]
    decide +kernel

/-- A machine whose own period is the one by default is taken for silent by a control plane that waits for five
seconds, though it is left alone and moves when it has to. One whose own period is no time beats without end. Both
the control plane's settings and the machines' are accepted. -/
theorem machine_with_its_own_period_times_out :
    let o := fare greeted (start (unasking 5000) ⟨{}, ⟨"secret", 600⟩⟩ { keeping := .arrival } [] {})
    let p := o.undergo (.turn ⟨momentAt 5, .move (.socket 0)⟩)
    let late := [happens 5005 (.move (.socket 0))]
    let env : Settings.Env := [("VM_USER_ID", "alice"), ("VM_TICKET", "ticket-0")]
    (unasking 5000).validate = .ok () ∧
    p.hub.connections.opened[0]?.map Connection.outbox = some [unasked "conn-4"] ∧
    (∃ own, Settings.Machine.ofEnv env = .ok own ∧
      ∃ live, (hearing own "conn-4").next 5 0 = some live ∧ live.stage = .live 0 10000 10005 ∧
        live.Prompt 5 5005 [] ∧ Prompt 0 5 p late ∧
        beatTimes (p.awaiting 0 0 5 ++ gathered (meets? 0 0) late p) = beatTimes (carried (live.sent [])) ∧
        gathered (left? 0) late p = [(5005, .timeout)]) ∧
    ∃ own, Settings.Machine.ofEnv (("VM_HEARTBEAT_INTERVAL_MS", "0") :: env) = .ok own ∧
      ∃ live, (hearing own "conn-4").next 5 0 = some live ∧ live.stage = .live 0 0 5 := by
  intro o p late env
  refine ⟨rfl, by decide +kernel, ⟨{ userId := "alice", ticket := "ticket-0" }, by decide +kernel, _,
    next_hearing _ _, rfl, ?_, ?_, by decide +kernel, by decide +kernel⟩,
    { userId := "alice", ticket := "ticket-0", heartbeatInterval := 0, requestTimeout := 0 }, by decide +kernel, _,
    next_hearing _ _, rfl⟩
  · exact Client.Undisturbed.rests ⟨⟨_, rfl⟩, rfl, rfl, rfl⟩ rfl (by decide) (by decide)
  · exact prompt_of_promptly (by decide +kernel)

end Plane

end Fleet.Control
