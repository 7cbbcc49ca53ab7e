import Fleet.Proofs.Control.Isolation
import Fleet.Proofs.Control.Lines
import Fleet.Proofs.Frame.RoundTrip
import Fleet.Proofs.Machine.Calls

/-!
What a machine is told first. Its connection is current from the moment it is admitted, and its
welcome is queued one move later; the calls made in between stand before the welcome, and a machine
that waits for the welcome passes them over.
-/

namespace Fleet.Control

open Connections (Gains)
open Socket (welcome)

/-- A connection gains the calls that are made on it, and nothing else. -/
structure Connections.Keeps (j : Nat) (more : List (Nat × Call)) (s t : Connections) : Prop where
  made : t.made = s.made ++ more
  kept : ∀ c, s.opened[j]? = some c → ∃ d, t.opened[j]? = some d ∧ d.id = c.id ∧
    d.writable = c.writable ∧ d.outbox = c.outbox ++ requestsOn j more

variable {h g : Hub} {s s' : Socket} {j k : Nat} {own : Option Nat} {more : List (Nat × Call)}
  {c d : Connection}

theorem Connections.Gains.keeps {s t : Connections} (hg : Gains own more s t) (hne : own ≠ some j) :
    s.Keeps j more t := by
  refine ⟨hg.made, fun c hc => ?_⟩
  obtain ⟨d, hd, hid, _, hw⟩ := hg.kept j c hc
  obtain ⟨added, hq, hown⟩ := hg.queued j
  rw [queued_eq hc, queued_eq hd, hown hne] at hq
  exact ⟨d, hd, hid, hw, hq⟩

namespace Socket

theorem welcome_eq (hg : g.given = h.given) (hid : d.id = c.id) : welcome g d = welcome h c := by
  simp only [Hub.given, Prod.mk.injEq] at hg
  simp only [welcome, hid, hg]

theorem line?_of_connection? (hj : s.connection? = some j) : s.line? = some j := by
  unfold connection? at hj
  unfold line?
  cases hs : s.stage <;> simp [hs] at hj ⊢ <;> exact hj

theorem not_new_of_line? (hj : s.line? = some j) : s.stage.isNew = false := by
  cases hn : s.stage.isNew with
  | false => rfl
  | true => rw [line?_of_new hn] at hj; cases hj

/-- What is on a socket and its connection until the welcome is queued. -/
structure Fits (h : Hub) (s : Socket) : Prop where
  new : s.stage.isNew = true → s.written = []
  found : ∀ j, s.line? = some j → ∃ c, h.connections.opened[j]? = some c
  greeting : ∀ j c, s.stage = .greeting j → h.connections.opened[j]? = some c →
    s.written = [] ∧ c.writable = true ∧ c.outbox = requestsOn j h.connections.made

theorem Fits.of_new (hn : s.stage.isNew = true) (hw : s.written = []) : s.Fits h := by
  refine ⟨fun _ => hw, fun j hj => ?_, fun j c hs => ?_⟩
  · rw [line?_of_new hn] at hj
    cases hj
  · rw [hs] at hn
    cases hn

/-- A socket fits on while its connection gains no more than calls. -/
theorem Fits.keeps (hf : s.Fits h) (hs : s'.stage = s.stage) (hw : s'.written = s.written)
    (hk : ∀ j, s.line? = some j → ∃ more, h.connections.Keeps j more g.connections) : s'.Fits g := by
  have hline : s'.line? = s.line? := by
    unfold line?
    rw [hs]
  refine ⟨fun hn => ?_, fun j hj => ?_, fun j d hst hd => ?_⟩
  · rw [hw]
    exact hf.new (hs ▸ hn)
  · rw [hline] at hj
    obtain ⟨c, hc⟩ := hf.found j hj
    obtain ⟨more, hk⟩ := hk j hj
    obtain ⟨d, hd, _⟩ := hk.kept c hc
    exact ⟨d, hd⟩
  · rw [hs] at hst
    have hj : s.line? = some j := by simp [line?, hst]
    obtain ⟨c, hc⟩ := hf.found j hj
    obtain ⟨more, hk⟩ := hk j hj
    obtain ⟨d', hd', _, hwr, ho⟩ := hk.kept c hc
    obtain rfl := Option.some.inj (hd'.symm.trans hd)
    obtain ⟨hwritten, hwc, hoc⟩ := hf.greeting j c hst hc
    exact ⟨hw.trans hwritten, hwr.trans hwc, by rw [ho, hoc, hk.made, requestsOn_append]⟩

/-- The connection of a machine that is admitted is new and empty. -/
theorem enrolled_found {s t : Connections} {id user org : String}
    (ht : t = (s.connect id user org).register s.opened.length) :
    ∃ d, t.opened[s.opened.length]? = some d ∧ d.writable = true ∧ d.outbox = [] := by
  have hs := Connections.silent_register (s.connect id user org) s.opened.length
  have hk : (s.connect id user org).Keeps s.opened.length [] _ := (hs.gains none).keeps nofun
  obtain ⟨d, hd, _, hw, ho⟩ := hk.kept { id := id, userId := user, orgId := org }
    (by simp [Connections.connect])
  exact ⟨d, ht ▸ hd, hw, ho⟩

/-- The line of a socket is the one it had, or it has just opened. -/
theorem Went.line (hw : s.Went h s' g) (hj : s'.line? = some j) :
    s.line? = some j ∨ j = h.connections.opened.length := by
  cases hw with
  | apart line line' new connections =>
    rw [line'] at hj
    cases hj
  | enrolled id user org new stage written connections =>
    refine .inr ?_
    simpa [line?, stage, eq_comm] using hj
  | greeted greets found stage written connections =>
    exact .inl (by simpa [line?, stage, greets] using hj)
  | lived lives stage written current gains => exact .inl (by simpa [line?, stage, lives] using hj)
  | left lives found stage written connections => exact .inl (by simpa [line?, stage, lives] using hj)
  | finished leaves stage connections => simp [line?, stage] at hj

theorem Went.fits (hw : s.Went h s' g) (hf : s.Fits h)
    (unmade : ∀ j, h.connections.opened[j]? = none → requestsOn j h.connections.made = []) :
    s'.Fits g := by
  have kept (j : Nat) (hj : s.line? = some j) : ∃ d, g.connections.opened[j]? = some d := by
    obtain ⟨c, hc⟩ := hf.found j hj
    obtain ⟨d, hd, _⟩ := hw.gains.kept j c hc
    exact ⟨d, hd⟩
  have later {j : Nat} (hline : s'.line? = some j) (hj : s.line? = some j)
      (hnot : ∀ i, s'.stage ≠ .greeting i) : s'.Fits g := by
    refine ⟨fun hn => ?_, fun i hi => kept i ?_, fun i _ hs => absurd hs (hnot i)⟩
    · rw [not_new_of_line? hline] at hn
      cases hn
    · rw [hj, ← hline, hi]
  cases hw with
  | apart line line' new connections =>
    refine ⟨fun hn => ?_, fun j hj => ?_, fun j c hs => ?_⟩
    · rw [(new hn).2]
      exact hf.new (new hn).1
    · rw [line'] at hj
      cases hj
    · simp [line?, hs] at line'
  | enrolled id user org new stage written connections =>
    obtain ⟨d, hd, hw, ho⟩ := enrolled_found connections
    refine ⟨fun hn => ?_, fun j hj => ?_, fun j c hs hc => ?_⟩
    · rw [stage] at hn
      cases hn
    · simp only [line?, stage, Option.some.injEq] at hj
      exact ⟨d, hj ▸ hd⟩
    · rw [stage, Stage.greeting.injEq] at hs
      subst hs
      obtain rfl := Option.some.inj (hd.symm.trans hc)
      have hmade : g.connections.made = h.connections.made := by
        rw [connections, (Connections.silent_register _ _).made]
        rfl
      refine ⟨written.trans (hf.new new), hw, ?_⟩
      rw [ho, hmade, unmade _ (List.getElem?_eq_none (Nat.le_refl _))]
  | greeted greets found stage written connections =>
    exact later (by simp [line?, stage]; rfl) (by simp [line?, greets]) fun i => by simp [stage]
  | lived lives stage written current gains =>
    exact later (by simp [line?, stage]; rfl) (by simp [line?, lives]) fun i => by simp [stage]
  | left lives found stage written connections =>
    exact later (by simp [line?, stage]; rfl) (by simp [line?, lives]) fun i => by simp [stage]
  | finished leaves stage connections =>
    refine ⟨fun hn => ?_, fun j hj => ?_, fun j _ hs => ?_⟩
    · rw [stage] at hn
      cases hn
    · simp [line?, stage] at hj
    · rw [stage] at hs
      cases hs

/-- A writer leaves all connections but its own as they are. -/
theorem Wrote.keeps {i : Nat} (hw : s.Wrote h s' g i) (hne : j ≠ i) :
    h.connections.Keeps j [] g.connections :=
  ⟨by simpa using hw.made, fun c hc => ⟨c, (hw.others j hne).trans hc, rfl, rfl, by simp [requestsOn, callsOn]⟩⟩

theorem Wrote.fits {i : Nat} (hw : s.Wrote h s' g i) : s'.Fits g := by
  have hstage : ∃ i', s'.connection? = some i' ∧ s'.line? = some i' := by
    have hc : s'.connection? = s.connection? := by
      unfold connection?
      rw [hw.stage]
    exact ⟨i, hc.trans hw.line, line?_of_connection? (hc.trans hw.line)⟩
  obtain ⟨i', hc, hl⟩ := hstage
  refine ⟨fun hn => ?_, fun j hj => ?_, fun j c hs => ?_⟩
  · rw [not_new_of_line? hl] at hn
    cases hn
  · have hi : s.line? = some j := by
      unfold line? at hj ⊢
      rwa [hw.stage] at hj
    obtain rfl := Option.some.inj (hi.symm.trans (line?_of_connection? hw.line))
    obtain ⟨_, d, _, hd, _⟩ := hw.found
    exact ⟨d, hd⟩
  · simp [connection?, hs] at hc

end Socket

/-! ### Planes -/

/-- A machine that waits for its welcome passes over a call. -/
theorem expect_request (machine : Machine.Client) (since now : Nat) {call : Call}
    (hf : (Frame.request call).WellFormed) :
    machine.expect since now (Frame.request call).text = machine := by
  unfold Machine.Client.expect
  rw [hf.parse_eq]
  rfl

namespace Plane

variable {p q o : Plane} {t : Turn} {turns : List Turn}

/-- No two sockets have one line, and no call was made on a connection before it opened. -/
structure Tidy (p : Plane) : Prop where
  fits : ∀ {k : Nat} {s : Socket}, p.sockets[k]? = some s → s.Fits p.hub
  alone : ∀ {k k' : Nat} {s s' : Socket} {j : Nat}, p.sockets[k]? = some s → p.sockets[k']? = some s' →
    s.line? = some j → s'.line? = some j → k = k'
  unmade : ∀ j, p.hub.connections.opened[j]? = none → requestsOn j p.hub.connections.made = []

theorem Tidy.start (settings : Settings.ControlPlane) (policy : Vm.Policy) (store : Vm.Store)
    (secrets : List (String × String)) (router : Router) :
    (start settings policy store secrets router).Tidy :=
  ⟨fun h => by simp [Plane.start] at h, fun h => by simp [Plane.start] at h, fun _ _ => rfl⟩

/-- A connection that was not open before has only what was called on it since. -/
theorem unmade_gains {s t : Connections} (hg : Gains own more s t) (hown : ∀ j, own = some j →
    ∃ c, s.opened[j]? = some c) (hs : ∀ j, s.opened[j]? = none → requestsOn j s.made = [])
    (j : Nat) (hj : t.opened[j]? = none) : requestsOn j t.made = [] := by
  have hsj : s.opened[j]? = none := by
    cases hc : s.opened[j]? with
    | none => rfl
    | some c =>
      obtain ⟨d, hd, _⟩ := hg.kept j c hc
      rw [hd] at hj
      cases hj
  obtain ⟨added, hq, hadded⟩ := hg.queued j
  rw [Connections.queued_of_none hj, Connections.queued_of_none hsj] at hq
  have hne : own ≠ some j := by
    intro he
    obtain ⟨c, hc⟩ := hown j he
    rw [hc] at hsj
    cases hsj
  rw [hg.made, requestsOn_append, hs j hsj, ← hadded hne]
  exact hq.symm

/-- Where one socket goes on, the others fit on. -/
theorem Tidy.set (hp : p.Tidy) (hs : p.sockets[k]? = some s) (hfits : s'.Fits g)
    (hline : ∀ j, s'.line? = some j → s.line? = some j ∨ p.hub.connections.opened[j]? = none)
    (hkeeps : ∀ j, s.line? ≠ some j → ∃ more, p.hub.connections.Keeps j more g.connections)
    (unmade : ∀ j, g.connections.opened[j]? = none → requestsOn j g.connections.made = []) :
    (p.setSocket k (s', g)).Tidy := by
  have other {i : Nat} {r : Socket} (hi : i ≠ k) (hr : p.sockets[i]? = some r) {j : Nat}
      (hj : r.line? = some j) : s.line? ≠ some j := fun he => hi (hp.alone hr hs hj he)
  have mine {i : Nat} {r : Socket} (hi : i ≠ k) (hr : p.sockets[i]? = some r) {j : Nat}
      (hj : r.line? = some j) (hj' : s'.line? = some j) : False := by
    rcases hline j hj' with he | hnone
    · exact other hi hr hj he
    · obtain ⟨c, hc⟩ := (hp.fits hr).found j hj
      rw [hnone] at hc
      cases hc
  have there {i : Nat} {r : Socket} (hr : (p.setSocket k (s', g)).sockets[i]? = some r) :
      (i = k ∧ r = s') ∨ (i ≠ k ∧ p.sockets[i]? = some r) := by
    by_cases hi : k = i
    · subst hi
      rw [setSocket_self hs] at hr
      exact .inl ⟨rfl, (Option.some.inj hr).symm⟩
    · rw [setSocket_ne hi] at hr
      exact .inr ⟨Ne.symm hi, hr⟩
  refine ⟨fun {i r} hr => ?_, fun {i i' r r' j} hr hr' hj hj' => ?_, unmade⟩
  · rcases there hr with ⟨_, rfl⟩ | ⟨hi, hr⟩
    · exact hfits
    · exact (hp.fits hr).keeps rfl rfl fun j hj => hkeeps j (other hi hr hj)
  · rcases there hr with ⟨rfl, rfl⟩ | ⟨hi, old⟩
    · rcases there hr' with ⟨rfl, _⟩ | ⟨hi', old'⟩
      · rfl
      · exact (mine hi' old' hj' hj).elim
    · rcases there hr' with ⟨rfl, rfl⟩ | ⟨hi', old'⟩
      · exact (mine hi old hj hj').elim
      · exact hp.alone old old' hj hj'

theorem Tidy.went (hp : p.Tidy) (there : p.sockets[k]? = some s) (went : s.Went p.hub s' g) :
    (p.setSocket k (s', g)).Tidy := by
  refine hp.set there (went.fits (hp.fits there) hp.unmade) (fun j hj => ?_)
    (fun j hne => ⟨[], went.gains.keeps hne⟩)
    (unmade_gains went.gains (hp.fits there).found hp.unmade)
  rcases went.line hj with hj | rfl
  · exact .inl hj
  · exact .inr (List.getElem?_eq_none (Nat.le_refl _))

theorem Tidy.step (hp : p.Tidy) (hw : Went p t q) : q.Tidy := by
  cases hw with
  | @socket k s s' g act there next went given => exact hp.went there went
  | @write k i s s' g there write wrote =>
    have hi := Socket.line?_of_connection? wrote.line
    refine hp.set there wrote.fits (fun j hj => .inl ?_) (fun j hne => ⟨[], wrote.keeps ?_⟩)
      (fun j hj => ?_)
    · unfold Socket.line? at hj ⊢
      rwa [wrote.stage] at hj
    · rintro rfl
      exact hne hi
    · rw [wrote.made]
      apply hp.unmade
      by_cases hji : j = i
      · subst hji
        obtain ⟨_, d, _, hd, _⟩ := wrote.found
        rw [hd] at hj
        cases hj
      · rw [← wrote.others j hji, hj]
  | beside sockets hub =>
    obtain ⟨more, hg⟩ := hub.aside.gains
    refine ⟨fun {k s'} hs' => ?_, fun {k k' s s' j} hs hs' hj hj' => ?_,
      unmade_gains hg nofun hp.unmade⟩
    · cases sockets k s' hs' with
      | old there stage written =>
        exact (hp.fits there).keeps stage written fun j _ => ⟨more, hg.keeps nofun⟩
      | new absent stage written => exact .of_new stage written
    · have line {k : Nat} {s : Socket} (hs : p.Stays k s) (hj : s.line? = some j) :
          ∃ r, p.sockets[k]? = some r ∧ r.line? = some j := by
        cases hs with
        | @old r there stage written =>
          refine ⟨r, there, ?_⟩
          unfold Socket.line? at hj ⊢
          rwa [stage] at hj
        | new absent stage written =>
          rw [Socket.line?_of_new stage] at hj
          cases hj
      obtain ⟨r, hr, hrj⟩ := line (sockets k s hs) hj
      obtain ⟨r', hr', hrj'⟩ := line (sockets k' s' hs') hj'
      exact hp.alone hr hr' hrj hrj'

/-! ### Runs -/

theorem Went.made_grows (hw : Went p t q) :
    p.hub.connections.made <+: q.hub.connections.made := by
  cases hw with
  | socket act there next went given => exact went.gains.made_grows
  | write there write wrote => exact wrote.made ▸ List.prefix_rfl
  | beside sockets hub => exact hub.aside.gains.choose_spec.made_grows

theorem Went.given (hw : Went p t q) : q.hub.given = p.hub.given := by
  cases hw with
  | socket act there next went given => exact given
  | write there write wrote => exact wrote.given
  | beside sockets hub => exact hub.aside.given

theorem made_play (turns : List Turn) (p : Plane) :
    p.hub.connections.made <+: (play turns p).hub.connections.made := by
  induction turns generalizing p with
  | nil => exact List.prefix_rfl
  | cons t rest ih =>
    have hstep := (went_take p t).made_grows
    exact hstep.trans (ih _)

theorem given_play (turns : List Turn) (p : Plane) : (play turns p).hub.given = p.hub.given := by
  induction turns generalizing p with
  | nil => rfl
  | cons t rest ih => exact (ih _).trans (went_take p t).given

theorem Tidy.play (turns : List Turn) (hp : p.Tidy) : (play turns p).Tidy := by
  induction turns generalizing p with
  | nil => exact hp
  | cons t rest ih => exact ih (hp.step (went_take p t))

/-- A socket's machine has been admitted on a connection and has not been welcomed. -/
def Greets (p : Plane) (k j : Nat) : Prop := ∃ s, p.sockets[k]? = some s ∧ s.stage = .greeting j

/-- The calls made on a connection before its welcome, as a run has it. -/
structure Early (o : Plane) (turns : List Turn) (k j : Nat) (calls : List Call) : Prop where
  last : ∃ before after, turns = before ++ after ∧ (play before o).Greets k j ∧
    calls = callsOn j (play before o).hub.connections.made
  most : ∀ before after, turns = before ++ after → (play before o).Greets k j →
    callsOn j (play before o).hub.connections.made <+: calls

/-- What a welcomed machine has been told and will be told: the early calls, the welcome, the rest. -/
def Welcomed (o : Plane) (turns : List Turn) (k j : Nat) (s : Socket) : Prop :=
  ∃ c calls rest, (play turns o).hub.connections.opened[j]? = some c ∧ o.Early turns k j calls ∧
    s.written ++ c.outbox = calls.map .request ++ welcome o.hub c :: rest

theorem concat_cases {before after : List Turn} (he : turns ++ [t] = before ++ after) :
    before = turns ++ [t] ∨ ∃ after', turns = before ++ after' := by
  rcases List.eq_nil_or_concat after with rfl | ⟨after', u, rfl⟩
  · exact .inl (by simpa using he.symm)
  · refine .inr ⟨after', ?_⟩
    rw [List.concat_eq_append, ← List.append_assoc] at he
    exact (List.append_inj_left' he rfl)

theorem Early.concat {calls : List Call} (he : o.Early turns k j calls)
    (hnot : ¬ (play (turns ++ [t]) o).Greets k j) : o.Early (turns ++ [t]) k j calls := by
  refine ⟨?_, fun before after h hg => ?_⟩
  · obtain ⟨before, after, rfl, hg, hcalls⟩ := he.last
    exact ⟨before, after ++ [t], by simp, hg, hcalls⟩
  · rcases concat_cases h with rfl | ⟨after', h⟩
    · exact absurd hg hnot
    · exact he.most before after' h hg

/-- When the welcome is queued, the calls made so far are those before it. -/
theorem Early.now (hg : (play turns o).Greets k j) (hnot : ¬ (play (turns ++ [t]) o).Greets k j) :
    o.Early (turns ++ [t]) k j (callsOn j (play turns o).hub.connections.made) := by
  refine ⟨⟨turns, [t], rfl, hg, rfl⟩, fun before after h hb => ?_⟩
  rcases concat_cases h with rfl | ⟨after', rfl⟩
  · exact absurd hb hnot
  · rw [play_append]
    exact callsOn_grows j (made_play after' _)

theorem not_greets (hs : p.sockets[k]? = some s) (hc : s.connection? = some j) : ¬ p.Greets k j := by
  rintro ⟨r, hr, hstage⟩
  obtain rfl := Option.some.inj (hr.symm.trans hs)
  simp [Socket.connection?, hstage] at hc

/-- Nothing is lost, and nothing comes before what there was. -/
theorem Welcomed.carry (hs : o.Welcomed turns k j s)
    (hnot : ¬ (play (turns ++ [t]) o).Greets k j)
    (hk : ∀ c, (play turns o).hub.connections.opened[j]? = some c → ∃ d added,
      (play (turns ++ [t]) o).hub.connections.opened[j]? = some d ∧ d.id = c.id ∧
      s'.written ++ d.outbox = s.written ++ c.outbox ++ added) :
    o.Welcomed (turns ++ [t]) k j s' := by
  obtain ⟨c, calls, rest, hc, he, hframes⟩ := hs
  obtain ⟨d, added, hd, hid, hadded⟩ := hk c hc
  refine ⟨d, calls, rest ++ added, hd, he.concat hnot, ?_⟩
  rw [hadded, hframes, Socket.welcome_eq rfl hid]
  simp

theorem Welcomed.greeted {deadline : Nat} (hp : (play turns o).Tidy)
    (there : (play turns o).sockets[k]? = some s) (greets : s.stage = .greeting j)
    (found : (play turns o).hub.connections.opened[j]? = some c)
    (written : s'.written = s.written) (stage : s'.stage = .live j deadline)
    (hs' : (play (turns ++ [t]) o).sockets[k]? = some s')
    (hpush : (play (turns ++ [t]) o).hub.connections =
      (Socket.push (play turns o).hub j (welcome (play turns o).hub c)).connections) :
    o.Welcomed (turns ++ [t]) k j s' := by
  obtain ⟨hwritten, hwritable, hout⟩ := (hp.fits there).greeting j c greets found
  have hsend := Connections.send_of_writable (f := welcome (play turns o).hub c) found hwritable
  unfold Socket.push at hpush
  rw [hsend] at hpush
  dsimp only at hpush
  have hgiven : (play turns o).hub.given = o.hub.given := given_play turns o
  have hnot : ¬ (play (turns ++ [t]) o).Greets k j :=
    not_greets hs' (by simp [Socket.connection?, stage])
  refine ⟨{ c with outbox := c.outbox ++ [welcome (play turns o).hub c] }, _, [], ?_,
    .now ⟨s, there, greets⟩ hnot, ?_⟩
  · rw [hpush]
    simp [Connections.change, found]
  · rw [written, hwritten]
    change c.outbox ++ [_] = requestsOn j _ ++ [_]
    rw [← hout, Socket.welcome_eq hgiven.symm rfl]
    rfl

theorem Welcomed.step (hp : (play turns o).Tidy)
    (ih : ∀ s j, (play turns o).sockets[k]? = some s → s.connection? = some j →
      o.Welcomed turns k j s)
    (hs' : (play (turns ++ [t]) o).sockets[k]? = some s') (hj : s'.connection? = some j) :
    o.Welcomed (turns ++ [t]) k j s' := by
  have hnot := not_greets hs' hj
  have hw := went_take (play turns o) t
  rw [← play_concat] at hw
  generalize hq : play (turns ++ [t]) o = q at hw
  have aside {s : Socket} {more : List (Nat × Call)} (hs : (play turns o).sockets[k]? = some s)
      (hc : s.connection? = some j) (hwritten : s'.written = s.written)
      (hk : (play turns o).hub.connections.Keeps j more q.hub.connections) :
      o.Welcomed (turns ++ [t]) k j s' := by
    refine (ih s j hs hc).carry hnot fun c hc => ?_
    obtain ⟨d, hd, hid, _, ho⟩ := hk.kept c hc
    exact ⟨d, _, hq ▸ hd, hid, by rw [hwritten, ho, List.append_assoc]⟩
  rw [hq] at hs'
  cases hw with
  | @socket i s r g act there next went given =>
    by_cases hi : i = k
    · subst hi
      rw [setSocket_self there, Option.some.injEq] at hs'
      subst hs'
      have own (hc : s.connection? = some j) (hwritten : r.written = s.written) :
          o.Welcomed (turns ++ [t]) i j r := by
        refine (ih s j there hc).carry hnot fun c hc => ?_
        obtain ⟨d, hd, hid, _⟩ := went.gains.kept j c hc
        obtain ⟨added, hqueued, _⟩ := went.gains.queued j
        rw [Connections.queued_eq hc, Connections.queued_eq hd] at hqueued
        exact ⟨d, added, hq ▸ hd, hid, by rw [hwritten, hqueued, List.append_assoc]⟩
      cases went with
      | apart line line' new connections =>
        rw [Socket.line?_of_connection? hj] at line'
        cases line'
      | enrolled id user org new stage written connections =>
        simp [Socket.connection?, stage] at hj
      | greeted greets found stage written connections =>
        simp only [Socket.connection?, stage, Option.some.injEq] at hj
        subst hj
        refine .greeted hp there greets found written stage ?_ ?_
        · rw [hq]
          exact setSocket_self there _
        · rw [hq]
          exact connections
      | lived lives stage written current gains =>
        exact own (by simpa [Socket.connection?, stage, lives] using hj) written
      | left lives found stage written connections =>
        exact own (by simpa [Socket.connection?, stage, lives] using hj) written
      | finished leaves stage connections => simp [Socket.connection?, stage] at hj
    · rw [setSocket_ne hi] at hs'
      have hline := Socket.line?_of_connection? hj
      exact aside hs' hj rfl (went.gains.keeps fun he => hi (hp.alone there hs' he hline))
  | @write i j' s r g there write wrote =>
    by_cases hi : i = k
    · subst hi
      rw [setSocket_self there, Option.some.injEq] at hs'
      subst hs'
      have hc : s.connection? = some j := by
        unfold Socket.connection? at hj ⊢
        rwa [wrote.stage] at hj
      obtain rfl := Option.some.inj (wrote.line.symm.trans hc)
      refine (ih s j' there hc).carry hnot fun c hc => ?_
      obtain ⟨c', d, hc', hd, hid, _⟩ := wrote.found
      obtain rfl := Option.some.inj (hc.symm.trans hc')
      have hframes := wrote.frames
      rw [Connections.queued_eq hc, Connections.queued_eq hd] at hframes
      exact ⟨d, [], hq ▸ hd, hid, by rw [List.append_nil]; exact hframes⟩
    · rw [setSocket_ne hi] at hs'
      refine aside hs' hj rfl (wrote.keeps fun he => hi ?_)
      exact hp.alone there hs' (Socket.line?_of_connection? wrote.line)
        (he ▸ Socket.line?_of_connection? hj)
  | beside sockets hub =>
    obtain ⟨more, hg⟩ := hub.aside.gains
    cases sockets k s' hs' with
    | old there stage written =>
      refine aside there ?_ written (hg.keeps nofun)
      unfold Socket.connection? at hj ⊢
      rwa [← stage]
    | new absent stage written =>
      have := Socket.line?_of_connection? hj
      rw [Socket.line?_of_new stage] at this
      cases this

/-- Over a run, whoever is past the greeting is welcomed. -/
theorem welcomed_play (ho : o.Tidy) (hnone : o.sockets = []) (turns : List Turn)
    (hs : (play turns o).sockets[k]? = some s) (hj : s.connection? = some j) :
    o.Welcomed turns k j s := by
  induction turns using List.reverseRecOn generalizing s j with
  | nil => simp [hnone] at hs
  | append_singleton turns t ih => exact .step (ho.play turns) (fun _ _ h h' => ih h h') hs hj

/-- The first frame queued for a machine is its welcome exactly when no call was made on its
connection between its admission and its welcome. Otherwise those calls come first, and a machine
that waits for its welcome passes them over. -/
theorem welcome_comes_first_iff (settings : Settings.ControlPlane) (policy : Vm.Policy)
    (store : Vm.Store) (secrets : List (String × String)) (router : Router) (turns : List Turn)
    (k j : Nat) (s : Socket) (c : Connection)
    (there : (play turns (start settings policy store secrets router)).sockets[k]? = some s)
    (welcomed : s.connection? = some j)
    (found : (play turns (start settings policy store secrets router)).hub.connections.opened[j]? =
      some c) :
    let at_ (before : List Turn) := play before (start settings policy store secrets router)
    let first : Frame := .init ⟨c.id, secrets, settings.ws.heartbeatInterval⟩
    ((s.written ++ c.outbox).head? = some first ↔
      ∀ before after, turns = before ++ after → (at_ before).Greets k j →
        ∀ q ∈ (at_ before).hub.connections.inquiries, q.connection ≠ j) ∧
    ∃ (early : List Call) (rest : List Frame),
      s.written ++ c.outbox = early.map .request ++ first :: rest ∧
      (∀ call, call ∈ early ↔ ∃ before after, turns = before ++ after ∧ (at_ before).Greets k j ∧
        ∃ q ∈ (at_ before).hub.connections.inquiries, q.connection = j ∧ q.request = call) ∧
      ∀ call ∈ early, (Frame.request call).WellFormed → ∀ (machine : Machine.Client) (since now : Nat),
        machine.expect since now (Frame.request call).text = machine := by
  intro at_ first
  obtain ⟨c', calls, rest, hc, he, hframes⟩ :=
    welcomed_play (.start settings policy store secrets router) rfl turns there welcomed
  obtain rfl := Option.some.inj (hc.symm.trans found)
  have hfirst : welcome (start settings policy store secrets router).hub c' = first := rfl
  rw [hfirst] at hframes
  refine ⟨⟨fun hhead before after h hg q hq hj => ?_, fun hnone => ?_⟩,
    calls, rest, hframes, fun call => ⟨fun hcall => ?_, ?_⟩, fun call _ hf machine since now =>
      expect_request machine since now hf⟩
  · cases hcalls : calls with
    | nil =>
      have hmost := he.most before after h hg
      rw [hcalls, List.prefix_nil] at hmost
      have hmem : q.request ∈ callsOn j (at_ before).hub.connections.made :=
        Connections.mem_callsOn.mpr ⟨q, hq, hj, rfl⟩
      rw [hmost] at hmem
      cases hmem
    | cons call others =>
      rw [hframes, hcalls] at hhead
      simp [first] at hhead
  · obtain ⟨before, after, h, hg, hcalls⟩ := he.last
    have hnil : calls = [] := by
      rw [hcalls, List.eq_nil_iff_forall_not_mem]
      intro call hcall
      obtain ⟨q, hq, hj, _⟩ := Connections.mem_callsOn.mp hcall
      exact hnone before after h hg q hq hj
    rw [hframes, hnil]
    rfl
  · obtain ⟨before, after, h, hg, hcalls⟩ := he.last
    rw [hcalls] at hcall
    exact ⟨before, after, h, hg, Connections.mem_callsOn.mp hcall⟩
  · rintro ⟨before, after, h, hg, hcall⟩
    exact (he.most before after h hg).subset (Connections.mem_callsOn.mpr hcall)

/-! ### A call before the welcome -/

def greetingAlice : List Act :=
  [.force "alice" "", .accept, .arrive 0 (.text (Frame.auth ⟨"alice", "", "ticket-0", none⟩).text),
    .move (.socket 0), .move (.socket 0)]

def askAlice : List Act := [.visit ⟨"alice", "s", .message "" { message := "hi" }⟩, .move (.errand 0)]

/-- A message comes after the welcome. -/
def orderly : List Turn := numbered (greetingAlice ++ [.move (.socket 0)] ++ askAlice)

/-- A message comes between the admission of the machine and its welcome. -/
def hasty : List Turn := numbered (greetingAlice ++ askAlice ++ [.move (.socket 0)])

/-- The connection that the first socket's writer serves, the id of the first connection, and the
frames that were queued on it. -/
def told (p : Plane) : Option (Option Nat × String × List Frame) :=
  p.sockets[0]?.bind fun s => p.hub.connections.opened[0]?.map fun c =>
    (s.connection?, c.id, s.written ++ c.outbox)

def firstWelcome : Frame := .init ⟨"conn-4", [], opening.hub.settings.ws.heartbeatInterval⟩

def startOfSession (id : String) : Call :=
  ⟨id, Method.startSession, (Errand.startParams ⟨"alice", "s", .cancel⟩ { message := "hi" }).toJson⟩

/-- A message that comes after the welcome is queued after it. -/
theorem welcome_precedes_later_message :
    told (play orderly opening) = some (some 0, "conn-4", [firstWelcome, .request (startOfSession "req-7")]) ∧
    ∀ before after, orderly = before ++ after → (play before opening).Greets 0 0 →
      ∀ q ∈ (play before opening).hub.connections.inquiries, q.connection ≠ 0 := by
  unfold opening
  have htold : told (play orderly (start {} ⟨{}, ⟨"secret", 600⟩⟩ { keeping := .arrival } [] {})) =
      some (some 0, "conn-4", [firstWelcome, .request (startOfSession "req-7")]) := by decide +kernel
  refine ⟨htold, ?_⟩
  obtain ⟨s, there, h⟩ := Option.bind_eq_some_iff.mp htold
  obtain ⟨c, found, h⟩ := Option.map_eq_some_iff.mp h
  simp only [Prod.mk.injEq] at h
  obtain ⟨welcomed, hid, hframes⟩ := h
  refine (welcome_comes_first_iff {} ⟨{}, ⟨"secret", 600⟩⟩ { keeping := .arrival } [] {} orderly 0 0 s c
    there welcomed found).1.mp ?_
  rw [hframes, hid]
  rfl

/-- A message that comes between the admission and the welcome is queued first, and the machine
passes it over. -/
theorem early_message_precedes_welcome :
    told (play hasty opening) = some (some 0, "conn-4", [.request (startOfSession "req-6"), firstWelcome]) ∧
    ∀ (machine : Machine.Client) (since now : Nat),
      machine.expect since now (Frame.request (startOfSession "req-6")).text = machine := by
  have hread : (Frame.parse (Frame.request (startOfSession "req-6")).text).toOption =
      some (.request (startOfSession "req-6")) := by decide +kernel
  refine ⟨by decide +kernel, fun machine since now => ?_⟩
  unfold Machine.Client.expect
  split <;> simp_all [Except.toOption]

end Plane

end Fleet.Control
