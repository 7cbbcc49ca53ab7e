import Fleet.Proofs.Session.Single

/-!
What an acknowledged start is worth. A start of a session that is there is acknowledged without a look at its
adapter, so the session takes messages afterwards exactly if the end of its adapter's process has not been heard
since the adapter was started.
-/

namespace Fleet.Session

namespace Adapter

/-- The process that the adapter's messages go to. -/
def process? : Adapter → Option Nat
  | graph _ => none
  | bridge l => l.current

/-- What a started adapter is good for, by whether the end of its process was heard. -/
def Serves (dead : Prop) : Adapter → Prop
  | graph s => checkSessionId s.id = .ok () ∧ ¬ dead
  | bridge l => ∀ key, l.current = some key →
    ∃ process, l.processes[key]? = some process ∧ (process.exit.isSome = true ↔ dead)

variable {a b : Adapter} {l : Bridge.Link} {d e : Disk} {workspace : Path} {p : StartSession} {x : Act}
  {dead dead' : Prop}

theorem Serves.congr (h : a.Serves dead) (hsame : dead ↔ dead') : a.Serves dead' := propext hsame ▸ h

/-- An adapter that is not stopped takes any message until the end of its process is heard. -/
theorem Serves.takes_iff (h : a.Serves dead) (hlive : a.halted = false) :
    (∀ text, ∃ b, a.message text = .ok b) ↔ ¬ dead := by
  cases a with
  | graph s =>
    obtain ⟨hid, hnot⟩ := h
    have hopen : s.stopped = false := hlive
    refine iff_of_true (fun text => ?_) hnot
    simp only [message, Graph.Session.accept, hid, hopen]
    exact ⟨_, rfl⟩
  | bridge l =>
    cases hcurrent : l.current with
    | none =>
      rw [halted, hcurrent] at hlive
      cases hlive
    | some key =>
      obtain ⟨process, hthere, hover⟩ := h key hcurrent
      have hrunning : l.running? = if process.exit.isNone then some key else none := by
        unfold Bridge.Link.running?
        rw [hcurrent, Option.filter_some, hthere, Option.any_some]
      cases hexit : process.exit with
      | none =>
        rw [hexit] at hrunning hover
        refine iff_of_true (fun text => ?_) fun h => absurd (hover.mpr h) Bool.false_ne_true
        simp only [message, Bridge.Link.send, hrunning]
        exact ⟨_, rfl⟩
      | some how =>
        rw [hexit] at hrunning hover
        refine iff_of_false (fun h => ?_) (not_not_intro (hover.mp rfl))
        obtain ⟨b, hb⟩ := h ""
        simp only [message, Bridge.Link.send, hrunning] at hb
        cases hb

/-- What leaves each process's end alone leaves an adapter as good as it was. -/
theorem Serves.change {f : Bridge.Process → Bridge.Process} (h : (bridge l).Serves dead) (key : Nat)
    (hf : ∀ process, (f process).exit = process.exit) : (bridge (l.change key f)).Serves dead := by
  intro current hcurrent
  obtain ⟨process, hthere, hover⟩ := h current hcurrent
  have hmodified : (l.change key f).processes[current]? =
      some (if key = current then f process else process) := by
    simp only [Bridge.Link.change, List.getElem?_modify, hthere]
    split <;> rfl
  refine ⟨_, hmodified, ?_⟩
  split
  · rw [hf, hover]
  · exact hover

theorem Serves.send {c : Bridge.Command} {k : Bridge.Link} (h : (bridge l).Serves dead) (hk : l.send c = .ok k) :
    (bridge k).Serves dead := by
  unfold Bridge.Link.send at hk
  split at hk
  · cases hk
    exact h.change _ fun _ => rfl
  · cases hk

theorem Serves.handed (h : a.Serves dead) (hb : (∃ text, a.message text = .ok b) ∨ a.cancel = .ok b) :
    b.Serves dead := by
  cases a with
  | graph s =>
    rcases hb with ⟨text, hb⟩ | hb
    · obtain ⟨t, ht, rfl⟩ := Json.map_ok hb
      obtain ⟨_, rfl⟩ := Graph.Session.accept_ok ht
      exact h
    · cases hb
      exact h
  | bridge l =>
    rcases hb with ⟨text, hb⟩ | hb <;>
      · obtain ⟨k, hk, rfl⟩ := Json.map_ok hb
        exact h.send hk

theorem Serves.stop (h : a.Serves dead) : a.stop.1.Serves dead := by
  cases a with
  | graph s => exact h
  | bridge l =>
    cases hcurrent : l.current with
    | none =>
      have hsame : l.stop = (l, none) := by rw [Bridge.Link.stop, hcurrent]
      rw [Adapter.stop, hsame]
      exact h
    | some key =>
      have hnone : l.stop.1.current = none := by rw [Bridge.Link.stop, hcurrent]
      exact fun _ hkey => nomatch hnone.symm.trans hkey

theorem Serves.discard (h : a.Serves dead) : a.discard.Serves dead := by
  cases a with
  | graph s => exact h
  | bridge l =>
    cases hcurrent : l.current with
    | none =>
      have hsame : l.discard = l := by rw [Bridge.Link.discard, hcurrent]
      rw [Adapter.discard, hsame]
      exact h
    | some key =>
      have hnone : l.discard.current = none := by rw [Bridge.Link.discard, hcurrent]
      exact fun _ hkey => nomatch hnone.symm.trans hkey

/-- An adapter that has just been started has a process that runs. -/
theorem serves_of_start (ha : a.Unopened) (h : a.start d workspace p = (.ok b, e)) : b.Serves False := by
  cases a with
  | graph s =>
    simp only [start, Graph.Session.start] at h
    split at h
    · cases h
    · rename_i hid
      split at h
      · cases h
      · obtain ⟨t, ht, rfl⟩ := Json.map_ok (Prod.mk.inj h).1
        obtain ⟨st, _, rfl⟩ := Json.map_ok ht
        exact ⟨hid, id⟩
  | bridge l =>
    cases h
    have hidle : l.running? = none := by
      unfold Bridge.Link.running?
      rw [show l.current = none from ha.2]
      rfl
    unfold Bridge.Link.start
    rw [hidle]
    rintro key ⟨⟩
    exact ⟨_, List.getElem?_concat_length, by simp⟩

end Adapter

/-- Whether an adapter's process is heard to have ended. -/
def Act.Ends (a : Adapter) : Act → Prop
  | .hear (.exit process _) => a.process? = some process
  | _ => False

instance (a : Adapter) : DecidablePred (Act.Ends a)
  | .hear (.exit process _) => inferInstanceAs (Decidable (a.process? = some process))
  | .hear (.line _ _) | .hear (.answer _ _ _) | .run _ => .isFalse id

/-- No process of an adapter without one is heard to have ended. -/
theorem Act.not_ends {a : Adapter} (h : a.process? = none) (x : Act) : ¬ x.Ends a := by
  cases x with
  | run y => exact id
  | hear news =>
    cases news with
    | exit process how =>
      intro hends
      rw [Act.Ends, h] at hends
      cases hends
    | _ => exact id

theorem Adapter.Serves.act {a b : Adapter} {d e : Disk} {workspace : Path} {x : Act} {dead : Prop}
    (h : a.Serves dead) (hb : a.act d workspace x = some (b, e)) : b.Serves (dead ∨ x.Ends a) := by
  have hquiet (hnot : ¬ x.Ends a) (hsame : b.Serves dead) : b.Serves (dead ∨ x.Ends a) :=
    hsame.congr (or_iff_left hnot).symm
  match a, x with
  | .graph s, .run x =>
    obtain ⟨⟨t, e', sent⟩, hadvance, heq⟩ := Option.map_eq_some_iff.mp hb
    cases heq
    exact hquiet id ⟨(Graph.Session.advanced hadvance).keeps.id ▸ h.1, h.2⟩
  | .graph s, .hear news => cases hb
  | .bridge l, .run x => cases hb
  | .bridge l, .hear (.line process text) =>
    cases hb
    refine hquiet id ?_
    change Adapter.Serves dead (.bridge (l.readLine process text).1)
    unfold Bridge.Link.readLine
    split
    · exact h
    · split
      · exact h
      · exact h.change process fun _ => rfl
      · exact h
      · exact h
  | .bridge l, .hear (.answer process call outcome) =>
    cases hb
    refine hquiet id (h.change process fun q => ?_)
    split <;> rfl
  | .bridge l, .hear (.exit process how) =>
    cases hb
    by_cases hends : l.current = some process
    · intro key hkey
      obtain rfl : process = key := Option.some.inj (hends.symm.trans hkey)
      obtain ⟨q, hthere, -⟩ := h process hends
      refine ⟨{ q with exit := some how }, ?_, iff_of_true rfl (.inr hends)⟩
      simp [Bridge.Link.take, Bridge.Link.ended, Bridge.Link.change, hthere]
    · refine hquiet hends fun key hkey => ?_
      obtain ⟨q, hthere, hover⟩ := h key hkey
      refine ⟨q, ?_, hover⟩
      have hne : process ≠ key := fun heq => hends (heq ▸ hkey)
      simp [Bridge.Link.take, Bridge.Link.ended, Bridge.Link.change, hne, hthere]

/-- A start that is answered at once, and well, has found its session and does nothing. -/
theorem Manager.acknowledged {m : Manager} {p : StartSession} {v : Json}
    (h : (m.beginStart p).2 = .done (.ok v)) :
    (m.beginStart p).1 = m ∧ ∃ info key, m.find? p.sessionId = some (info, key) ∧ v = info.toJson := by
  unfold beginStart at h ⊢
  cases hid : checkSessionId p.sessionId with
  | error e =>
    rw [hid] at h
    cases h
  | ok valid =>
    cases hfound : m.find? p.sessionId with
    | none =>
      rw [hid, hfound] at h
      cases h
    | some found =>
      obtain ⟨info, key⟩ := found
      by_cases hsame : info.runtime = p.runtime
      · simp only [hid, hfound, hsame, ↓reduceIte] at h ⊢
        cases h
        exact ⟨trivial, info, key, rfl, rfl⟩
      · simp only [hid, hfound, hsame, ↓reduceIte] at h
        cases h

namespace Station

/-- The adapter whose process a move tells to have ended. -/
def loses (o : Station) : Move → List Nat
  | .act key x => if (o.manager.adapters[key]?).any fun a => decide (x.Ends a) then [key] else []
  | _ => []

/-- The adapters whose processes were heard to end while moves were made. -/
def lost : List Move → Station → List Nat
  | [], _ => []
  | x :: rest, o => o.loses x ++ lost rest (o.take x)

/-- The answer that a move gives to its request. -/
def answer? (o : Station) : Move → Option (Except Error Json)
  | .request method params =>
    match (o.manager.begin method params).2 with
    | .done outcome => some outcome
    | .waits _ => none
  | .resume t =>
    if t ∈ o.tasks then
      match o.manager.step o.disk t with
      | some (_, _, .done outcome) => some outcome
      | _ => none
    else none
  | .act _ _ => none

/-- What every adapter is good for. -/
structure Watched (gone : List Nat) (o : Station) : Prop where
  serves : ∀ k ∈ o.started, ∀ a, o.manager.adapters[k]? = some a → a.Serves (k ∈ gone)
  unopened : ∀ k ∉ o.started, ∀ a, o.manager.adapters[k]? = some a → a.Unopened
  known : ∀ k ∈ gone, k ∈ o.started

end Station

/-- Whether a move belongs to a start of a session: it is asked for, or goes on. -/
def Move.Starts (id : String) : Move → Prop
  | .request method params => method = Method.startSession ∧
    ∃ p, StartSession.reader.ofJson params = .ok p ∧ p.sessionId = id
  | .resume t => t.starts id = true
  | .act _ _ => False

namespace Station

variable {o : Station} {gone : List Nat} {key : Nat} {a b : Adapter} {p : StartSession} {d : Disk}
  {rest : List Task} {id : String}

namespace Watched

theorem opening (workspace : Path) (d : Disk) : Watched [] (opening workspace d) :=
  ⟨nofun, fun k _ a ha => by simp [Station.opening] at ha, nofun⟩

theorem congr {o' : Station} (h : Watched gone o) (hadapters : o'.manager.adapters = o.manager.adapters)
    (hstarted : o'.started = o.started) : Watched gone o' := by
  refine ⟨fun k hk a ha => h.serves k (hstarted ▸ hk) a (hadapters ▸ ha), fun k hk a ha => ?_,
    fun k hk => hstarted ▸ h.known k hk⟩
  exact h.unopened k (fun hin => hk (hstarted ▸ hin)) a (hadapters ▸ ha)

/-- One adapter changes, or loses its process. -/
theorem withAdapter {gone' : List Nat} (h : Watched gone o) (there : o.manager.adapters[key]? = some a)
    (hserves : key ∈ o.started → b.Serves (key ∈ gone')) (hunopened : key ∉ o.started → b.Unopened)
    (hgone : ∀ k ≠ key, k ∈ gone' ↔ k ∈ gone) (hknown : key ∈ gone' → key ∈ o.started) :
    Watched gone' (o.withAdapter d key b) := by
  refine ⟨fun k hk c hc => ?_, fun k hk c hc => ?_, fun k hk => ?_⟩
  · rcases getElem?_set_cases there hc with ⟨rfl, rfl⟩ | ⟨hne, hc⟩
    · exact hserves hk
    · exact (h.serves k hk c hc).congr (hgone k hne).symm
  · rcases getElem?_set_cases there hc with ⟨rfl, rfl⟩ | ⟨-, hc⟩
    · exact hunopened hk
    · exact h.unopened k hk c hc
  · by_cases hne : k = key
    · subst hne
      exact hknown hk
    · exact h.known k ((hgone k hne).mp hk)

/-- A started adapter changes and is as good as before. -/
theorem keeping (h : Watched gone o) (there : o.manager.adapters[key]? = some a) (hstarted : key ∈ o.started)
    (hserves : a.Serves (key ∈ gone) → b.Serves (key ∈ gone)) (d : Disk) :
    Watched gone (o.withAdapter d key b) :=
  h.withAdapter there (fun hk => hserves (h.serves key hk a there)) (fun hk => absurd hstarted hk)
    (fun _ _ => .rfl) fun _ => hstarted

theorem withNew (h : Watched gone o) (hs : Sound o) (rest : List Task) (p : StartSession) :
    Watched gone (o.withNew rest p) := by
  have hcases {k : Nat} {a : Adapter} (ha : (o.withNew rest p).manager.adapters[k]? = some a) :
      o.manager.adapters[k]? = some a ∨ k ∉ o.started ∧ a.Unopened := by
    by_cases hk : k < o.manager.adapters.length
    · exact .inl ((List.getElem?_append_left hk).symm.trans ha)
    · have ha : (o.manager.adapters ++ [Adapter.make p])[k]? = some a := ha
      rw [List.getElem?_append_right (Nat.le_of_not_lt hk)] at ha
      refine .inr ⟨fun hin => hk (hs.started k hin), ?_⟩
      rw [List.mem_singleton.mp (List.mem_of_getElem? ha)]
      exact Adapter.unopened_make p
  refine ⟨fun k hk a ha => ?_, fun k hk a ha => ?_, h.known⟩
  · rcases hcases ha with ha | ⟨hnot, -⟩
    · exact h.serves k hk a ha
    · exact absurd hk hnot
  · rcases hcases ha with ha | ⟨-, hopen⟩
    · exact h.unopened k hk a ha
    · exact hopen

theorem withoutSeat {info : Info} (h : Watched gone o) (hs : Sound o)
    (found : o.manager.find? id = some (info, key)) (t : Task) : Watched gone (o.withoutSeat id key t) := by
  obtain ⟨hstarted, a, there, -⟩ := mem_live.mp (hs.seated id key (mem_seated.mpr ⟨info, found⟩))
  exact (h.keeping there hstarted Adapter.Serves.stop o.disk).congr (adapters_withoutSeat id t there) rfl

theorem withStarted (h : Watched gone o) (hs : Sound o) (waits : Task.opening key p ∈ o.tasks)
    (there : o.manager.adapters[key]? = some a) (starts : a.start o.disk o.manager.workspace p = (.ok b, d)) :
    Watched gone (o.withStarted d key p b) := by
  obtain ⟨hnew, -⟩ := hs.opening key p waits
  have hserves := Adapter.serves_of_start (h.unopened key hnew a there) starts
  refine ⟨fun k hk c hc => ?_, fun k hk c hc => ?_, fun k hk => List.mem_cons_of_mem _ (h.known k hk)⟩
  · rcases getElem?_set_cases there hc with ⟨rfl, rfl⟩ | ⟨hne, hc⟩
    · exact hserves.congr (iff_of_false id fun hgone => hnew (h.known _ hgone))
    · exact h.serves k ((List.mem_cons.mp hk).resolve_left hne) c hc
  · have hnot : k ∉ o.started := fun hin => hk (List.mem_cons_of_mem _ hin)
    rcases getElem?_set_cases there hc with ⟨rfl, rfl⟩ | ⟨-, hc⟩
    · exact absurd List.mem_cons_self hk
    · exact h.unopened k hnot c hc

theorem withSeat (h : Watched gone o) (hs : Sound o) (key : Nat) (p : StartSession) :
    Watched gone (o.withSeat key p) := by
  rcases adapters_withSeat o key p with hsame | ⟨old, hold, a, there, hset⟩
  · exact h.congr hsame rfl
  · have hstarted := (mem_live.mp (hs.seated _ old hold)).1
    exact (h.keeping there hstarted Adapter.Serves.discard o.disk).congr hset rfl

/-! ### Moves and runs -/

theorem begun {m : Manager} {next : Progress} (h : Watched gone o) (hs : Sound o)
    (hb : o.manager.Begun m next) : Watched gone { o with manager := m, tasks := o.tasks ++ next.rest } := by
  cases hb with
  | answered outcome => exact h.congr rfl rfl
  | made free => exact h.withNew hs o.tasks _
  | taken found takes => exact h.withoutSeat hs found _
  | @handed id info key a b outcome found there hands =>
    have hstarted := (mem_live.mp (hs.seated id key (mem_seated.mpr ⟨info, found⟩))).1
    exact (h.keeping there hstarted (Adapter.Serves.handed · hands) o.disk).congr rfl rfl

theorem resumed (h : Watched gone o) (hs : Sound o) (t : Task) : Watched gone (o.take (.resume t)) := by
  unfold take
  by_cases ht : t ∈ o.tasks
  · dsimp only
    rw [if_pos ht]
    split
    · rename_i m d next hstep
      cases Manager.stepped hstep with
      | made => exact h.withNew hs _ _
      | started there starts => exact h.withStarted hs ht there starts
      | failed cause => exact h.congr rfl rfl
      | @placed key p => exact (h.withSeat hs key p).congr rfl rfl
      | stopped answer => exact h.congr rfl rfl
    · exact h
  · dsimp only
    rw [if_neg ht]
    exact h

/-- Where the end of an adapter's process is heard, the adapter was started. -/
theorem acted (h : Watched gone o) (key : Nat) (x : Act) :
    Watched (gone ++ o.loses (.act key x)) (o.take (.act key x)) := by
  cases there : o.manager.adapters[key]? with
  | none =>
    simp only [take, loses, there]
    simpa using h
  | some a =>
    have hgone (k : Nat) : k ∈ gone ++ o.loses (.act key x) ↔ k ∈ gone ∨ k = key ∧ x.Ends a := by
      simp only [loses, there, Option.any_some, decide_eq_true_eq]
      split <;> simp_all
    have hended (hends : x.Ends a) : key ∈ o.started := by
      by_contra hnot
      obtain ⟨-, hopen⟩ := h.unopened key hnot a there
      have hnone : a.process? = none := by
        cases a with
        | graph s => rfl
        | bridge l => exact hopen
      exact Act.not_ends hnone x hends
    cases hact : a.act o.disk o.manager.workspace x with
    | none =>
      have hnot : ¬ x.Ends a := by
        cases a with
        | graph s => exact Act.not_ends rfl x
        | bridge l =>
          cases x with
          | run y => exact id
          | hear news => cases hact
      have hstill : o.take (.act key x) = o := by simp only [take, there, Option.bind_some, hact]
      rw [hstill]
      have hsame (k : Nat) : k ∈ gone ++ o.loses (.act key x) ↔ k ∈ gone :=
        (hgone k).trans (or_iff_left fun h => hnot h.2)
      exact ⟨fun k hk b hb => (h.serves k hk b hb).congr (hsame k).symm, h.unopened,
        fun k hk => h.known k ((hsame k).mp hk)⟩
    | some next =>
      obtain ⟨b, d⟩ := next
      have htake : o.take (.act key x) = o.withAdapter d key b := by
        simp only [take, there, Option.bind_some, hact]
        rfl
      rw [htake]
      refine h.withAdapter there (fun hk => ?_) (fun hk => Adapter.act_unopened hact (h.unopened key hk a there))
        (fun k hne => (hgone k).trans (or_iff_left fun h => hne h.1)) fun hk => ?_
      · exact ((h.serves key hk a there).act hact).congr (by simp [hgone])
      · rcases (hgone key).mp hk with hk | ⟨-, hends⟩
        · exact h.known key hk
        · exact hended hends

theorem take (h : Watched gone o) (hs : Sound o) (x : Move) : Watched (gone ++ o.loses x) (o.take x) := by
  cases x with
  | request method params =>
    rw [show o.loses (.request method params) = [] from rfl, List.append_nil]
    exact h.begun hs (o.manager.begun method params)
  | resume t =>
    rw [show o.loses (.resume t) = [] from rfl, List.append_nil]
    exact h.resumed hs t
  | act key x => exact h.acted key x

theorem play (moves : List Move) (h : Watched gone o) (hs : Sound o) :
    Watched (gone ++ lost moves o) (play moves o) ∧ Sound (Station.play moves o) := by
  induction moves generalizing o gone with
  | nil => exact ⟨(List.append_nil gone).symm ▸ h, hs⟩
  | cons x rest ih =>
    have hnext := ih (h.take hs x) (hs.step (went_take o x))
    rw [lost, ← List.append_assoc]
    exact hnext

end Watched

/-! ### Starts that are answered -/

/-- Whether a session takes messages: any request that reads as a message for it is accepted. -/
def Takes (o : Station) (id : String) : Prop :=
  ∀ params text, UserMessage.reader.ofJson params = .ok ⟨id, text⟩ →
    o.answer? (.request Method.userMessage params) = some (.ok (Json.object [("accepted", .bool true)]))

theorem takes_iff {info : Info} (hfound : o.manager.find? id = some (info, key))
    (hthere : o.manager.adapters[key]? = some a) :
    o.Takes id ↔ ∀ text, ∃ b, a.message text = .ok b := by
  have hanswer {params : Json} {text : String} (hread : UserMessage.reader.ofJson params = .ok ⟨id, text⟩) :
      o.answer? (.request Method.userMessage params) =
        some ((a.message text).map fun _ => Json.object [("accepted", .bool true)]) := by
    have hbegin : o.manager.begin Method.userMessage params = o.manager.withAdapter id (·.message text)
        (Json.object [("accepted", .bool true)]) := by
      unfold Manager.begin
      rw [if_neg (by decide), if_pos rfl]
      simp only [hread]
    simp only [answer?, hbegin, Manager.withAdapter, hfound, Option.bind_some, hthere, Option.map_some]
    cases a.message text <;> rfl
  refine ⟨fun h text => ?_, fun h params text hread => ?_⟩
  · have hread : UserMessage.reader.ofJson (UserMessage.toJson ⟨id, text⟩) = .ok ⟨id, text⟩ := rfl
    have haccepted := (hanswer hread).symm.trans (h _ text hread)
    cases hmessage : a.message text with
    | ok b => exact ⟨b, rfl⟩
    | error e =>
      rw [hmessage] at haccepted
      cases haccepted
  · obtain ⟨b, hb⟩ := h text
    rw [hanswer hread, hb]
    rfl

/-- A start that ends well leaves its session in the table, as it tells. -/
theorem registered_of_answer {x : Move} {v : Json} (hx : x.Starts id) (ha : o.answer? x = some (.ok v)) :
    ∃ info key, (o.take x).manager.find? id = some (info, key) ∧ v = info.toJson := by
  cases x with
  | request method params =>
    obtain ⟨rfl, p, hread, rfl⟩ := hx
    have hbegin : o.manager.begin Method.startSession params = o.manager.beginStart p := by
      unfold Manager.begin
      rw [if_pos rfl]
      simp only [hread]
    simp only [answer?, hbegin] at ha
    simp only [take, hbegin]
    split at ha
    · rename_i outcome hdone
      cases ha
      obtain ⟨hsame, hfound⟩ := Manager.acknowledged hdone
      exact hsame.symm ▸ hfound
    · cases ha
  | resume t =>
    by_cases ht : t ∈ o.tasks
    · simp only [answer?, if_pos ht] at ha
      split at ha
      · rename_i m d outcome hstep
        have htake : o.take (.resume t) = ⟨m, d, o.tasks.erase t ++ [], t.startsBy (.done outcome) ++ o.started⟩ := by
          simp only [take, if_pos ht, hstep]
          rfl
        cases Manager.stepped hstep with
        | failed cause => cases ha
        | stopped answer => cases hx
        | @placed key p =>
          cases ha
          refine ⟨.ofStart p, key, ?_, rfl⟩
          rw [htake]
          exact (find?_withSeat o key p id).trans (if_pos (eq_of_beq hx).symm)
      · cases ha
    · simp only [answer?, if_neg ht] at ha
      cases ha
  | act key x => cases hx

def bridged : StartSession := { sessionId := "s", runtime := .openclaw }

/-- A session gets an adapter with a bridge process. -/
def bridging : List Move :=
  [.request Method.startSession bridged.toJson, .resume (.opening 0 bridged), .resume (.opened 0 bridged)]

end Station

end Fleet.Session
