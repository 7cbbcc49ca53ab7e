import Fleet.Proofs.Disk.Joined
import Fleet.Proofs.Graph.Confined
import Fleet.Proofs.Session.Acknowledging

/-!
Where names that come from outside lead. A session's name and a skill's name are refused, or name one directory,
and what is done for them stays in that directory.
-/

namespace Fleet

namespace Session

variable {d e : Disk} {workspace : Path} {id : String} {p : StartSession}

theorem checkSessionId_eq_ok : checkSessionId id = .ok () ↔ isSessionId id = true := by
  unfold checkSessionId
  split <;> simp [*]

/-! ### Adapters -/

namespace Adapter

variable {a b : Adapter} {x : Act}

theorem start_seen (a : Adapter) (d : Disk) (workspace : Path) (p : StartSession) :
    a.start (d.seenFrom (Graph.sessionRoot workspace a.session)) workspace p =
      ((a.start d workspace p).1, (a.start d workspace p).2.seenFrom (Graph.sessionRoot workspace a.session)) := by
  cases a with
  | graph s =>
    have hseen := s.start_seen d workspace p
    simp only [start, session, hseen]
  | bridge l => rfl

theorem start_within (a : Adapter) (d : Disk) (workspace : Path) (p : StartSession) :
    d.Within (Graph.sessionRoot workspace a.session) (a.start d workspace p).2 := by
  cases a with
  | graph s => exact s.start_within d workspace p
  | bridge l => exact .refl _ d

theorem start_session (h : a.start d workspace p = (.ok b, e)) : b.session = a.session := by
  cases a with
  | graph s =>
    simp only [start, Graph.Session.start] at h
    split at h
    · cases h
    · split at h
      · cases h
      · obtain ⟨t, ht, rfl⟩ := Json.map_ok (Prod.mk.inj h).1
        obtain ⟨st, _, rfl⟩ := Json.map_ok ht
        rfl
  | bridge l =>
    cases h
    unfold Bridge.Link.start
    split <;> rfl

theorem act_seen (a : Adapter) (d : Disk) (workspace : Path) (x : Act) :
    a.act (d.seenFrom (Graph.sessionRoot workspace a.session)) workspace x =
      (a.act d workspace x).map fun (b, e) => (b, e.seenFrom (Graph.sessionRoot workspace a.session)) := by
  match a, x with
  | graph s, .run x =>
    have hseen := s.advance_seen d workspace x
    simp only [act, session, hseen, Option.map_map]
    rfl
  | bridge l, .hear news => rfl
  | graph s, .hear news => rfl
  | bridge l, .run x => rfl

theorem act_within (h : a.act d workspace x = some (b, e)) :
    d.Within (Graph.sessionRoot workspace a.session) e := by
  match a, x with
  | graph s, .run x =>
    obtain ⟨⟨t, e', sent⟩, hadvance, heq⟩ := Option.map_eq_some_iff.mp h
    cases heq
    exact Graph.Session.advance_within hadvance
  | bridge l, .hear news =>
    cases h
    exact .refl _ _
  | graph s, .hear news => cases h
  | bridge l, .run x => cases h

end Adapter

/-! ### Names that were accepted -/

/-- A request that will make an adapter has a name that was accepted. -/
def Task.Vetted : Task → Prop
  | replacing _ _ p => isSessionId p.sessionId = true
  | _ => True

namespace Manager

variable {m : Manager}

/-- Every adapter is of a session whose name was accepted. -/
def Vetted (m : Manager) : Prop := ∀ a ∈ m.adapters, isSessionId a.session = true

theorem Vetted.make (h : m.Vetted) (hp : isSessionId p.sessionId = true) : (m.make p).1.Vetted := by
  intro a ha
  rcases List.mem_append.mp ha with ha | ha
  · exact h a ha
  · rw [List.mem_singleton.mp ha, Adapter.session_make]
    exact hp

theorem Vetted.setAdapter {key : Nat} {a b : Adapter} (h : m.Vetted) (there : m.adapters[key]? = some a)
    (same : b.session = a.session) : (m.setAdapter key b).Vetted := by
  intro c hc
  rcases List.mem_or_eq_of_mem_set hc with hc | rfl
  · exact h c hc
  · rw [same]
    exact h a (List.mem_of_getElem? there)

theorem Vetted.stopAdapter (h : m.Vetted) (key : Nat) : (m.stopAdapter key).1.Vetted := by
  unfold Manager.stopAdapter
  split
  · exact h
  · rename_i a hthere
    exact h.setAdapter hthere a.stop_halts.1

theorem Vetted.insert (h : m.Vetted) (key : Nat) (p : StartSession) : (m.insert key p).Vetted := by
  unfold Manager.insert
  dsimp only [Vetted, withoutEntry]
  split
  · rename_i old a hold
    obtain ⟨⟨info, key'⟩, -, hadapter⟩ := Option.bind_eq_some_iff.mp hold
    obtain ⟨a', hthere, heq⟩ := Option.map_eq_some_iff.mp hadapter
    cases heq
    exact h.setAdapter hthere (Adapter.discard_past _).session
  · exact h

/-- A start of a session whose name is not accepted does nothing. -/
theorem beginStart_refused (m : Manager) (hp : isSessionId p.sessionId = false) :
    m.beginStart p = (m, .done (.error (.session s!"Invalid session id '{Text.escaped p.sessionId}'"))) := by
  have hcheck : checkSessionId p.sessionId =
      .error (.session s!"Invalid session id '{Text.escaped p.sessionId}'") := by
    rw [checkSessionId, hp]
    rfl
  rw [beginStart, hcheck]

/-- What a request leaves behind is vetted: the adapters, and the request itself if it goes on. -/
def VettedBy (next : Manager × Progress) : Prop := next.1.Vetted ∧ ∀ t ∈ next.2.rest, t.Vetted

theorem Vetted.done (h : m.Vetted) (outcome : Except Error Json) : VettedBy (m, .done outcome) :=
  ⟨h, fun _ ht => nomatch ht⟩

theorem Vetted.beginStart (h : m.Vetted) (p : StartSession) : VettedBy (m.beginStart p) := by
  cases hp : isSessionId p.sessionId with
  | false =>
    rw [beginStart_refused m hp]
    exact h.done _
  | true =>
    unfold Manager.beginStart
    rw [checkSessionId_eq_ok.mpr hp]
    dsimp only
    split
    · exact ⟨h.make hp, fun t ht => List.mem_singleton.mp ht ▸ trivial⟩
    · split
      · exact h.done _
      · rename_i info key _ _
        refine ⟨Vetted.stopAdapter (m := m.withoutEntry p.sessionId) h key, fun t ht => ?_⟩
        exact List.mem_singleton.mp ht ▸ hp

theorem Vetted.withAdapter {f : Adapter → Except Error Adapter}
    (hf : ∀ a b, f a = .ok b → b.session = a.session) (h : m.Vetted) (id : String) (answer : Json) :
    VettedBy (m.withAdapter id f answer) := by
  unfold Manager.withAdapter
  split
  · exact h.done _
  · rename_i key a hfound
    obtain ⟨⟨info, key'⟩, -, hadapter⟩ := Option.bind_eq_some_iff.mp hfound
    obtain ⟨a', hthere, heq⟩ := Option.map_eq_some_iff.mp hadapter
    cases heq
    split
    · rename_i b hb
      exact (h.setAdapter hthere (hf _ _ hb)).done _
    · exact h.done _

theorem Vetted.beginStop (h : m.Vetted) (id : String) : VettedBy (m.beginStop id) := by
  unfold Manager.beginStop
  split
  · exact h.done _
  · rename_i info key _
    exact ⟨Vetted.stopAdapter (m := m.withoutEntry id) h key, fun t ht => List.mem_singleton.mp ht ▸ trivial⟩

theorem Vetted.begin (h : m.Vetted) (method : String) (params : Json) : VettedBy (m.begin method params) := by
  unfold Manager.begin
  dsimp only
  split
  · split
    · exact h.beginStart _
    · exact h.done _
  split
  · split
    · exact h.withAdapter (fun a b hb => (Adapter.message_keeps hb).session) _ _
    · exact h.done _
  split
  · split
    · exact h.withAdapter (fun a b hb => (Adapter.cancel_keeps hb).1.session) _ _
    · exact h.done _
  split
  · split
    · exact h.beginStop _
    · exact h.done _
  · exact h.done _

end Manager

/-! ### Requests that go on -/

/-- The session that an adapter is of. -/
def Manager.session? (m : Manager) (key : Nat) : Option String := (m.adapters[key]?).map Adapter.session

/-- The session that a request goes to the disk for. -/
def Task.session? (m : Manager) : Task → Option String
  | opening key _ => m.session? key
  | _ => none

namespace Manager

variable {m : Manager} {t : Task} {root : Path}

/-- A request that goes on for no session neither looks at the disk nor changes it. -/
theorem step_blind (h : t.session? m = none) (d e : Disk) :
    m.step e t = (m.step d t).map fun (m, _, next) => (m, e, next) := by
  cases t with
  | opening key p =>
    have hnone : m.adapters[key]? = none := Option.map_eq_none_iff.mp h
    simp only [Manager.step, hnone, Option.map_none]
  | opened key p => rfl
  | replacing key process p =>
    simp only [Manager.step]
    split <;> rfl
  | stopping key process info =>
    simp only [Manager.step]
    split <;> rfl

theorem step_seen (h : t.session? m = some id) (hroot : root = Graph.sessionRoot m.workspace id) (d : Disk) :
    m.step (d.seenFrom root) t = (m.step d t).map fun (m, e, next) => (m, e.seenFrom root, next) := by
  cases t with
  | opening key p =>
    obtain ⟨a, hthere, rfl⟩ := Option.map_eq_some_iff.mp h
    have hseen := hroot ▸ a.start_seen d m.workspace p
    simp only [Manager.step, hthere, hseen]
    cases hstart : a.start d m.workspace p with
    | mk outcome e => cases outcome <;> rfl
  | _ => cases h

theorem step_within {m' : Manager} {next : Progress} (h : t.session? m = some id)
    (hroot : root = Graph.sessionRoot m.workspace id) (hstep : m.step d t = some (m', e, next)) :
    d.Within root e := by
  cases t with
  | opening key p =>
    obtain ⟨a, hthere, rfl⟩ := Option.map_eq_some_iff.mp h
    have hwithin := hroot ▸ a.start_within d m.workspace p
    simp only [Manager.step, hthere] at hstep
    split at hstep
    · rename_i b e' hstart
      cases hstep
      rwa [hstart] at hwithin
    · rename_i cause e' hstart
      cases hstep
      rwa [hstart] at hwithin
  | _ => cases h

end Manager

/-! ### Moves -/

namespace Station

variable {o : Station} {x : Move} {root : Path} {moves : List Move}

/-- A station with another disk. -/
def withDisk (o : Station) (d : Disk) : Station := { o with disk := d }

/-- The session that a move goes to the disk for. -/
def session? (o : Station) : Move → Option String
  | .request _ _ => none
  | .resume t => t.session? o.manager
  | .act key _ => o.manager.session? key

/-- A move does on another disk what it does on this one, and answers the same. -/
structure Repeats (o : Station) (x : Move) (f : Disk → Disk) : Prop where
  take : (o.withDisk (f o.disk)).take x = (o.take x).withDisk (f (o.take x).disk)
  answer : (o.withDisk (f o.disk)).answer? x = o.answer? x

theorem repeats_resume {t : Task} {f : Disk → Disk}
    (h : o.manager.step (f o.disk) t = (o.manager.step o.disk t).map fun (m, d, next) => (m, f d, next)) :
    o.Repeats (.resume t) f := by
  by_cases ht : t ∈ o.tasks
  · have hmem : t ∈ (o.withDisk (f o.disk)).tasks := ht
    have hstep : (o.withDisk (f o.disk)).manager.step (o.withDisk (f o.disk)).disk t = _ := h
    constructor
    · simp only [Station.take, if_pos ht, if_pos hmem, hstep]
      cases o.manager.step o.disk t <;> rfl
    · simp only [answer?, if_pos ht, if_pos hmem, hstep]
      cases o.manager.step o.disk t with
      | none => rfl
      | some next =>
        obtain ⟨m, d, next⟩ := next
        cases next <;> rfl
  · have hmem : t ∉ (o.withDisk (f o.disk)).tasks := ht
    constructor
    · simp only [Station.take, if_neg ht, if_neg hmem]
    · simp only [answer?, if_neg ht, if_neg hmem]

theorem repeats_act {key : Nat} {y : Act} {f : Disk → Disk}
    (h : ∀ a, o.manager.adapters[key]? = some a → a.act (f o.disk) o.manager.workspace y =
      (a.act o.disk o.manager.workspace y).map fun (b, d) => (b, f d)) : o.Repeats (.act key y) f := by
  refine ⟨?_, rfl⟩
  simp only [Station.take, withDisk]
  cases hthere : o.manager.adapters[key]? with
  | none => rfl
  | some a =>
    simp only [Option.bind_some, h a hthere]
    cases a.act o.disk o.manager.workspace y <;> rfl

/-- A move that is made for no session neither looks at the disk nor changes it. -/
theorem repeats_blind (h : o.session? x = none) (d : Disk) : o.Repeats x fun _ => d := by
  cases x with
  | request method params => exact ⟨rfl, rfl⟩
  | resume t => exact repeats_resume (Manager.step_blind h _ _)
  | act key y =>
    have hnone : o.manager.adapters[key]? = none := Option.map_eq_none_iff.mp h
    exact repeats_act fun a hthere => by cases hnone.symm.trans hthere

/-- What a move does for a session is the same where nothing but the session's directory is seen, and changes nothing
elsewhere. -/
structure Confined (o : Station) (x : Move) (root : Path) : Prop where
  same : o.Repeats x (·.seenFrom root)
  within : o.disk.Within root (o.take x).disk

theorem confined (h : o.session? x = some id) (hroot : root = Graph.sessionRoot o.manager.workspace id) :
    o.Confined x root := by
  cases x with
  | request method params => cases h
  | act key y =>
    obtain ⟨a, hthere, rfl⟩ := Option.map_eq_some_iff.mp h
    constructor
    · refine repeats_act fun b hb => ?_
      obtain rfl := Option.some.inj (hthere.symm.trans hb)
      exact hroot ▸ a.act_seen o.disk o.manager.workspace y
    · simp only [take, hthere, Option.bind_some]
      split
      · rename_i b e hact
        exact hroot ▸ Adapter.act_within hact
      · exact .refl _ _
  | resume t =>
    refine ⟨repeats_resume (Manager.step_seen h hroot _), ?_⟩
    by_cases ht : t ∈ o.tasks
    · simp only [take, if_pos ht]
      split
      · rename_i m e next hstep
        exact Manager.step_within h hroot hstep
      · exact .refl _ _
    · simp only [take, if_neg ht]
      exact .refl _ _

theorem workspace_stopAdapter (m : Manager) (key : Nat) : (m.stopAdapter key).1.workspace = m.workspace := by
  unfold Manager.stopAdapter
  split <;> rfl

theorem workspace_insert (m : Manager) (key : Nat) (p : StartSession) :
    (m.insert key p).workspace = m.workspace := by
  unfold Manager.insert
  dsimp only [Manager.withoutEntry]
  split <;> rfl

theorem Went.workspace_eq {o' : Station} (h : Went o o') : o'.manager.workspace = o.manager.workspace := by
  cases h with
  | taken => exact workspace_stopAdapter _ _
  | placed => exact workspace_insert _ _ _
  | _ => rfl

/-- Every session has an accepted name. -/
structure Vetted (o : Station) : Prop where
  adapters : o.manager.Vetted
  tasks : ∀ t ∈ o.tasks, t.Vetted

theorem Vetted.take (h : o.Vetted) (x : Move) : (o.take x).Vetted := by
  cases x with
  | request method params =>
    obtain ⟨hadapters, htasks⟩ := h.adapters.begin method params
    exact ⟨hadapters, fun t ht => (List.mem_append.mp ht).elim (h.tasks t) (htasks t)⟩
  | act key x =>
    simp only [Station.take]
    split
    · rename_i b d hact
      obtain ⟨a, hthere, hact⟩ := Option.bind_eq_some_iff.mp hact
      exact ⟨h.adapters.setAdapter hthere (Adapter.act_keeps hact).1.session, h.tasks⟩
    · exact h
  | resume t =>
    by_cases ht : t ∈ o.tasks
    · simp only [Station.take, if_pos ht]
      split
      · rename_i m d next hstep
        have hrest (u : Task) (hu : u ∈ next.rest → u.Vetted) : u ∈ o.tasks.erase t ++ next.rest → u.Vetted :=
          fun hmem => (List.mem_append.mp hmem).elim (fun hold => h.tasks u (List.mem_of_mem_erase hold)) hu
        have hended (u : Task) (hu : u ∈ []) : u.Vetted := absurd hu List.not_mem_nil
        cases Manager.stepped hstep with
        | made =>
          exact ⟨h.adapters.make (h.tasks _ ht), fun u => hrest u fun hu => List.mem_singleton.mp hu ▸ trivial⟩
        | started there starts =>
          exact ⟨h.adapters.setAdapter there (Adapter.start_session starts),
            fun u => hrest u fun hu => List.mem_singleton.mp hu ▸ trivial⟩
        | failed cause => exact ⟨h.adapters, fun u => hrest u (hended u)⟩
        | placed => exact ⟨h.adapters.insert _ _, fun u => hrest u (hended u)⟩
        | stopped answer => exact ⟨h.adapters, fun u => hrest u (hended u)⟩
      · exact h
    · simp only [Station.take, if_neg ht]
      exact h

theorem vetted_play (moves : List Move) (h : o.Vetted) : (play moves o).Vetted := by
  induction moves generalizing o with
  | nil => exact h
  | cons x rest ih => exact ih (h.take x)

theorem workspace_play (moves : List Move) (o : Station) :
    (play moves o).manager.workspace = o.manager.workspace := by
  induction moves generalizing o with
  | nil => rfl
  | cons x rest ih => exact (ih (o.take x)).trans (went_take o x).workspace_eq

/-- The session that goes to the disk has an accepted name. -/
theorem Vetted.session? (h : o.Vetted) (hx : o.session? x = some id) : isSessionId id = true := by
  have hof {key : Nat} (hkey : o.manager.session? key = some id) : isSessionId id = true := by
    obtain ⟨a, hthere, rfl⟩ := Option.map_eq_some_iff.mp hkey
    exact h.adapters a (List.mem_of_getElem? hthere)
  cases x with
  | request method params => cases hx
  | act key x => exact hof hx
  | resume t =>
    cases t with
    | opening key p => exact hof hx
    | _ => cases hx

/-- A request to start a session whose name is not accepted. -/
theorem take_refused {params : Json} (hread : StartSession.reader.ofJson params = .ok p)
    (hp : isSessionId p.sessionId = false) (o : Station) :
    o.take (.request Method.startSession params) = o ∧
      ∃ cause, (o.manager.begin Method.startSession params).2 = .done (.error cause) := by
  have hbegin : o.manager.begin Method.startSession params = o.manager.beginStart p := by
    unfold Manager.begin
    simp only [hread, if_true]
  rw [take, hbegin, Manager.beginStart_refused _ hp]
  exact ⟨by rw [Progress.rest, List.append_nil], _, rfl⟩

end Station

end Session

/-! ### Skills -/

/-- Two disks are alike in a directory: one gets there in both or in neither, and the same things lie directly in
it. -/
structure Disk.AlikeIn (dir : Path) (d e : Disk) : Prop where
  found : d.find dir = e.find dir
  names : d.names dir = e.names dir
  entries : ∀ name, d.entry? (dir ++ [name]) = e.entry? (dir ++ [name])

namespace Control

variable {d e : Disk} {root : Path} {name : String}

theorem SkillPackage.load_refused (d : Disk) (root : Path) (h : isName name = false) :
    load d root name = .error (.notFound s!"Invalid skill name '{name}'") := by
  rw [load, h]
  rfl

theorem SkillPackage.load_alike (h : d.AlikeIn (root ++ [name]) e) : load d root name = load e root name := by
  have hlist : d.list (root ++ [name]) = e.list (root ++ [name]) := by
    have hnames := h.names
    unfold Disk.names at hnames
    rw [Disk.list, Disk.list, h.found, hnames]
  have htext (n : String) : text? d (root ++ [name] ++ [n]) = text? e (root ++ [name] ++ [n]) := by
    rw [text?, text?, h.entries]
  simp only [load, hlist, htext]

/-- A call for a package whose name is read is a look at the disk. -/
theorem Router.skillPackage_eq {params : Json}
    (hread : (nameForm.reader "struct SkillPackageParams").ofJson params = .ok name)
    (d : Disk) (skills : Option Path) : (Router.mk d skills).skillPackage params =
      match skills with
      | none => .error (.notFound s!"Skill '{name}' not available")
      | some root => (SkillPackage.load d root name).map SkillPackage.toJson := by
  unfold skillPackage
  rw [hread]
  cases skills with
  | none => rfl
  | some root =>
    cases hload : SkillPackage.load d root name <;>
      simp [Except.mapError, bind, Except.bind, pure, Except.pure, Except.map, hload]

end Control

/-! ### Names -/

/-- A text that is taken as the name of a session or of a skill. -/
def IsAccepted (text : String) : Prop := isSessionId text = true ∨ Control.SkillPackage.isName text = true

theorem IsAccepted.isPlain {text : String} (h : IsAccepted text) : IsPlain text :=
  h.elim isPlain_sessionId isPlain_skillName

/-- Nothing lies below two directories whose accepted names differ. -/
theorem IsAccepted.apart {a b : String} {dir p : Path} (ha : IsAccepted a) (hb : IsAccepted b)
    (hp : dir.join a <+: p) (hp' : dir.join b <+: p) : a = b := by
  apply ha.isPlain.join_injective hb.isPlain (p := dir)
  apply (List.prefix_of_prefix_length_le hp hp' _).eq_of_length
  · rw [ha.isPlain.join, hb.isPlain.join, List.length_append, List.length_append]
    rfl
  · rw [ha.isPlain.join, hb.isPlain.join, List.length_append, List.length_append]
    rfl

open Session Station in
/-- Whatever has been asked of a machine and of the control plane before. A session whose name is not accepted is
refused, and nothing is left to be done for it. Every move of a machine that looks at the disk or changes it does so
for a session with an accepted name, looks at nothing but that session's directory and what is below, and changes
nothing else but that it makes the directories on the way there that are missing. A skill whose name is not accepted
is refused whatever is on the disk; for any other only what lies directly in the skill's directory counts, and
nothing is ever changed. An accepted name leads down by exactly one name, different ones never to a common place, and
the paths of a session are where the texts lead that are joined to the workspace. -/
theorem accepted_names_keep_to_their_directories :
    (∀ (o : Station) (params : Json) (p : StartSession), StartSession.reader.ofJson params = .ok p →
      isSessionId p.sessionId = false → o.take (.request Method.startSession params) = o ∧
        ∃ cause, (o.manager.begin Method.startSession params).2 = .done (.error cause)) ∧
    (∀ (workspace : Path) (d : Disk) (moves : List Move) (x : Move),
      let o := play moves (opening workspace d)
      (o.session? x = none → ∀ e, o.Repeats x fun _ => e) ∧
      ∀ id, o.session? x = some id → isSessionId id = true ∧ o.Confined x (Graph.sessionRoot workspace id)) ∧
    (∀ (params : Json) (name : String),
      (Control.Router.nameForm.reader "struct SkillPackageParams").ofJson params = .ok name →
      (Control.SkillPackage.isName name = false → ∀ skills, ∃ cause, ∀ d,
        (Control.Router.mk d skills).skillPackage params = .error cause) ∧
      (Control.SkillPackage.isName name = true → ∀ root d e, d.AlikeIn (root.join name) e →
        (Control.Router.mk d (some root)).skillPackage params =
          (Control.Router.mk e (some root)).skillPackage params)) ∧
    (∀ text, IsAccepted text → ∀ dir : Path, dir.join text = dir ++ [text]) ∧
    (∀ a b, IsAccepted a → IsAccepted b → ∀ dir p : Path, dir.join a <+: p → dir.join b <+: p → a = b) ∧
    (∀ workspace id, isSessionId id = true →
      Graph.sessionRoot workspace id = ((workspace.join ".semibot").join "sessions").join id) ∧
    ∀ root i, Graph.Checkpoint.directory root = root.join "checkpoints" ∧
      Graph.Checkpoint.file root i = (Graph.Checkpoint.directory root).join (Graph.Checkpoint.fileName i) ∧
      Graph.Checkpoint.draft root i =
        (Graph.Checkpoint.directory root).join (Graph.Checkpoint.fileName i ++ ".tmp") := by
  refine ⟨fun o params p hread hp => take_refused hread hp o, ?_, ?_, fun text h => h.isPlain.join,
    fun a b ha hb dir p hp hp' => ha.apart hb hp hp', fun workspace id h => Graph.sessionRoot_eq_join workspace h,
    Graph.Checkpoint.paths_eq_join⟩
  · intro workspace d moves x o
    have hvetted : o.Vetted := vetted_play moves ⟨nofun, nofun⟩
    refine ⟨repeats_blind, fun id hx => ⟨hvetted.session? hx, confined hx ?_⟩⟩
    exact congrArg (Graph.sessionRoot · id) (workspace_play moves (opening workspace d)).symm
  · intro params name hread
    refine ⟨fun hname skills => ?_, fun hname root d e h => ?_⟩
    · cases skills with
      | none => exact ⟨_, fun d => Control.Router.skillPackage_eq hread d none⟩
      | some root =>
        refine ⟨.notFound s!"Invalid skill name '{name}'", fun d => ?_⟩
        rw [Control.Router.skillPackage_eq hread]
        dsimp only
        rw [Control.SkillPackage.load_refused d root hname]
        rfl
    · rw [(isPlain_skillName hname).join] at h
      rw [Control.Router.skillPackage_eq hread, Control.Router.skillPackage_eq hread]
      dsimp only
      rw [Control.SkillPackage.load_alike h]

def Session.sly : StartSession := { sessionId := "../../etc" }

def Session.plain : StartSession := { sessionId := "s-1" }

open Session Station in
/-- One session is refused, another one is opened in its directory, and a skill is looked for in its own. -/
theorem sly_names_lead_nowhere :
    let asked : Move := .request Method.startSession Session.plain.toJson
    let o := play [asked] (opening ["w"] {})
    let opens : Move := .resume (.opening 0 Session.plain)
    let skill : Json := Json.object [("name", .str "../s-1")]
    o.take (.request Method.startSession Session.sly.toJson) = o ∧
    (o.session? opens = some "s-1" ∧ (o.take opens).disk ≠ o.disk ∧
      o.Confined opens ["w", ".semibot", "sessions", "s-1"]) ∧
    (∃ cause, ∀ d, (Control.Router.mk d (some ["skills"])).skillPackage skill = .error cause) ∧
    Path.join ["w"] "s-1" = ["w", "s-1"] := by
  intro asked o opens skill
  obtain ⟨hrefused, hconfined, hskill, hjoin, -⟩ := accepted_names_keep_to_their_directories
  have hplain : isSessionId "s-1" = true := by decide +kernel
  obtain ⟨htake, -⟩ := hrefused o Session.sly.toJson Session.sly rfl (by decide +kernel)
  obtain ⟨-, hopens⟩ := hconfined ["w"] {} [asked] opens
  have hsession : o.session? opens = some "s-1" := rfl
  obtain ⟨hcause, -⟩ := hskill skill "../s-1" rfl
  exact ⟨htake, ⟨hsession, by decide +kernel, (hopens "s-1" hsession).2⟩, hcause (by decide +kernel) _,
    hjoin "s-1" (.inl hplain) ["w"]⟩

end Fleet
