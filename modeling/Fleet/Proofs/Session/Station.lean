import Fleet.Proofs.Session.Adapters

/-!
A machine's sessions in motion. Requests come in and go on a step at a time, in any order, and between
their steps the adapters do what they do on their own.
-/

namespace Fleet.Session

/-- The sessions of a machine, the requests under way, and the adapters that were started. -/
structure Station where
  manager : Manager := {}
  disk : Disk := {}
  tasks : List Task := []
  started : List Nat := []

inductive Move where
  | request (method : String) (params : Json)
  | resume (t : Task)
  | act (key : Nat) (x : Act)

/-- What is still to be done for a request. -/
def Progress.rest : Progress → List Task
  | waits t => [t]
  | done _ => []

/-- The adapter that a request has started by going on. -/
def Task.startsBy : Task → Progress → List Nat
  | opening key _, .waits _ => [key]
  | _, _ => []

/-- Whether the request has yet to take its session's old adapter, which was found, to its end. -/
def Task.Takes (id : String) : Task → Prop
  | replacing _ _ p => p.sessionId = id
  | stopping _ _ _ => True
  | _ => False

namespace Manager

variable {m : Manager}

/-- All that a request can do at once. -/
inductive Begun (m : Manager) : Manager → Progress → Prop
  | answered (outcome : Except Error Json) : Begun m m (.done outcome)
  | made {p : StartSession} (free : m.find? p.sessionId = none) :
    Begun m (m.make p).1 (.waits (.opening m.adapters.length p))
  | taken {id : String} {info : Info} {key : Nat} {t : Task} (found : m.find? id = some (info, key))
    (takes : t.Takes id) : Begun m ((m.withoutEntry id).stopAdapter key).1 (.waits t)
  | handed {id : String} {info : Info} {key : Nat} {a b : Adapter} (outcome : Except Error Json)
    (found : m.find? id = some (info, key)) (there : m.adapters[key]? = some a)
    (hands : (∃ text, a.message text = .ok b) ∨ a.cancel = .ok b) :
    Begun m (m.setAdapter key b) (.done outcome)

theorem begun_start (m : Manager) (p : StartSession) :
    m.Begun (m.beginStart p).1 (m.beginStart p).2 := by
  unfold beginStart
  split
  · exact .answered _
  · split
    · rename_i hfree
      exact .made hfree
    · rename_i info key hfound
      split
      · exact .answered _
      · exact .taken hfound rfl

theorem begun_stop (m : Manager) (id : String) : m.Begun (m.beginStop id).1 (m.beginStop id).2 := by
  unfold beginStop
  split
  · exact .answered _
  · rename_i info key hfound
    exact .taken hfound trivial

theorem begun_with {f : Adapter → Except Error Adapter}
    (hf : ∀ a b, f a = .ok b → (∃ text, a.message text = .ok b) ∨ a.cancel = .ok b) (m : Manager)
    (id : String) (answer : Json) :
    m.Begun (m.withAdapter id f answer).1 (m.withAdapter id f answer).2 := by
  unfold withAdapter
  split
  · exact .answered _
  · rename_i key a hfound
    obtain ⟨⟨info, key'⟩, hentry, hadapter⟩ := Option.bind_eq_some_iff.mp hfound
    obtain ⟨a', hthere, heq⟩ := Option.map_eq_some_iff.mp hadapter
    cases heq
    split
    · rename_i b hb
      exact .handed _ hentry hthere (hf _ _ hb)
    · exact .answered _

theorem begun (m : Manager) (method : String) (params : Json) :
    m.Begun (m.begin method params).1 (m.begin method params).2 := by
  unfold begin
  dsimp only
  split
  · split
    · exact begun_start m _
    · exact .answered _
  split
  · split
    · rename_i p _
      exact begun_with (fun a b h => .inl ⟨p.message, h⟩) m _ _
    · exact .answered _
  split
  · split
    · exact begun_with (fun a b h => .inr h) m _ _
    · exact .answered _
  split
  · split
    · exact begun_stop m _
    · exact .answered _
  · exact .answered _

variable {d : Disk}

/-- All that a request can do by going on. -/
inductive Stepped (m : Manager) (d : Disk) : Task → Manager → Disk → Progress → Prop
  | made {old : Nat} {process : Option Nat} {p : StartSession} :
    Stepped m d (.replacing old process p) (m.make p).1 d (m.make p).2
  | started {key : Nat} {p : StartSession} {a b : Adapter} {e : Disk} (there : m.adapters[key]? = some a)
    (starts : a.start d m.workspace p = (.ok b, e)) :
    Stepped m d (.opening key p) (m.setAdapter key b) e (.waits (.opened key p))
  | failed {key : Nat} {p : StartSession} {e : Disk} (cause : Error) :
    Stepped m d (.opening key p) m e (.done (.error cause))
  | placed {key : Nat} {p : StartSession} :
    Stepped m d (.opened key p) (m.insert key p) d (.done (.ok (Info.ofStart p).toJson))
  | stopped {key : Nat} {process : Option Nat} {info : Info} (answer : Json) :
    Stepped m d (.stopping key process info) m d (.done (.ok answer))

theorem stepped {t : Task} {m' : Manager} {d' : Disk} {next : Progress}
    (h : m.step d t = some (m', d', next)) : m.Stepped d t m' d' next := by
  cases t with
  | replacing old process p =>
    simp only [step] at h
    split at h
    · cases h
      exact .made
    · cases h
  | opening key p =>
    simp only [step] at h
    split at h
    · cases h
    · rename_i a hthere
      split at h
      · rename_i b e hstart
        cases h
        exact .started hthere hstart
      · cases h
        exact .failed _
  | opened key p =>
    cases h
    exact .placed
  | stopping key process info =>
    simp only [step] at h
    split at h
    · cases h
      exact .stopped _
    · cases h

end Manager

namespace Station

/-- A move that cannot be made changes nothing. -/
def take (o : Station) : Move → Station
  | .request method params =>
    let begun := o.manager.begin method params
    { o with manager := begun.1, tasks := o.tasks ++ begun.2.rest }
  | .resume t =>
    if t ∈ o.tasks then
      match o.manager.step o.disk t with
      | some (m, d, next) => ⟨m, d, o.tasks.erase t ++ next.rest, t.startsBy next ++ o.started⟩
      | none => o
    else o
  | .act key x =>
    match (o.manager.adapters[key]?).bind fun a => a.act o.disk o.manager.workspace x with
    | some (a, d) => { o with manager := o.manager.setAdapter key a, disk := d }
    | none => o

variable {o : Station}

/-- Some requests are done. Those that have a started adapter are not. -/
structure Leaves (o : Station) (rest : List Task) : Prop where
  sublist : rest.Sublist o.tasks
  opened : ∀ key p, Task.opened key p ∈ o.tasks → Task.opened key p ∈ rest

theorem Leaves.refl (o : Station) : o.Leaves o.tasks := ⟨List.Sublist.refl _, fun _ _ h => h⟩

theorem Leaves.erase {t : Task} (ht : ∀ key p, t ≠ .opened key p) : o.Leaves (o.tasks.erase t) := by
  refine ⟨List.erase_sublist, fun key p hmem => ?_⟩
  exact (List.mem_erase_of_ne (ht key p).symm).mpr hmem

/-! What a move leaves behind -/

def withTasks (o : Station) (d : Disk) (rest : List Task) : Station :=
  { o with disk := d, tasks := rest }

def withAdapter (o : Station) (d : Disk) (key : Nat) (a : Adapter) : Station :=
  { o with manager := o.manager.setAdapter key a, disk := d }

/-- A new adapter, which a request will start. -/
def withNew (o : Station) (rest : List Task) (p : StartSession) : Station :=
  { o with
    manager := (o.manager.make p).1
    tasks := rest ++ [.opening o.manager.adapters.length p] }

/-- A session has lost its place, and its adapter is stopped. -/
def withoutSeat (o : Station) (id : String) (key : Nat) (t : Task) : Station :=
  { o with
    manager := ((o.manager.withoutEntry id).stopAdapter key).1
    tasks := o.tasks ++ [t] }

/-- An adapter that a request has started. -/
def withStarted (o : Station) (d : Disk) (key : Nat) (p : StartSession) (a : Adapter) : Station :=
  ⟨o.manager.setAdapter key a, d, o.tasks.erase (.opening key p) ++ [.opened key p],
    key :: o.started⟩

/-- A started adapter in its place. -/
def withSeat (o : Station) (key : Nat) (p : StartSession) : Station :=
  { o with manager := o.manager.insert key p, tasks := o.tasks.erase (.opened key p) }

/-- All that a move can do. -/
inductive Went (o : Station) : Station → Prop
  | still {d : Disk} {rest : List Task} (fewer : o.Leaves rest) : Went o (o.withTasks d rest)
  | made {p : StartSession} {rest : List Task} (fewer : o.Leaves rest)
    (free : o.manager.find? p.sessionId = none ∨
      ∃ key process, Task.replacing key process p ∈ o.tasks) : Went o (o.withNew rest p)
  | taken {id : String} {info : Info} {key : Nat} {t : Task}
    (found : o.manager.find? id = some (info, key)) (takes : t.Takes id) :
    Went o (o.withoutSeat id key t)
  | handed {id : String} {info : Info} {key : Nat} {a b : Adapter}
    (found : o.manager.find? id = some (info, key)) (there : o.manager.adapters[key]? = some a)
    (hands : (∃ text, a.message text = .ok b) ∨ a.cancel = .ok b) :
    Went o (o.withAdapter o.disk key b)
  | opened {key : Nat} {p : StartSession} {a b : Adapter} {d : Disk}
    (waits : Task.opening key p ∈ o.tasks) (there : o.manager.adapters[key]? = some a)
    (starts : a.start o.disk o.manager.workspace p = (.ok b, d)) : Went o (o.withStarted d key p b)
  | placed {key : Nat} {p : StartSession} (waits : Task.opened key p ∈ o.tasks) :
    Went o (o.withSeat key p)
  | acted {key : Nat} {a b : Adapter} {d : Disk} {x : Act}
    (there : o.manager.adapters[key]? = some a)
    (acts : a.act o.disk o.manager.workspace x = some (b, d)) : Went o (o.withAdapter d key b)

theorem went_begun {m : Manager} {next : Progress} (h : o.manager.Begun m next) :
    Went o { o with manager := m, tasks := o.tasks ++ next.rest } := by
  cases h with
  | answered outcome =>
    dsimp only [Progress.rest]
    rw [List.append_nil]
    exact .still (.refl o)
  | made free => exact .made (.refl o) (.inl free)
  | taken found takes => exact .taken found takes
  | handed outcome found there hands =>
    dsimp only [Progress.rest]
    rw [List.append_nil]
    exact .handed found there hands

theorem went_resume (o : Station) (t : Task) : Went o (o.take (.resume t)) := by
  have hstill : Went o o := .still (.refl o)
  have hdone (d : Disk) (ht : ∀ key p, t ≠ .opened key p) :
      Went o { o with disk := d, tasks := o.tasks.erase t ++ [] } := by
    rw [List.append_nil]
    exact .still (.erase ht)
  unfold take
  by_cases ht : t ∈ o.tasks
  · dsimp only
    rw [if_pos ht]
    split
    · rename_i m d next hstep
      cases Manager.stepped hstep with
      | made => exact .made (.erase nofun) (.inr ⟨_, _, ht⟩)
      | started there starts => exact .opened ht there starts
      | failed cause => exact hdone _ nofun
      | placed =>
        dsimp only [Progress.rest]
        rw [List.append_nil]
        exact .placed ht
      | stopped answer => exact hdone _ nofun
    · exact hstill
  · dsimp only
    rw [if_neg ht]
    exact hstill

theorem went_act (o : Station) (key : Nat) (x : Act) : Went o (o.take (.act key x)) := by
  simp only [take]
  split
  · rename_i b d hact
    obtain ⟨a, hthere, hact⟩ := Option.bind_eq_some_iff.mp hact
    exact .acted hthere hact
  · exact .still (.refl o)

theorem went_take (o : Station) (x : Move) : Went o (o.take x) := by
  cases x with
  | request method params => exact went_begun (o.manager.begun method params)
  | resume t => exact went_resume o t
  | act key x => exact went_act o key x

end Station

end Fleet.Session
