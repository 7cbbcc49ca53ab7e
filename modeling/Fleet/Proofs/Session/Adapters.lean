import Fleet.Proofs.Graph.Steps
import Fleet.Proofs.Json.Records
import Fleet.Session.Manager

/-!
What requests, and what adapters do on their own, change of an adapter. Of each adapter three things
count: whose it is, whether it was stopped, and the runs on it that are not over.
-/

namespace Fleet

namespace Bridge

/-- What comes in at a link. -/
inductive News where
  | line (process : Nat) (text : String)
  | answer (process call : Nat) (outcome : Except Error Json)
  | exit (process : Nat) (how : Exit)

def Link.take (l : Link) : News → Link
  | .line process text => (l.readLine process text).1
  | .answer process call outcome => l.answer process call outcome
  | .exit process how => (l.ended process how).1

/-- What the link of a process still has after anything that comes in. -/
structure Link.Keeps (l k : Link) : Prop where
  session : k.session = l.session
  current : k.current = l.current

theorem Link.take_keeps (l : Link) (news : News) : l.Keeps (l.take news) := by
  cases news with
  | line process text =>
    change l.Keeps (l.readLine process text).1
    unfold readLine
    split
    · exact ⟨rfl, rfl⟩
    · split <;> exact ⟨rfl, rfl⟩
  | answer process call outcome => exact ⟨rfl, rfl⟩
  | exit process how => exact ⟨rfl, rfl⟩

theorem Link.send_keeps {l k : Link} {c : Command} (h : l.send c = .ok k) :
    l.Keeps k ∧ l.current.isSome = true := by
  unfold send at h
  split at h
  · rename_i key hrunning
    cases h
    refine ⟨⟨rfl, rfl⟩, ?_⟩
    rw [(Option.filter_eq_some_iff.mp hrunning).1]
    rfl
  · cases h

end Bridge

namespace Session

/-- What an adapter does on its own, between requests. -/
inductive Act where
  | run (x : Graph.Step)
  | hear (news : Bridge.News)

namespace Adapter

/-- The session that the adapter is of. -/
def session : Adapter → String
  | graph s => s.id
  | bridge l => l.session

/-- Whether the adapter was stopped. One that works through a process is so without its process. -/
def halted : Adapter → Bool
  | graph s => s.stopped
  | bridge l => l.current.isNone

/-- The runs that are not over and will write to the session's checkpoints. -/
def runs : Adapter → List Graph.Run
  | graph s => s.runs
  | bridge _ => []

def act (a : Adapter) (d : Disk) (workspace : Path) (x : Act) : Option (Adapter × Disk) :=
  match a, x with
  | graph s, .run x => (s.advance d workspace x).map fun (s, d, _) => (graph s, d)
  | bridge l, .hear news => some (bridge (l.take news), d)
  | _, _ => none

/-- An adapter before its start. -/
def Unopened (a : Adapter) : Prop :=
  a.runs = [] ∧ match a with
    | graph s => s.stopped = false
    | bridge l => l.current = none

variable {a b : Adapter} {d e : Disk} {workspace : Path} {p : StartSession} {x : Act}

/-- The adapter is of the same session and as much stopped as before. -/
structure Keeps (a b : Adapter) : Prop where
  session : b.session = a.session
  halted : b.halted = a.halted

theorem session_make (p : StartSession) : (make p).session = p.sessionId := by
  unfold make
  cases p.runtime <;> rfl

theorem unopened_make (p : StartSession) : (make p).Unopened := by
  unfold make
  cases p.runtime <;> exact ⟨rfl, rfl⟩

theorem start_opens (ha : a.Unopened) (h : a.start d workspace p = (.ok b, e)) :
    b.session = a.session ∧ b.halted = false ∧ b.runs = [] := by
  obtain ⟨hruns, hopen⟩ := ha
  cases a with
  | graph s =>
    simp only [start, Graph.Session.start] at h
    split at h
    · cases h
    · split at h
      · cases h
      · obtain ⟨t, ht, rfl⟩ := Json.map_ok (Prod.mk.inj h).1
        obtain ⟨st, _, rfl⟩ := Json.map_ok ht
        exact ⟨rfl, hopen, hruns⟩
  | bridge l =>
    cases h
    have hidle : l.running? = none := by
      unfold Bridge.Link.running?
      rw [show l.current = none from hopen]
      rfl
    unfold Bridge.Link.start
    rw [hidle]
    exact ⟨rfl, rfl, rfl⟩

theorem act_keeps (h : a.act d workspace x = some (b, e)) : a.Keeps b ∧ b.runs ⊆ a.runs := by
  match a, x with
  | graph s, .run x =>
    obtain ⟨⟨t, e', sent⟩, hadvance, heq⟩ := Option.map_eq_some_iff.mp h
    cases heq
    have hkeeps := (Graph.Session.advanced hadvance).keeps
    exact ⟨⟨hkeeps.id, hkeeps.stopped⟩, hkeeps.runs⟩
  | bridge l, .hear news =>
    cases h
    have hkeeps := l.take_keeps news
    refine ⟨⟨hkeeps.session, ?_⟩, List.Subset.refl _⟩
    exact congrArg Option.isNone hkeeps.current
  | graph s, .hear news => cases h
  | bridge l, .run x => cases h

theorem act_unopened (h : a.act d workspace x = some (b, e)) (ha : a.Unopened) : b.Unopened := by
  obtain ⟨hkeeps, hruns⟩ := act_keeps h
  refine ⟨List.eq_nil_of_subset_nil (ha.1 ▸ hruns), ?_⟩
  match a, x with
  | graph s, .run x =>
    obtain ⟨⟨t, e', sent⟩, hadvance, heq⟩ := Option.map_eq_some_iff.mp h
    cases heq
    exact hkeeps.halted.trans ha.2
  | bridge l, .hear news =>
    cases h
    exact (l.take_keeps news).current.trans ha.2
  | graph s, .hear news => cases h
  | bridge l, .run x => cases h

theorem message_keeps {text : String} (h : a.message text = .ok b) : a.Keeps b := by
  cases a with
  | graph s =>
    obtain ⟨t, ht, rfl⟩ := Json.map_ok h
    obtain ⟨_, rfl⟩ := Graph.Session.accept_ok ht
    exact ⟨rfl, rfl⟩
  | bridge l =>
    obtain ⟨k, hk, rfl⟩ := Json.map_ok h
    have hkeeps := (Bridge.Link.send_keeps hk).1
    exact ⟨hkeeps.session, congrArg Option.isNone hkeeps.current⟩

theorem cancel_keeps (h : a.cancel = .ok b) : a.Keeps b ∧ b.runs = a.runs := by
  cases a with
  | graph s =>
    cases h
    exact ⟨⟨rfl, rfl⟩, rfl⟩
  | bridge l =>
    obtain ⟨k, hk, rfl⟩ := Json.map_ok h
    have hkeeps := (Bridge.Link.send_keeps hk).1
    exact ⟨⟨hkeeps.session, congrArg Option.isNone hkeeps.current⟩, rfl⟩

/-- An adapter that was handed a message or a cancel. -/
theorem handed_keeps (h : (∃ text, a.message text = .ok b) ∨ a.cancel = .ok b) : a.Keeps b := by
  rcases h with ⟨text, hmessage⟩ | hcancel
  · exact message_keeps hmessage
  · exact (cancel_keeps hcancel).1

theorem stop_halts (a : Adapter) :
    a.stop.1.session = a.session ∧ a.stop.1.halted = true ∧ a.stop.1.runs = a.runs := by
  cases a with
  | graph s => exact ⟨rfl, rfl, rfl⟩
  | bridge l =>
    have hstop : l.stop.1.session = l.session ∧ l.stop.1.current = none := by
      unfold Bridge.Link.stop
      cases hcurrent : l.current with
      | none => exact ⟨rfl, hcurrent⟩
      | some key => exact ⟨rfl, rfl⟩
    exact ⟨hstop.1, congrArg Option.isNone hstop.2, rfl⟩

/-- What is left of an adapter that nobody refers to any more. -/
structure Past (a b : Adapter) : Prop where
  session : b.session = a.session
  runs : b.runs = a.runs
  halted : b.halted = false → a.halted = false

theorem Past.refl (a : Adapter) : Past a a := ⟨rfl, rfl, id⟩

theorem discard_past (a : Adapter) : Past a a.discard := by
  cases a with
  | graph s => exact .refl _
  | bridge l =>
    have hdiscard : l.discard.session = l.session ∧ l.discard.current = none := by
      unfold Bridge.Link.discard
      cases hcurrent : l.current with
      | none => exact ⟨rfl, hcurrent⟩
      | some key => exact ⟨rfl, rfl⟩
    refine ⟨hdiscard.1, rfl, fun hlive => ?_⟩
    have hhalted : (bridge l.discard).halted = true := congrArg Option.isNone hdiscard.2
    cases hhalted.symm.trans hlive

end Adapter

end Session

end Fleet
