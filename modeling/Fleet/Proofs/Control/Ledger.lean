import Fleet.Control.Reports
import Mathlib.Algebra.GroupWithZero.Nat
import Mathlib.Data.List.DropRight

/-!
What machines reported, as a log, and what is held of it. Of each kind the newest entries are held, and of each
user's usage the sums up to the largest count; a report that is refused does not come into the log and leaves
nothing behind.
-/

namespace Fleet.Control

namespace Reports

/-- A user's machine reports something. -/
structure Filing where
  user : String
  method : String
  payload : Json

/-- A report that was accepted, and whose it is. -/
structure Entry where
  user : String
  report : Report

/-- A filing is taken up; one that is refused leaves all as it is. -/
def take (r : Reports) (f : Filing) : Reports :=
  match r.handle f.user f.method f.payload with
  | .ok held => held
  | .error _ => r

def play (filings : List Filing) (r : Reports) : Reports := filings.foldl take r

def logged? (f : Filing) : Option Entry := (Report.read f.method f.payload).toOption.map (⟨f.user, ·⟩)

/-- The log: what was accepted, oldest first. -/
def accepted (filings : List Filing) : List Entry := filings.filterMap logged?

def enter (r : Reports) (e : Entry) : Reports := r.accept e.user e.report

/-! ### What there is in the log -/

namespace Entry

/-- A snapshot of one session of a user: its number, if it came with one, and the state. -/
def snapshot? (user session : String) : Entry → Option (Option Nat × Json)
  | ⟨u, .snapshot s sequence state⟩ => if u = user ∧ s = session then some (sequence, state) else none
  | _ => none

def note? (user : String) : Entry → Option Note
  | ⟨u, .note session content⟩ =>
    if u = user ∧ Text.isAllBlank content = false then some ⟨session, content⟩ else none
  | _ => none

/-- The tokens that went in and came out. -/
def usage? (user : String) : Entry → Option (Nat × Nat)
  | ⟨u, .usage input output⟩ => if u = user then some (input, output) else none
  | _ => none

def audit? : Entry → Option Record
  | ⟨u, .audit payload⟩ => some ⟨u, payload⟩
  | _ => none

def evolution? : Entry → Option Record
  | ⟨u, .evolution payload⟩ => some ⟨u, payload⟩
  | _ => none

end Entry

/-- The number after another one. Numbers start with one and stay at the largest. -/
def following : Option Nat → Nat
  | none => 1
  | some n => min (n + 1) Usage.limit

/-- Snapshots with their numbers: their own ones, or else the one that follows the number before. -/
def numbered (session : String) : Option Nat → List (Option Nat × Json) → List Snapshot
  | _, [] => []
  | before, (sequence, state) :: rest =>
    let n := sequence.getD (following before)
    ⟨session, n, state⟩ :: numbered session (some n) rest

/-- What a user's reports of usage come to. -/
def totals (reports : List (Nat × Nat)) : Usage :=
  ⟨min (reports.map Prod.fst).sum Usage.limit, min (reports.map Prod.snd).sum Usage.limit,
    min reports.length Usage.limit⟩

/-- What is held is what the log gives. -/
structure Follows (r : Reports) (log : List Entry) : Prop where
  snapshots : ∀ user session, r.snapshotsOf user session =
    (numbered session none (log.filterMap (Entry.snapshot? user session))).rtake snapshotLimit
  notes : ∀ user, r.notesOf user = (log.filterMap (Entry.note? user)).rtake noteLimit
  usage : ∀ user, r.usageOf user = totals (log.filterMap (Entry.usage? user))
  audit : r.audit = (log.filterMap Entry.audit?).rtake auditLimit
  evolution : r.evolution = (log.filterMap Entry.evolution?).rtake evolutionLimit

variable {r : Reports} {log : List Entry} {user session : String} {f : Filing} {filings : List Filing}

/-! ### Bounded lists -/

/-- The end of a list with one more entry needs no more of the list than its own end. -/
theorem pushBounded_rtake {α : Type} (limit : Nat) (xs : List α) (x : α) :
    pushBounded limit (xs.rtake limit) x = (xs ++ [x]).rtake limit := by
  have hend : xs.rtake limit ++ [x] = (xs ++ [x]).drop (xs.length - limit) := by
    rw [List.rtake, List.drop_append_of_le_length (Nat.sub_le _ _)]
  unfold pushBounded
  dsimp only
  rw [hend, List.drop_drop, List.rtake]
  congr 1
  simp only [List.length_drop, List.length_append, List.length_singleton]
  omega

theorem getLast?_rtake {α : Type} (n : Nat) (xs : List α) : (xs.rtake (n + 1)).getLast? = xs.getLast? := by
  cases xs using List.reverseRecOn with
  | nil => rw [List.rtake_nil]
  | append_singleton xs x => rw [List.rtake_concat_succ, List.getLast?_concat, List.getLast?_concat]

/-- Under the key that was changed stands the changed value, and elsewhere what stood there. -/
theorem lookup_change {κ α : Type} [DecidableEq κ] [BEq κ] [LawfulBEq κ] (key : κ) (fresh : α) (f : α → α)
    (xs : List (κ × α)) (k : κ) : ((change key fresh f xs).lookup k).getD fresh =
      if k = key then f ((xs.lookup key).getD fresh) else (xs.lookup k).getD fresh := by
  induction xs with
  | nil =>
    by_cases hk : k = key
    · simp [change, hk]
    · simp [change, hk, List.lookup_cons, beq_false_of_ne hk]
  | cons x rest ih =>
    obtain ⟨l, a⟩ := x
    unfold change
    by_cases hl : l = key
    · subst hl
      by_cases hk : k = l
      · simp [hk]
      · simp [hk, List.lookup_cons, beq_false_of_ne hk]
    · rw [if_neg hl, List.lookup_cons, List.lookup_cons, List.lookup_cons, beq_false_of_ne (Ne.symm hl)]
      by_cases hk : k = l
      · subst hk
        simp [hl]
      · rw [beq_false_of_ne hk]
        exact ih

/-! ### Numbers of snapshots -/

theorem numbered_concat (session : String) (before : Option Nat) (xs : List (Option Nat × Json))
    (sequence : Option Nat) (state : Json) : numbered session before (xs ++ [(sequence, state)]) =
      numbered session before xs ++ [⟨session, sequence.getD
        (following (((numbered session before xs).getLast?.map Snapshot.sequence).or before)), state⟩] := by
  induction xs generalizing before with
  | nil => rfl
  | cons x rest ih =>
    obtain ⟨n?, s⟩ := x
    simp only [List.cons_append, numbered, ih]
    cases hrest : (numbered session (some (n?.getD (following before))) rest).getLast? with
    | none => simp [List.getLast?_eq_none_iff.mp hrest]
    | some last =>
      rw [List.getLast?_cons, hrest]
      rfl

theorem nextSequence_eq (held : List Snapshot) :
    nextSequence held = following (held.getLast?.map Snapshot.sequence) := by
  unfold nextSequence
  cases held.getLast? <;> rfl

/-! ### Sums of usage -/

theorem add_saturated (a b : Nat) : Usage.saturate (min a Usage.limit + b) = min (a + b) Usage.limit := by
  unfold Usage.saturate
  omega

theorem totals_concat (xs : List (Nat × Nat)) (input output : Nat) :
    totals (xs ++ [(input, output)]) = (totals xs).add input output := by
  simp only [totals, Usage.add, add_saturated, List.map_append, List.sum_append, List.length_append,
    List.map_cons, List.map_nil, List.sum_singleton, List.length_singleton]

/-! ### One report -/

theorem snapshotsOf_change (r : Reports) (user session : String) (key : String × String)
    (f : List Snapshot → List Snapshot) :
    { r with snapshots := change key [] f r.snapshots }.snapshotsOf user session =
      if (user, session) = key then f (r.snapshotsOf key.1 key.2) else r.snapshotsOf user session :=
  lookup_change key [] f r.snapshots (user, session)

theorem notesOf_change (r : Reports) (user other : String) (f : List Note → List Note) :
    { r with notes := change other [] f r.notes }.notesOf user =
      if user = other then f (r.notesOf other) else r.notesOf user :=
  lookup_change other [] f r.notes user

theorem usageOf_change (r : Reports) (user other : String) (f : Usage → Usage) :
    { r with usage := change other {} f r.usage }.usageOf user =
      if user = other then f (r.usageOf other) else r.usageOf user :=
  lookup_change other ({} : Usage) f r.usage user

/-- A snapshot of the session comes to those that are held of it; any other report leaves them. -/
theorem snapshotsOf_enter (r : Reports) (user session : String) (e : Entry) :
    (r.enter e).snapshotsOf user session = (e.snapshot? user session).elim (r.snapshotsOf user session)
      fun x => pushBounded snapshotLimit (r.snapshotsOf user session) (r.snapshotFor user session x.1 x.2) := by
  obtain ⟨other, report⟩ := e
  cases report with
  | snapshot s sequence state =>
    simp only [enter, accept, Entry.snapshot?]
    rw [snapshotsOf_change]
    by_cases hkey : other = user ∧ s = session
    · obtain ⟨rfl, rfl⟩ := hkey
      rw [if_pos rfl, if_pos ⟨rfl, rfl⟩, Option.elim_some]
    · have hne : (user, session) ≠ (other, s) := by
        intro he
        obtain ⟨rfl, rfl⟩ := Prod.mk.inj he
        exact hkey ⟨rfl, rfl⟩
      rw [if_neg hne, if_neg hkey, Option.elim_none]
  | note s content =>
    simp only [enter, accept, Entry.snapshot?, Option.elim_none]
    split <;> rfl
  | usage | audit | evolution => simp only [enter, accept, Entry.snapshot?, Option.elim_none, snapshotsOf]

theorem notesOf_enter (r : Reports) (user : String) (e : Entry) : (r.enter e).notesOf user =
    (e.note? user).elim (r.notesOf user) (pushBounded noteLimit (r.notesOf user)) := by
  obtain ⟨other, report⟩ := e
  cases report with
  | note session content =>
    simp only [enter, accept, Entry.note?]
    cases hblank : Text.isAllBlank content with
    | true => simp only [if_true, reduceCtorEq, and_false, if_false, Option.elim_none]
    | false =>
      rw [if_neg Bool.false_ne_true, notesOf_change]
      by_cases hu : user = other
      · subst hu
        rw [if_pos rfl, if_pos ⟨rfl, rfl⟩, Option.elim_some]
      · rw [if_neg hu, if_neg fun h => hu h.1.symm, Option.elim_none]
  | snapshot | usage | audit | evolution => simp only [enter, accept, Entry.note?, Option.elim_none, notesOf]

theorem usageOf_enter (r : Reports) (user : String) (e : Entry) : (r.enter e).usageOf user =
    (e.usage? user).elim (r.usageOf user) fun x => (r.usageOf user).add x.1 x.2 := by
  obtain ⟨other, report⟩ := e
  cases report with
  | usage input output =>
    simp only [enter, accept, Entry.usage?]
    rw [usageOf_change]
    by_cases hu : user = other
    · subst hu
      rw [if_pos rfl, if_pos rfl, Option.elim_some]
    · rw [if_neg hu, if_neg (Ne.symm hu), Option.elim_none]
  | note s content =>
    simp only [enter, accept, Entry.usage?, Option.elim_none]
    split <;> rfl
  | snapshot | audit | evolution => simp only [enter, accept, Entry.usage?, Option.elim_none, usageOf]

theorem audit_enter (r : Reports) (e : Entry) :
    (r.enter e).audit = e.audit?.elim r.audit (pushBounded auditLimit r.audit) := by
  obtain ⟨other, report⟩ := e
  cases report with
  | note s content =>
    simp only [enter, accept, Entry.audit?, Option.elim_none]
    split <;> rfl
  | audit => simp only [enter, accept, Entry.audit?, Option.elim_some]
  | snapshot | usage | evolution => simp only [enter, accept, Entry.audit?, Option.elim_none]

theorem evolution_enter (r : Reports) (e : Entry) :
    (r.enter e).evolution = e.evolution?.elim r.evolution (pushBounded evolutionLimit r.evolution) := by
  obtain ⟨other, report⟩ := e
  cases report with
  | note s content =>
    simp only [enter, accept, Entry.evolution?, Option.elim_none]
    split <;> rfl
  | evolution => simp only [enter, accept, Entry.evolution?, Option.elim_some]
  | snapshot | usage | audit => simp only [enter, accept, Entry.evolution?, Option.elim_none]

/-! ### The whole log -/

theorem Follows.empty : Follows {} [] where
  snapshots _ _ := (List.rtake_nil _).symm
  notes _ := (List.rtake_nil _).symm
  usage _ := by
    simp only [List.filterMap_nil, totals, List.map_nil, List.sum_nil, List.length_nil, Nat.zero_min]
    rfl
  audit := (List.rtake_nil _).symm
  evolution := (List.rtake_nil _).symm

theorem filterMap_concat {α β : Type} (pick? : β → Option α) (xs : List β) (x : β) :
    (xs ++ [x]).filterMap pick? = xs.filterMap pick? ++ (pick? x).toList := by
  rw [List.filterMap_append]
  cases h : pick? x <;> simp [h]

/-- A bounded list that follows the log follows it with one more entry. -/
theorem rtake_concat {α : Type} {limit : Nat} {held : List α} {pick? : Entry → Option α}
    (h : held = (log.filterMap pick?).rtake limit) (e : Entry) :
    (pick? e).elim held (pushBounded limit held) = ((log ++ [e]).filterMap pick?).rtake limit := by
  rw [filterMap_concat, h]
  cases pick? e with
  | none => rw [Option.toList_none, List.append_nil, Option.elim_none]
  | some x => exact pushBounded_rtake limit _ x

/-- What is held of the snapshots of a session ends with the last of them all, so the next one gets the number
it has in the log. -/
theorem Follows.snapshotFor (h : r.Follows log) (user session : String) (sequence : Option Nat) (state : Json) :
    let all := numbered session none (log.filterMap (Entry.snapshot? user session))
    numbered session none (log.filterMap (Entry.snapshot? user session) ++ [(sequence, state)]) =
      all ++ [r.snapshotFor user session sequence state] := by
  intro all
  rw [numbered_concat, Option.or_none, Reports.snapshotFor, nextSequence_eq, h.snapshots, snapshotLimit,
    getLast?_rtake]

theorem Follows.enter (h : r.Follows log) (e : Entry) : (r.enter e).Follows (log ++ [e]) where
  snapshots user session := by
    rw [snapshotsOf_enter, filterMap_concat]
    cases e.snapshot? user session with
    | none => rw [Option.toList_none, List.append_nil, Option.elim_none, h.snapshots]
    | some x => rw [Option.toList_some, h.snapshotFor, Option.elim_some, h.snapshots, pushBounded_rtake]
  notes user := (notesOf_enter r user e).trans (rtake_concat (h.notes user) e)
  usage user := by
    rw [usageOf_enter, filterMap_concat]
    cases e.usage? user with
    | none => rw [Option.toList_none, List.append_nil, Option.elim_none, h.usage]
    | some x => rw [Option.toList_some, totals_concat, Option.elim_some, h.usage]
  audit := (audit_enter r e).trans (rtake_concat h.audit e)
  evolution := (evolution_enter r e).trans (rtake_concat h.evolution e)

/-- A filing is refused and no entry of the log, or it is accepted as the entry that it is. -/
theorem handle_cases (r : Reports) (f : Filing) :
    (∃ e, r.handle f.user f.method f.payload = .error e ∧ logged? f = none) ∨
      ∃ report, r.handle f.user f.method f.payload = .ok (r.enter ⟨f.user, report⟩) ∧
        logged? f = some ⟨f.user, report⟩ := by
  unfold handle logged?
  cases hread : Report.read f.method f.payload with
  | error e => exact .inl ⟨e, rfl, rfl⟩
  | ok report => exact .inr ⟨report, rfl, rfl⟩

theorem take_eq (r : Reports) (f : Filing) : r.take f = ((logged? f).toList).foldl enter r := by
  unfold take
  obtain ⟨e, hhandle, hentry⟩ | ⟨report, hhandle, hentry⟩ := handle_cases r f
  · rw [hhandle, hentry]
    rfl
  · rw [hhandle, hentry]
    rfl

theorem accepted_concat (filings : List Filing) (f : Filing) :
    accepted (filings ++ [f]) = accepted filings ++ (logged? f).toList := filterMap_concat logged? filings f

theorem play_concat (filings : List Filing) (f : Filing) (r : Reports) :
    play (filings ++ [f]) r = (play filings r).take f := List.foldl_append

/-- What is held comes of the log alone. -/
theorem play_eq (filings : List Filing) (r : Reports) : play filings r = (accepted filings).foldl enter r := by
  induction filings using List.reverseRecOn with
  | nil => rfl
  | append_singleton filings f ih => rw [play_concat, accepted_concat, List.foldl_append, take_eq, ih]

theorem follows_foldl (log : List Entry) : Follows (log.foldl Reports.enter {}) log := by
  induction log using List.reverseRecOn with
  | nil => exact .empty
  | append_singleton log e ih =>
    rw [List.foldl_append]
    exact ih.enter e

end Reports

end Fleet.Control
