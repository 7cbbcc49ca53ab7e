import Fleet.Proofs.Logs
import Mathlib.Data.List.Nodup

/-!
What cancels may do to the runs of a session, as a log of what happens. A cancel reaches the runs whose message
was accepted before it and that have not ended, and no other; one that still waits for others when a cancel
is issued is never worked on.
-/

namespace Fleet

/-- What happens to the runs of a session, which go by number. -/
inductive Happening where
  /-- A message is accepted; it makes a run. -/
  | accepted (run : Nat)
  /-- A cancel is issued, by itself or by what ends the session. -/
  | cancelled
  /-- The run no longer waits for others. -/
  | entered (run : Nat)
  /-- The run does some of its work. -/
  | worked (run : Nat)
  | ended (run : Nat) (cancelled : Bool)
  deriving DecidableEq, Repr

namespace Happening

def accepted? : Happening → Option Nat
  | accepted n => some n
  | _ => none

def isCancel : Happening → Bool
  | cancelled => true
  | _ => false

variable {log before after : List Happening} {n m : Nat} {e : Happening} {c : Bool}

/-- A cancel was issued after the run was accepted. -/
def Cancelled (log : List Happening) (n : Nat) : Prop :=
  ∃ before after, log = before ++ accepted n :: after ∧ cancelled ∈ after

/-- A cancel was issued while the run was waiting for others. -/
def Overtaken (log : List Happening) (n : Nat) : Prop :=
  ∃ before after, log = before ++ cancelled :: after ∧ accepted n ∈ before ∧ entered n ∉ before

/-- Each accepted message has a run of its own, which works and ends only after it has stopped waiting. A run
ends as cancelled only if a cancel was issued since its message was accepted, and one that was overtaken by a
cancel does no work and ends in no other way. -/
structure InScope (log : List Happening) : Prop where
  distinct : (log.filterMap accepted?).Nodup
  entered : ∀ n, .entered n ∈ log → .accepted n ∈ log
  worked : ∀ n, .worked n ∈ log → .entered n ∈ log
  ended : ∀ n c, .ended n c ∈ log → .entered n ∈ log
  caused : ∀ before after n, log = before ++ .ended n true :: after → Cancelled before n
  spared : ∀ n, Overtaken log n → .worked n ∉ log ∧ .ended n false ∉ log

/-! ### One more happening -/

theorem cancelled_concat :
    Cancelled (log ++ [e]) n ↔ Cancelled log n ∨ e = cancelled ∧ accepted n ∈ log := by
  constructor
  · rintro ⟨before, after, hlog, hmem⟩
    obtain ⟨rest, rfl, rfl⟩ | ⟨-, -, rfl⟩ := concat_split hlog
    · rcases List.mem_append.mp hmem with hmem | hmem
      · exact .inl ⟨before, rest, rfl, hmem⟩
      · exact .inr ⟨(List.mem_singleton.mp hmem).symm, by simp⟩
    · cases hmem
  · rintro (⟨before, after, rfl, hmem⟩ | ⟨rfl, hmem⟩)
    · exact ⟨before, after ++ [e], by simp, List.mem_append_left _ hmem⟩
    · obtain ⟨before, after, rfl⟩ := List.append_of_mem hmem
      exact ⟨before, after ++ [cancelled], by simp, by simp⟩

theorem overtaken_concat :
    Overtaken (log ++ [e]) n ↔ Overtaken log n ∨ e = cancelled ∧ accepted n ∈ log ∧ entered n ∉ log := by
  constructor
  · rintro ⟨before, after, hlog, haccepted, hentered⟩
    obtain ⟨rest, rfl, rfl⟩ | ⟨rfl, rfl, rfl⟩ := concat_split hlog
    · exact .inl ⟨before, rest, rfl, haccepted, hentered⟩
    · exact .inr ⟨rfl, haccepted, hentered⟩
  · rintro (⟨before, after, rfl, haccepted, hentered⟩ | ⟨rfl, haccepted, hentered⟩)
    · exact ⟨before, after ++ [e], by simp, haccepted, hentered⟩
    · exact ⟨log, [], rfl, haccepted, hentered⟩

theorem Overtaken.accepted (h : Overtaken log n) : accepted n ∈ log := by
  obtain ⟨before, after, rfl, haccepted, -⟩ := h
  exact List.mem_append_left _ haccepted

theorem Overtaken.cancelled (h : Overtaken log n) : Cancelled log n := by
  obtain ⟨before, after, rfl, haccepted, -⟩ := h
  obtain ⟨front, back, rfl⟩ := List.append_of_mem haccepted
  exact ⟨front, back ++ .cancelled :: after, by simp, by simp⟩

/-- As long as a run waits, the cancels since it was accepted are those that overtook it. -/
theorem Cancelled.overtaken (h : Cancelled log n) (hwaits : entered n ∉ log) : Overtaken log n := by
  obtain ⟨before, after, rfl, hmem⟩ := h
  obtain ⟨front, back, rfl⟩ := List.append_of_mem hmem
  refine ⟨before ++ .accepted n :: front, back, by simp, by simp, fun hentered => hwaits ?_⟩
  rw [← List.cons_append, ← List.append_assoc]
  exact List.mem_append_left _ hentered

theorem accepted?_concat (log : List Happening) (e : Happening) :
    (log ++ [e]).filterMap accepted? = log.filterMap accepted? ++ e.accepted?.toList := by
  rw [List.filterMap_append]
  cases h : e.accepted? <;> simp [h]

theorem mem_accepted : n ∈ log.filterMap accepted? ↔ accepted n ∈ log := by
  rw [List.mem_filterMap]
  constructor
  · rintro ⟨e, he, hn⟩
    cases e with
    | accepted m =>
      cases hn
      exact he
    | _ => cases hn
  · exact fun h => ⟨_, h, rfl⟩

theorem Cancelled.accepted (h : Cancelled log n) : accepted n ∈ log := by
  obtain ⟨before, after, rfl, -⟩ := h
  simp

/-- What may happen next. -/
structure MayFollow (log : List Happening) (e : Happening) : Prop where
  accepted : ∀ n, e = .accepted n → .accepted n ∉ log
  entered : ∀ n, e = .entered n → .accepted n ∈ log
  worked : ∀ n, e = .worked n → .entered n ∈ log ∧ ¬ Overtaken log n
  ended : ∀ n c, e = .ended n c →
    .entered n ∈ log ∧ (c = true → Cancelled log n) ∧ (c = false → ¬ Overtaken log n)

theorem InScope.concat (h : InScope log) (he : MayFollow log e) : InScope (log ++ [e]) := by
  have hentered {n : Nat} (hn : .entered n ∈ log) : .entered n ∈ log ++ [e] := List.mem_append_left _ hn
  refine ⟨?_, fun n hn => ?_, fun n hn => ?_, fun n c hn => ?_, fun before after n hlog => ?_,
    fun n hn => ?_⟩
  · rw [accepted?_concat]
    cases e with
    | accepted n =>
      refine h.distinct.append (List.nodup_singleton n) ?_
      intro m hm hmem
      rw [List.mem_singleton.mp hmem] at hm
      exact he.accepted n rfl (mem_accepted.mp hm)
    | _ => simpa [accepted?] using h.distinct
  · rcases List.mem_append.mp hn with hn | hn
    · exact List.mem_append_left _ (h.entered n hn)
    · exact List.mem_append_left _ (he.entered n (List.mem_singleton.mp hn).symm)
  · rcases List.mem_append.mp hn with hn | hn
    · exact hentered (h.worked n hn)
    · exact hentered (he.worked n (List.mem_singleton.mp hn).symm).1
  · rcases List.mem_append.mp hn with hn | hn
    · exact hentered (h.ended n c hn)
    · exact hentered (he.ended n c (List.mem_singleton.mp hn).symm).1
  · obtain ⟨rest, rfl, -⟩ | ⟨rfl, he', -⟩ := concat_split hlog
    · exact h.caused before rest n rfl
    · exact (he.ended n true he'.symm).2.1 rfl
  · rw [overtaken_concat] at hn
    rcases hn with hn | ⟨rfl, haccepted, hwaits⟩
    · obtain ⟨hworked, hended⟩ := h.spared n hn
      refine ⟨fun hmem => ?_, fun hmem => ?_⟩
      · rcases List.mem_append.mp hmem with hmem | hmem
        · exact hworked hmem
        · exact (he.worked n (List.mem_singleton.mp hmem).symm).2 hn
      · rcases List.mem_append.mp hmem with hmem | hmem
        · exact hended hmem
        · exact (he.ended n false (List.mem_singleton.mp hmem).symm).2.2 rfl hn
    · -- a run that waits has done nothing yet
      refine ⟨fun hmem => hwaits (h.worked n ?_), fun hmem => hwaits (h.ended n false ?_)⟩
      · simpa using hmem
      · simpa using hmem

/-! ### The runs that are not over -/

/-- A run that waits, and whether it is cancelled. -/
structure Waits (log : List Happening) (x : Nat × Bool) : Prop where
  accepted : .accepted x.1 ∈ log
  waits : .entered x.1 ∉ log
  cancelled : x.2 = true ↔ Cancelled log x.1

/-- A run that waits no longer, and whether it is cancelled. -/
structure Holds (log : List Happening) (x : Nat × Bool) : Prop where
  entered : .entered x.1 ∈ log
  cancelled : x.2 = true ↔ Cancelled log x.1

variable {waiting rest : List (Nat × Bool)} {active : Option (Nat × Bool)} {next : Nat} {x : Nat × Bool}

theorem cancelled_concat_of_accepted (haccepted : accepted n ∈ log) (b : Bool)
    (hb : b = true ↔ Cancelled log n) : (e.isCancel || b) = true ↔ Cancelled (log ++ [e]) n := by
  rw [cancelled_concat, Bool.or_eq_true, hb, or_comm, and_iff_left haccepted]
  cases e <;> simp [isCancel]

theorem Waits.concat (h : Waits log x) (he : e ≠ .entered x.1) :
    Waits (log ++ [e]) (x.1, e.isCancel || x.2) where
  accepted := List.mem_append_left _ h.accepted
  waits hmem := by
    rcases List.mem_append.mp hmem with hmem | hmem
    · exact h.waits hmem
    · exact he (List.mem_singleton.mp hmem).symm
  cancelled := cancelled_concat_of_accepted h.accepted x.2 h.cancelled

theorem Holds.concat (h : Holds log x) (hlog : InScope log) :
    Holds (log ++ [e]) (x.1, e.isCancel || x.2) where
  entered := List.mem_append_left _ h.entered
  cancelled := cancelled_concat_of_accepted (hlog.entered _ h.entered) x.2 h.cancelled

/-- A log beside the runs that are not over: those that wait and the one that does not, each with whether it is
cancelled. New runs get the next number. -/
structure Books (log : List Happening) (waiting : List (Nat × Bool)) (active : Option (Nat × Bool))
    (next : Nat) : Prop where
  scope : InScope log
  known : ∀ n, .accepted n ∈ log → n < next
  distinct : (waiting.map Prod.fst).Nodup
  waiting : ∀ x ∈ waiting, Waits log x
  active : ∀ x ∈ active, Holds log x

namespace Books

theorem start : Books [] [] none 0 where
  scope :=
    { distinct := List.nodup_nil
      entered := by simp
      worked := by simp
      ended := by simp
      caused := by simp
      spared := by
        rintro n ⟨before, after, hlog, -⟩
        simp at hlog }
  known := by simp
  distinct := List.nodup_nil
  waiting := by simp
  active := by simp

/-- Most happenings leave the runs where they are; a cancel reaches all of them. -/
theorem concat (h : Books log waiting active next) (he : MayFollow log e) (haccepted : e.accepted? = none)
    (hentered : ∀ n, e ≠ .entered n) :
    Books (log ++ [e]) (waiting.map fun x => (x.1, e.isCancel || x.2))
      (active.map fun x => (x.1, e.isCancel || x.2)) next where
  scope := h.scope.concat he
  known n hn := by
    refine h.known n ?_
    rw [← mem_accepted, accepted?_concat, haccepted] at hn
    simpa using mem_accepted.mp (by simpa using hn)
  distinct := by simpa [Function.comp_def] using h.distinct
  waiting y hy := by
    obtain ⟨x, hx, rfl⟩ := List.mem_map.mp hy
    exact (h.waiting x hx).concat (hentered _)
  active y hy := by
    obtain ⟨x, hx, rfl⟩ := Option.map_eq_some_iff.mp hy
    exact (h.active x hx).concat h.scope

theorem cancel (h : Books log waiting active next) :
    Books (log ++ [.cancelled]) (waiting.map fun x => (x.1, true)) (active.map fun x => (x.1, true)) next :=
  h.concat ⟨nofun, nofun, nofun, nofun⟩ rfl nofun

/-- A run that no cancel has overtaken may do some work. -/
theorem work (h : Books log waiting (some x) next) (hx : ¬ Overtaken log x.1) :
    Books (log ++ [.worked x.1]) waiting (some x) next := by
  have hfollows : MayFollow log (.worked x.1) := by
    refine ⟨nofun, nofun, fun n hn => ?_, nofun⟩
    cases hn
    exact ⟨(h.active x rfl).entered, hx⟩
  simpa [isCancel] using h.concat hfollows rfl nofun

/-- The run that waits no longer ends. -/
theorem finish (h : Books log waiting (some x) next) (hc : c = true → x.2 = true)
    (hspared : c = false → ¬ Overtaken log x.1) : Books (log ++ [.ended x.1 c]) waiting none next := by
  have hfollows : MayFollow log (.ended x.1 c) := by
    refine ⟨nofun, nofun, nofun, fun n d hn => ?_⟩
    cases hn
    exact ⟨(h.active x rfl).entered, fun hd => (h.active x rfl).cancelled.mp (hc hd), hspared⟩
  have hended := h.concat hfollows rfl nofun
  exact { hended with
    waiting := by simpa [isCancel] using hended.waiting
    distinct := h.distinct
    active := by simp }

/-- A new run waits, and no cancel has reached it. -/
theorem accept (h : Books log waiting active next) :
    Books (log ++ [.accepted next]) (waiting ++ [(next, false)]) active (next + 1) := by
  have hfresh : accepted next ∉ log := fun hmem => Nat.lt_irrefl _ (h.known next hmem)
  have hfollows : MayFollow log (.accepted next) := by
    refine ⟨fun n hn => ?_, nofun, nofun, nofun⟩
    cases hn
    exact hfresh
  refine ⟨h.scope.concat hfollows, fun n hn => ?_, ?_, fun x hx => ?_,
    fun x hx => (h.active x hx).concat h.scope⟩
  · rcases List.mem_append.mp hn with hn | hn
    · exact Nat.lt_succ_of_lt (h.known n hn)
    · cases List.mem_singleton.mp hn
      exact Nat.lt_succ_self _
  · rw [List.map_append]
    refine h.distinct.append (List.nodup_singleton _) fun n hn hmem => ?_
    obtain ⟨y, hy, rfl⟩ := List.mem_map.mp hn
    have hlt := h.known y.1 (h.waiting y hy).accepted
    rw [List.mem_singleton.mp hmem] at hlt
    exact Nat.lt_irrefl _ hlt
  · rcases List.mem_append.mp hx with hx | hx
    · exact (h.waiting x hx).concat nofun
    · obtain rfl := List.mem_singleton.mp hx
      refine ⟨by simp, fun hmem => hfresh (h.scope.entered next (by simpa using hmem)), ?_⟩
      rw [cancelled_concat]
      simp only [Bool.false_eq_true, reduceCtorEq, false_and, or_false, false_iff]
      exact fun hc => hfresh hc.accepted

/-- A run that waits goes on; the others still wait. -/
theorem enter (h : Books log waiting none next) (hx : x ∈ waiting) (hrest : rest.Sublist waiting)
    (hgone : x.1 ∉ rest.map Prod.fst) : Books (log ++ [.entered x.1]) rest (some x) next := by
  have hfollows : MayFollow log (.entered x.1) := by
    refine ⟨nofun, fun n hn => ?_, nofun, nofun⟩
    cases hn
    exact (h.waiting x hx).accepted
  refine ⟨h.scope.concat hfollows, fun n hn => h.known n (by simpa using hn),
    h.distinct.sublist (hrest.map _), fun y hy => ?_, fun y hy => ?_⟩
  · refine (h.waiting y (hrest.subset hy)).concat fun he => hgone ?_
    rw [entered.inj he]
    exact List.mem_map_of_mem hy
  · cases hy
    have hcancelled := cancelled_concat_of_accepted (e := .entered x.1) (h.waiting x hx).accepted x.2
      (h.waiting x hx).cancelled
    exact ⟨by simp, hcancelled⟩

/-- Runs that are given up are not heard of again. -/
theorem drop (h : Books log waiting active next) : Books log [] none next :=
  { h with waiting := by simp, distinct := List.nodup_nil, active := by simp }

/-- A run is overtaken while it waits or not at all. -/
theorem overtaken_of_enter (h : Books log waiting none next) (hx : x ∈ waiting) :
    Overtaken (log ++ [.entered x.1]) x.1 ↔ x.2 = true := by
  rw [overtaken_concat, (h.waiting x hx).cancelled]
  simp only [reduceCtorEq, false_and, or_false]
  exact ⟨Overtaken.cancelled, fun hc => hc.overtaken (h.waiting x hx).waits⟩

theorem overtaken_later (h : Books log waiting (some x) next) :
    Overtaken (log ++ [e]) x.1 ↔ Overtaken log x.1 := by
  rw [overtaken_concat]
  exact or_iff_left fun hc => hc.2.2 (h.active x rfl).entered

end Books

end Happening

end Fleet
