import Fleet.Proofs.Bridge.Orders
import Fleet.Proofs.Logs
import Mathlib.Data.List.Nodup

/-!
What becomes of calls to the control plane, as a log of what is noted of them. A call ends with the first
response that bears its id, or when its time is up; what it got is what that response says.
-/

namespace Fleet.Bridge

/-- How a call ends. -/
inductive Closing where
  | answered (outcome : Except Fault Json)
  | timedOut
  /-- Nobody waits for it any more. -/
  | givenUp

/-- What is noted of calls, and when. -/
inductive Note where
  /-- A call is opened, by a turn or to fetch a skill. -/
  | opened (turn : Option Nat) (id method : String) (params : Json) (time : Nat)
  /-- A response is read. -/
  | heard (id : String) (outcome : Except Fault Json) (time : Nat)
  | closed (id : String) (how : Closing) (time : Nat)
  /-- All turns so far are cancelled. -/
  | cancelled

namespace Note

def openedId? : Note → Option String
  | opened _ id .. => some id
  | _ => none

def closedId? : Note → Option String
  | closed id .. => some id
  | _ => none

/-- What the call got, if this is how it ended. -/
def answer? (id : String) : Note → Option Json
  | closed id' (.answered (.ok v)) _ => if id' = id then some v else none
  | _ => none

/-- What a call got. -/
def answerOf (notes : List Note) (id : String) : Option Json := notes.findSome? (answer? id)

/-- The requests among messages, by the turn that wrote them. -/
def openings (turn : Option Nat) (time : Nat) (out : List Message) : List Note :=
  out.filterMap fun
    | .cpRequest id method params => some (.opened turn id method params time)
    | _ => none

variable {notes more before after : List Note} {id : String} {limit time timeout : Nat} {e x : Note}
  {outcome : Except Fault Json} {pending : Option (String × Nat)}

/-- How a call is over, by what was noted since it was opened: with the first response that bears its id, at
once; or with its time, or given up, before there was one. -/
inductive Ended (limit : Nat) (id : String) : List Note → Prop
  | answered {before after : List Note} {outcome : Except Fault Json} {time : Nat}
    (first : ∀ o t, .heard id o t ∉ before) (early : time ≤ limit) :
    Ended limit id (before ++ .heard id outcome time :: .closed id (.answered outcome) time :: after)
  | timedOut {before after : List Note} (silent : ∀ o t, .heard id o t ∉ before) :
    Ended limit id (before ++ .closed id .timedOut limit :: after)
  | givenUp {before after : List Note} {time : Nat} (silent : ∀ o t, .heard id o t ∉ before)
    (early : time ≤ limit) : Ended limit id (before ++ .closed id .givenUp time :: after)

theorem Ended.append (h : Ended limit id notes) (more : List Note) : Ended limit id (notes ++ more) := by
  cases h with
  | answered first early =>
    rw [List.append_assoc, List.cons_append, List.cons_append]
    exact .answered first early
  | timedOut silent =>
    rw [List.append_assoc, List.cons_append]
    exact .timedOut silent
  | givenUp silent early =>
    rw [List.append_assoc, List.cons_append]
    exact .givenUp silent early

/-- No two calls share an id and none ends twice. Each has ended as it should, or is open and its time is not
up; one is given up only after a cancel. -/
structure Settled (timeout clock : Nat) (notes : List Note) : Prop where
  opened : (notes.filterMap openedId?).Nodup
  closed : (notes.filterMap closedId?).Nodup
  known : notes.filterMap closedId? ⊆ notes.filterMap openedId?
  fates : ∀ before turn id method params time after,
    notes = before ++ .opened turn id method params time :: after →
      Ended (time + timeout) id after ∨
      id ∉ notes.filterMap closedId? ∧ (∀ o t, .heard id o t ∉ after) ∧ clock ≤ time + timeout
  caused : ∀ before id time after, notes = before ++ .closed id .givenUp time :: after → .cancelled ∈ before

/-! ### One call at a time -/

/-- The same, as long as at most one call is open, up to its time. -/
structure Books (timeout : Nat) (notes : List Note) (pending : Option (String × Nat)) : Prop where
  opened : (notes.filterMap openedId?).Nodup
  closed : (notes.filterMap closedId?).Nodup
  known : notes.filterMap closedId? ⊆ notes.filterMap openedId?
  waits : ∀ x ∈ pending, x.1 ∈ notes.filterMap openedId? ∧ x.1 ∉ notes.filterMap closedId?
  fates : ∀ before turn id method params time after,
    notes = before ++ .opened turn id method params time :: after →
      Ended (time + timeout) id after ∨
      pending = some (id, time + timeout) ∧ ∀ o t, .heard id o t ∉ after
  caused : ∀ before id time after, notes = before ++ .closed id .givenUp time :: after → .cancelled ∈ before

theorem mem_openedIds {turn : Option Nat} {method : String} {params : Json}
    (h : .opened turn id method params time ∈ notes) : id ∈ notes.filterMap openedId? :=
  List.mem_filterMap.mpr ⟨_, h, rfl⟩

namespace Books

theorem start (timeout : Nat) : Books timeout [] none := by
  refine ⟨List.nodup_nil, List.nodup_nil, List.Subset.refl _, nofun, ?_, ?_⟩ <;> simp

/-- Some things that are noted say nothing of the call that is open. -/
theorem passes (h : Books timeout notes pending) (hopened : e.openedId? = none) (hclosed : e.closedId? = none)
    (hsilent : ∀ x ∈ pending, ∀ o t, e ≠ .heard x.1 o t) : Books timeout (notes ++ [e]) pending := by
  have hopenedIds : (notes ++ [e]).filterMap openedId? = notes.filterMap openedId? := by
    simp [List.filterMap_append, hopened]
  have hclosedIds : (notes ++ [e]).filterMap closedId? = notes.filterMap closedId? := by
    simp [List.filterMap_append, hclosed]
  refine ⟨hopenedIds ▸ h.opened, hclosedIds ▸ h.closed, ?_, ?_, ?_, ?_⟩
  · rw [hopenedIds, hclosedIds]
    exact h.known
  · rw [hopenedIds, hclosedIds]
    exact h.waits
  · intro before turn id method params time after hnotes
    obtain ⟨rest, hrest, rfl⟩ | ⟨front, -, hmore⟩ := append_split hnotes
    · obtain hended | ⟨hpending, hunheard⟩ := h.fates _ _ _ _ _ _ _ hrest
      · exact .inl (hended.append _)
      · refine .inr ⟨hpending, fun o t hmem => ?_⟩
        rcases List.mem_append.mp hmem with hmem | hmem
        · exact hunheard o t hmem
        · exact hsilent (id, _) hpending o t (List.mem_singleton.mp hmem).symm
    · have hmem : Note.opened turn id method params time ∈ [e] := by simp [hmore]
      rw [← List.mem_singleton.mp hmem] at hopened
      cases hopened
  · intro before id time after hnotes
    obtain ⟨rest, hrest, rfl⟩ | ⟨front, -, hmore⟩ := append_split hnotes
    · exact h.caused _ _ _ _ hrest
    · have hmem : Note.closed id .givenUp time ∈ [e] := by simp [hmore]
      rw [← List.mem_singleton.mp hmem] at hclosed
      cases hclosed

theorem opens (h : Books timeout notes none) (turn : Option Nat) (id method : String) (params : Json)
    (time : Nat) (hfresh : id ∉ notes.filterMap openedId?) :
    Books timeout (notes ++ [.opened turn id method params time]) (some (id, time + timeout)) := by
  have hopenedIds : (notes ++ [Note.opened turn id method params time]).filterMap openedId? =
      notes.filterMap openedId? ++ [id] := by simp [List.filterMap_append, openedId?]
  have hclosedIds : (notes ++ [Note.opened turn id method params time]).filterMap closedId? =
      notes.filterMap closedId? := by simp [List.filterMap_append, closedId?]
  refine ⟨?_, hclosedIds ▸ h.closed, ?_, ?_, ?_, ?_⟩
  · rw [hopenedIds]
    exact h.opened.append (List.nodup_singleton id) fun i hi hmem => hfresh (List.mem_singleton.mp hmem ▸ hi)
  · rw [hopenedIds, hclosedIds]
    exact fun i hi => List.mem_append_left _ (h.known hi)
  · rintro x ⟨⟩
    rw [hopenedIds, hclosedIds]
    exact ⟨by simp, fun hmem => hfresh (h.known hmem)⟩
  · intro before turn' id' method' params' time' after hnotes
    obtain ⟨rest, hrest, rfl⟩ | ⟨front, rfl, hmore⟩ := append_split hnotes
    · obtain hended | ⟨hpending, -⟩ := h.fates _ _ _ _ _ _ _ hrest
      · exact .inl (hended.append _)
      · cases hpending
    · cases front with
      | nil =>
        cases hmore
        exact .inr ⟨rfl, by simp⟩
      | cons y front =>
        have hlength := congrArg List.length hmore
        simp at hlength
  · intro before id' time' after hnotes
    obtain ⟨rest, hrest, rfl⟩ | ⟨front, -, hmore⟩ := append_split hnotes
    · exact h.caused _ _ _ _ hrest
    · have hmem : Note.closed id' .givenUp time' ∈ [Note.opened turn id method params time] := by simp [hmore]
      cases List.mem_singleton.mp hmem

/-- The call that is open ends. -/
theorem closes (h : Books timeout notes (some (id, limit))) (hopened : more.filterMap openedId? = [])
    (hclosed : more.filterMap closedId? = [id])
    (hended : ∀ after, (∀ o t, .heard id o t ∉ after) → Ended limit id (after ++ more))
    (hcaused : ∀ i t, .closed i .givenUp t ∈ more → .cancelled ∈ notes) :
    Books timeout (notes ++ more) none := by
  have hopenedIds : (notes ++ more).filterMap openedId? = notes.filterMap openedId? := by
    rw [List.filterMap_append, hopened, List.append_nil]
  obtain ⟨hknown, hopen⟩ := h.waits _ rfl
  refine ⟨hopenedIds ▸ h.opened, ?_, ?_, nofun, ?_, ?_⟩
  · rw [List.filterMap_append, hclosed]
    exact h.closed.append (List.nodup_singleton id) fun i hi hmem => hopen (List.mem_singleton.mp hmem ▸ hi)
  · rw [hopenedIds, List.filterMap_append, hclosed]
    refine List.append_subset.mpr ⟨h.known, ?_⟩
    exact List.cons_subset.mpr ⟨hknown, List.nil_subset _⟩
  · intro before turn id' method params time after hnotes
    obtain ⟨rest, hrest, rfl⟩ | ⟨front, -, hmore⟩ := append_split hnotes
    · obtain hover | ⟨hpending, hunheard⟩ := h.fates _ _ _ _ _ _ _ hrest
      · exact .inl (hover.append _)
      · cases hpending
        exact .inl (hended _ hunheard)
    · have hmem := mem_openedIds (show Note.opened turn id' method params time ∈ more by simp [hmore])
      rw [hopened] at hmem
      cases hmem
  · intro before id' time after hnotes
    obtain ⟨rest, hrest, rfl⟩ | ⟨front, rfl, hmore⟩ := append_split hnotes
    · exact h.caused _ _ _ _ hrest
    · exact List.mem_append_left _ (hcaused id' time (by simp [hmore]))

theorem answers (h : Books timeout notes (some (id, limit))) (hearly : time ≤ limit) :
    Books timeout (notes ++ [.heard id outcome time, .closed id (.answered outcome) time]) none :=
  h.closes rfl rfl (fun _ hsilent => .answered hsilent hearly) (by simp)

theorem expires (h : Books timeout notes (some (id, limit))) :
    Books timeout (notes ++ [.closed id .timedOut limit]) none :=
  h.closes rfl rfl (fun _ hsilent => .timedOut hsilent) (by simp)

theorem givesUp (h : Books timeout notes (some (id, limit))) (hearly : time ≤ limit)
    (hcancelled : .cancelled ∈ notes) : Books timeout (notes ++ [.closed id .givenUp time]) none :=
  h.closes rfl rfl (fun _ hsilent => .givenUp hsilent hearly) fun _ _ _ => hcancelled

theorem settled (h : Books timeout notes pending) {clock : Nat} (hclock : ∀ x ∈ pending, clock ≤ x.2) :
    Settled timeout clock notes where
  opened := h.opened
  closed := h.closed
  known := h.known
  fates before turn id method params time after hnotes := by
    obtain hended | ⟨hpending, hunheard⟩ := h.fates _ _ _ _ _ _ _ hnotes
    · exact .inl hended
    · exact .inr ⟨(h.waits _ hpending).2, hunheard, hclock _ hpending⟩
  caused := h.caused

end Books

/-! ### What calls got -/

theorem answer?_eq_none (h : e.closedId? ≠ some id) : answer? id e = none := by
  unfold answer?
  split
  · exact if_neg fun hid => h (congrArg some hid)
  · rfl

/-- A call got nothing unless it has ended. -/
theorem answerOf_eq_none (h : id ∉ notes.filterMap closedId?) : answerOf notes id = none := by
  refine List.findSome?_eq_none_iff.mpr fun e he => answer?_eq_none fun hid => h ?_
  exact List.mem_filterMap.mpr ⟨e, he, hid⟩

/-- What a call got does not change. -/
theorem answerOf_append (h : id ∉ more.filterMap closedId?) :
    answerOf (notes ++ more) id = answerOf notes id := by
  have hmore : more.findSome? (answer? id) = none := answerOf_eq_none h
  rw [answerOf, List.findSome?_append, hmore, Option.or_none]
  rfl

theorem answerOf_append_of_open (h : id ∉ notes.filterMap closedId?) :
    answerOf (notes ++ more) id = answerOf more id := by
  have hnotes : notes.findSome? (answer? id) = none := answerOf_eq_none h
  rw [answerOf, List.findSome?_append, hnotes, Option.none_or]
  rfl

theorem answerOf_answered : answerOf [.heard id outcome time, .closed id (.answered outcome) time] id =
    outcome.toOption := by
  cases outcome with
  | error f => rfl
  | ok v =>
    rw [answerOf, List.findSome?_cons_of_isNone, List.findSome?_cons_of_isSome]
    · exact if_pos rfl
    · simp [answer?]
    · rfl

theorem answerOf_timedOut : answerOf [.closed id .timedOut time] id = none := rfl

end Note

end Fleet.Bridge
