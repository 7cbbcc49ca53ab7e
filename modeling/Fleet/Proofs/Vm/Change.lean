import Fleet.Proofs.Vm.Access
import Mathlib.Logic.Relation

/-!
What an operation can do to the rows. It may revise the user's live last row, and at the end it may
launch a bootstrap, for that row or for a new one where none is live. Orderly worlds stay orderly.
-/

namespace Fleet.Vm

/-- One write to a live row that launches nothing. -/
inductive Row.Revised (p : Policy) (now : Instant) (r : Row) : Row → Prop
  | promoted : Revised p now r (r.promote now)
  | disconnected (h : r.status ≠ .disconnected) : Revised p now r (r.disconnect now)
  | timedOut (h : r.status.isPending = true)
      (late : p.settings.bootstrapTimeout ≤ r.msSinceBootstrap now) :
      Revised p now r { r.disconnect now with lastError := some Code.timedOut }
  | exhausted (h : r.status = .disconnected) (spent : p.settings.maxAttempts ≤ r.attempts) :
      Revised p now r (r.fail Code.attemptsExceeded now)
  | beaten : Revised p now r (r.beat now)
  | consumed (h : r.ticketConsumedAt = none) : Revised p now r (r.consume now)

/-- The launch of a row's bootstrap. -/
def Policy.bootstrap (p : Policy) (s : Surroundings) (r : Row) : Launch :=
  ⟨r.userId, r.orgId, p.signer.issue r.userId r.orgId s.wall, r.ticket, p.settings.publicWsUrl⟩

/-- A row after its bootstrap was launched, which has failed if the launcher refused. -/
def Surroundings.settle (s : Surroundings) (r : Row) : Row :=
  match s.launched with
  | .ok () => r
  | .error _ => r.fail Code.spawnFailed s.now

/-- The user's live row is revised. -/
inductive Revision (p : Policy) (now : Instant) (user : String) : World → World → Prop
  | write {w : World} {r r' : Row} (live : w.live? user = some r) (h : r.Revised p now r') :
      Revision p now user w (w.put r')

abbrev Revisions (p : Policy) (now : Instant) (user : String) : World → World → Prop :=
  Relation.ReflTransGen (Revision p now user)

/-- Revisions for any users. -/
abbrev Sweeping (p : Policy) (now : Instant) : World → World → Prop :=
  Relation.ReflTransGen fun a b => ∃ user, Revision p now user a b

/-- A bootstrap cycle begins, on a new row or once more on a disconnected one. -/
inductive Bootstrap (p : Policy) (s : Surroundings) (user : String) : World → World → Prop
  | opened {w : World} (org : String) (vacant : w.live? user = none) :
      Bootstrap p s user w
        ((w.add (s.settle (Row.start s.freshId user org s.freshTicket s.now))).launching
          (p.bootstrap s (Row.start s.freshId user org s.freshTicket s.now)))
  | reopened {w : World} {r : Row} (live : w.live? user = some r) (h : r.status = .disconnected)
      (left : r.attempts < p.settings.maxAttempts) :
      Bootstrap p s user w
        ((w.put (s.settle (r.retry s.freshTicket s.now))).launching
          (p.bootstrap s (r.retry s.freshTicket s.now)))

/-- All that an operation for a user does: revisions, then at most one bootstrap. -/
inductive Course (p : Policy) (s : Surroundings) (user : String) (w : World) : World → Prop
  | quiet {v : World} (h : Revisions p s.now user w v) : Course p s user w v
  | launched {u v : World} (h : Revisions p s.now user w u) (b : Bootstrap p s user u v) :
      Course p s user w v

namespace Row

variable {p : Policy} {now : Instant} {r r' : Row}

theorem Revised.id_eq (h : r.Revised p now r') : r'.id = r.id := by cases h <;> rfl

theorem Revised.userId_eq (h : r.Revised p now r') : r'.userId = r.userId := by cases h <;> rfl

theorem Revised.ticket_eq (h : r.Revised p now r') : r'.ticket = r.ticket := by cases h <;> rfl

/-- A ticket that was taken stays taken. -/
theorem Revised.consumed_of_consumed (h : r.Revised p now r')
    (hc : r.ticketConsumedAt.isSome = true) : r'.ticketConsumedAt.isSome = true := by
  cases h <;> first | exact hc | rfl

end Row

namespace Surroundings

variable (s : Surroundings) (r : Row)

@[simp] theorem settle_id : (s.settle r).id = r.id := by unfold settle; split <;> rfl

@[simp] theorem settle_userId : (s.settle r).userId = r.userId := by unfold settle; split <;> rfl

@[simp] theorem settle_ticket : (s.settle r).ticket = r.ticket := by unfold settle; split <;> rfl

@[simp] theorem settle_ticketConsumedAt : (s.settle r).ticketConsumedAt = r.ticketConsumedAt := by
  unfold settle; split <;> rfl

end Surroundings

/-! ### Orderly worlds -/

namespace World

/-- Of two rows of one user the earlier one is terminal. -/
structure Orderly (w : World) : Prop extends Calm w where
  closed : w.store.rows.Pairwise fun a b => a.userId = b.userId → a.isLive = false

variable {w v : World} {user : String} {r r' : Row}

/-- A user's live row is the last one. -/
theorem Orderly.live?_eq (ho : w.Orderly) (hr : r ∈ w.store.rows) (hl : r.isLive = true) :
    w.live? r.userId = some r := by
  obtain ⟨before, after, he⟩ := List.append_of_mem hr
  have hc := ho.closed
  rw [he, List.pairwise_append, List.pairwise_cons] at hc
  have hlast : after.filter (Store.ofUser r.userId) = [] := by
    apply List.filter_eq_nil_iff.mpr
    intro q hq hu
    have hsame : q.userId = r.userId := by simpa [Store.ofUser] using hu
    have hdead := hc.2.1.1 q hq hsame.symm
    rw [hl] at hdead
    cases hdead
  have hh : w.store.history r.userId = before.filter (Store.ofUser r.userId) ++ [r] := by
    rw [ho.history, he, List.filter_append, List.filter_cons, hlast]
    simp [Store.ofUser]
  simp [live?, Store.latest?, hh, hl]

theorem Orderly.hasLive_eq (ho : w.Orderly) (hn : w.live? user = none) :
    Store.hasLive w.store.rows user = false := by
  rw [Store.hasLive, List.any_eq_false]
  intro r hr h
  rw [Bool.and_eq_true] at h
  have hu : r.userId = user := by simpa [Store.ofUser] using h.1
  have := ho.live?_eq hr h.2
  rw [hu, hn] at this
  cases this

/-- The rewritten row was live, so that no other row of the user could be. -/
theorem Orderly.put (ho : w.Orderly) (hl : w.live? user = some r) (hid : r'.id = r.id)
    (hu : r'.userId = r.userId) : (w.put r').Orderly := by
  refine ⟨ho.toCalm.put r', ?_⟩
  obtain ⟨hm, _⟩ := ho.mem_of_live? hl
  have hlive := (latest?_of_live? hl).2
  rw [put_rows]
  apply List.pairwise_map.mpr
  apply ho.closed.imp_of_mem
  intro a b ha hb hab hsame
  have hau : (if a.id = r'.id then r' else a).userId = a.userId := by
    split
    · rename_i h; rw [ho.eq_of_id ha hm (h.trans hid), hu]
    · rfl
  have hbu : (if b.id = r'.id then r' else b).userId = b.userId := by
    split
    · rename_i h; rw [ho.eq_of_id hb hm (h.trans hid), hu]
    · rfl
  rw [hau, hbu] at hsame
  have hdead := hab hsame
  have hne : a.id ≠ r'.id := by
    intro h
    rw [ho.eq_of_id ha hm (h.trans hid), hlive] at hdead
    cases hdead
  simpa [hne] using hdead

theorem Orderly.add (ho : w.Orderly) (hn : w.live? r.userId = none) (hf : r.id ∉ w.ids) :
    (w.add r).Orderly := by
  refine ⟨ho.toCalm.add hf, ?_⟩
  rw [add_rows, List.pairwise_append]
  refine ⟨ho.closed, List.pairwise_singleton _ _, ?_⟩
  intro a ha b hb hab
  rw [List.mem_singleton] at hb
  subst hb
  have := ho.hasLive_eq hn
  rw [Store.hasLive, List.any_eq_false] at this
  simpa [Store.ofUser, hab] using this a ha

theorem Orderly.launching (ho : w.Orderly) (l : Launch) : (w.launching l).Orderly :=
  ⟨ho.toCalm.launching l, ho.closed⟩

variable {p : Policy} {s : Surroundings}

theorem Orderly.revision {now : Instant} (ho : w.Orderly) (h : Revision p now user w v) :
    v.Orderly := by
  obtain ⟨live, h⟩ := h
  exact ho.put live h.id_eq h.userId_eq

theorem Orderly.sweeping {now : Instant} (ho : w.Orderly) (h : Sweeping p now w v) : v.Orderly := by
  induction h with
  | refl => exact ho
  | tail _ h ih =>
    obtain ⟨_, h⟩ := h
    exact ih.revision h

theorem Orderly.bootstrap (ho : w.Orderly) (hf : s.freshId ∉ w.ids) (h : Bootstrap p s user w v) :
    v.Orderly := by
  cases h with
  | opened org vacant =>
    apply Orderly.launching
    exact ho.add (by simpa [Row.start] using vacant) (by simpa [Row.start] using hf)
  | reopened live h left =>
    apply Orderly.launching
    exact ho.put live (by simp [Row.retry]) (by simp [Row.retry])

end World

namespace Course

variable {p : Policy} {s : Surroundings} {user : String} {w u v : World}

theorem refl : Course p s user w w := .quiet .refl

theorem head (h : Revision p s.now user w u) (hc : Course p s user u v) : Course p s user w v := by
  cases hc with
  | quiet hr => exact .quiet (.head h hr)
  | launched hr b => exact .launched (.head h hr) b

/-- What revisions keep holds before the bootstrap, and what the bootstrap makes of it at the end. -/
theorem leads {I J : World → Prop} (h : Course p s user w v) (hw : I w)
    (hrev : ∀ {a b}, I a → Revision p s.now user a b → I b)
    (hboot : ∀ {a b}, I a → Bootstrap p s user a b → J b)
    (hquiet : ∀ {a}, I a → J a) : J v := by
  have hrevs : ∀ {b}, Revisions p s.now user w b → I b := by
    intro b hr
    induction hr with
    | refl => exact hw
    | tail _ h ih => exact hrev ih h
  cases h with
  | quiet hr => exact hquiet (hrevs hr)
  | launched hr b => exact hboot (hrevs hr) b

end Course

end Fleet.Vm
