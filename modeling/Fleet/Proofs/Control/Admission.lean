import Fleet.Control.Hub
import Fleet.Proofs.Vm.Attempts
import Fleet.Proofs.Vm.Lone
import Fleet.Proofs.Vm.Storing

/-!
Which machines are let in. All that speaks against a machine is looked at before its ticket is taken, so one that
is refused has spent nothing.
-/

namespace Fleet

namespace Vm

variable {w : World} {r r' : Row} {user ticket : String} {now : Instant} {α : Type}

/-- The store answers when a row is read, and also when it is then written because its ticket is taken. -/
def World.Permits (w : World) (r : Row) : Prop :=
  w.Answers ∧ (r.ticketConsumedAt = none → (w.meeting w.faults.tail).Answers)

/-- A row whose machine may connect with a ticket. -/
structure Row.Admits (r : Row) (ticket : String) : Prop where
  live : r.isLive = true
  given : r.ticket ≠ ""
  same : r.ticket = ticket
  unspent : r.ticketConsumedAt = none ∨ r.status = .disconnected

/-- The rows with the ticket of `r` taken, if it was not before. -/
def World.taken (w : World) (r : Row) (now : Instant) : World :=
  if r.ticketConsumedAt = none then w.put (r.consume now) else w

theorem World.permits_of_faultless (h : w.faults = []) (r : Row) : w.Permits r := by
  unfold Permits Answers meeting
  rw [h]
  exact ⟨nofun, fun _ => nofun⟩

namespace Work

theorem access_fails {f : Store → Except Error (α × Store)} (hw : ¬ w.Answers) :
    ∃ e, access f w = (.error e, w.meeting w.faults.tail) := by
  obtain ⟨store, launches, faults⟩ := w
  rcases faults with _ | ⟨_ | e, rest⟩
  · exact absurd nofun hw
  · exact absurd nofun hw
  · exact ⟨e, rfl⟩

theorem live?_answers (hw : w.Answers) : live? user w = (.ok (w.live? user), w.meeting w.faults.tail) := by
  rw [live?, latest?, bind_of_ok (access_answers hw rfl)]
  rfl

theorem live?_fails (hw : ¬ w.Answers) : ∃ e, live? user w = (.error e, w.meeting w.faults.tail) := by
  obtain ⟨e, h⟩ := access_fails (f := fun s => .ok (s.latest? user, s)) hw
  exact ⟨e, bind_of_error h⟩

/-- The ticket of a live row is taken if the store answers. -/
theorem update_consumed (hs : w.Single) (hr : r ∈ w.store.rows) (hl : r.isLive = true) (hw : w.Answers) :
    update (r.consume now) w = (.ok (), (w.put (r.consume now)).meeting w.faults.tail) :=
  access_answers hw (by rw [hs.update_eq hr hl (show (r.consume now).id = r.id from rfl) rfl rfl]; rfl)

theorem ticket_refuses (r : Row) (ticket : String) :
    (r.ticket.isEmpty || decide (r.ticket ≠ ticket)) = true ↔ r.ticket = "" ∨ r.ticket ≠ ticket := by
  rw [Bool.or_eq_true, String.isEmpty_iff, decide_eq_true_iff]

theorem ticket_fits (h : r.Admits ticket) : ¬ (r.ticket.isEmpty || decide (r.ticket ≠ ticket)) = true := by
  rw [ticket_refuses]
  rintro (hempty | hother)
  · exact h.given hempty
  · exact hother h.same

theorem live?_of_admits (hlast : w.store.latest? user = some r) (h : r.Admits ticket) : w.live? user = some r := by
  rw [World.live?, hlast, Option.filter_some, if_pos h.live]

/-- A ticket that nobody has used is written as used. -/
theorem consumeTicket_unspent (hw : w.Answers) (hlast : w.store.latest? user = some r) (h : r.Admits ticket)
    (hunspent : r.ticketConsumedAt = none) : consumeTicket now user ticket w =
      (do update (r.consume now); return r.consume now : Work Row) (w.meeting w.faults.tail) := by
  rw [consumeTicket, bind_of_ok (live?_answers hw), live?_of_admits hlast h]
  dsimp only
  rw [if_neg (ticket_fits h), hunspent]

/-- A ticket that was used is looked at only. -/
theorem consumeTicket_spent (hw : w.Answers) (hlast : w.store.latest? user = some r) (h : r.Admits ticket)
    (hspent : r.ticketConsumedAt ≠ none) : consumeTicket now user ticket w = (.ok r, w.meeting w.faults.tail) := by
  obtain ⟨t, ht⟩ := Option.ne_none_iff_exists'.mp hspent
  rw [consumeTicket, bind_of_ok (live?_answers hw), live?_of_admits hlast h]
  dsimp only
  rw [if_neg (ticket_fits h), ht]
  dsimp only
  rw [if_pos (h.unspent.resolve_left hspent)]
  rfl

/-- What the last row does not admit is refused. -/
theorem consumeTicket_unfit (hw : w.Answers) (h : ∀ r, w.store.latest? user = some r → ¬ r.Admits ticket) :
    ∃ e, consumeTicket now user ticket w = (.error e, w.meeting w.faults.tail) := by
  rw [consumeTicket, bind_of_ok (live?_answers hw)]
  cases hlive : w.live? user with
  | none => exact ⟨_, rfl⟩
  | some r =>
    obtain ⟨hlast, hl⟩ := World.latest?_of_live? hlive
    dsimp only
    by_cases hother : r.ticket = "" ∨ r.ticket ≠ ticket
    · rw [if_pos ((ticket_refuses r ticket).mpr hother)]
      exact ⟨_, rfl⟩
    · rw [if_neg ((ticket_refuses r ticket).not.mpr hother)]
      obtain ⟨hgiven, hsame⟩ := not_or.mp hother
      have hspent (hunspent : r.ticketConsumedAt = none ∨ r.status = .disconnected) : False :=
        h r hlast ⟨hl, hgiven, not_not.mp hsame, hunspent⟩
      cases hconsumed : r.ticketConsumedAt with
      | none => exact absurd (.inl hconsumed) hspent
      | some t =>
        dsimp only
        rw [if_neg fun hstatus => hspent (.inr hstatus)]
        exact ⟨_, rfl⟩

/-- A ticket is refused and the rows are left, or its user's last row admits it and it is taken. -/
theorem consumeTicket_spec (hs : w.Single) (now : Instant) (user ticket : String) :
    ((∀ r, w.store.latest? user = some r → r.Admits ticket → ¬ w.Permits r) ∧
      ∃ e faults, consumeTicket now user ticket w = (.error e, w.meeting faults)) ∨
    ∃ r q faults, w.store.latest? user = some r ∧ r.Admits ticket ∧ w.Permits r ∧
      consumeTicket now user ticket w = (.ok q, (w.taken r now).meeting faults) := by
  by_cases hw : w.Answers
  · by_cases hadmitted : ∃ r, w.store.latest? user = some r ∧ r.Admits ticket
    · obtain ⟨r, hlast, hadmits⟩ := hadmitted
      by_cases hunspent : r.ticketConsumedAt = none
      · rw [consumeTicket_unspent hw hlast hadmits hunspent]
        by_cases hwrite : (w.meeting w.faults.tail).Answers
        · refine .inr ⟨r, r.consume now, w.faults.tail.tail, hlast, hadmits, ⟨hw, fun _ => hwrite⟩, ?_⟩
          rw [World.taken, if_pos hunspent]
          exact bind_of_ok (update_consumed ⟨hs.distinct, hs.alone⟩ (World.mem_of_latest? hlast) hadmits.live hwrite)
        · refine .inl ⟨fun q hq _ hpermits => ?_, ?_⟩
          · obtain rfl : q = r := Option.some.inj (hq.symm.trans hlast)
            exact hwrite (hpermits.2 hunspent)
          · obtain ⟨e, hfail⟩ := access_fails (f := fun s => (s.update (r.consume now)).map ((), ·)) hwrite
            exact ⟨e, _, bind_of_error hfail⟩
      · refine .inr ⟨r, r, w.faults.tail, hlast, hadmits, ⟨hw, fun h => absurd h hunspent⟩, ?_⟩
        rw [World.taken, if_neg hunspent]
        exact consumeTicket_spent hw hlast hadmits hunspent
    · obtain ⟨e, hrefused⟩ : ∃ e, consumeTicket now user ticket w = (.error e, w.meeting w.faults.tail) :=
        consumeTicket_unfit hw fun r hr hadmits => hadmitted ⟨r, hr, hadmits⟩
      exact .inl ⟨fun r hr hadmits _ => hadmitted ⟨r, hr, hadmits⟩, e, _, hrefused⟩
  · obtain ⟨e, hread⟩ : ∃ e, live? user w = (.error e, w.meeting w.faults.tail) := live?_fails hw
    exact .inl ⟨fun r _ _ hpermits => hw hpermits.1, e, _, bind_of_error hread⟩

end Work

end Vm

namespace Control

variable {h : Hub} {m : Moment} {c : Credentials} {r : Vm.Row}

/-- The token that comes with the credentials, if there is one, was signed for their user. -/
def Vouched (h : Hub) (m : Moment) (c : Credentials) : Prop :=
  ∀ t, c.token = some t → t ≠ "" →
    ∃ claims, h.policy.signer.verify m.vm.wall t = .ok claims ∧ claims.userId = c.userId

/-- The user is named, the token speaks for them, and their last row admits the ticket. -/
structure Admissible (h : Hub) (m : Moment) (c : Credentials) (r : Vm.Row) : Prop where
  named : Text.isAllBlank c.userId = false
  vouched : Vouched h m c
  last : h.machines.store.latest? c.userId = some r
  admits : r.Admits c.connectTicket

namespace Hub

/-- Credentials are refused before the rows are looked at, or it is up to the ticket. -/
theorem authenticate_eq_ticket (h : Hub) (m : Moment) (c : Credentials) :
    (¬ (Text.isAllBlank c.userId = false ∧ Vouched h m c) ∧ ∃ e, h.authenticate m c = (.error e, h)) ∨
    Text.isAllBlank c.userId = false ∧ Vouched h m c ∧
      h.authenticate m c =
        (((Vm.Work.consumeTicket m.vm.now c.userId c.connectTicket h.machines).1).map fun _ => (),
          { h with machines := (Vm.Work.consumeTicket m.vm.now c.userId c.connectTicket h.machines).2 }) := by
  unfold authenticate
  cases hblank : Text.isAllBlank c.userId with
  | true => exact .inl ⟨fun h => (nomatch h.1), _, rfl⟩
  | false =>
    rw [if_neg Bool.false_ne_true]
    dsimp only
    split
    · rename_i e herror
      refine .inl ⟨fun hvouched => ?_, e, rfl⟩
      split at herror
      · cases herror
      · cases herror
      · rename_i t hne htoken
        obtain ⟨claims, hverify, hclaims⟩ := hvouched.2 t htoken hne
        rw [hverify, Except.bind, if_pos hclaims] at herror
        cases herror
    · rename_i hok
      refine .inr ⟨rfl, fun t htoken hne => ?_, rfl⟩
      split at hok
      · rename_i hnone
        rw [hnone] at htoken
        cases htoken
      · rename_i hempty
        rw [hempty] at htoken
        exact absurd (Option.some.inj htoken).symm hne
      · rename_i t' _ hsome
        obtain rfl : t' = t := Option.some.inj (hsome.symm.trans htoken)
        cases hverify : h.policy.signer.verify m.vm.wall t' with
        | error e =>
          rw [hverify] at hok
          cases hok
        | ok claims =>
          refine ⟨claims, rfl, ?_⟩
          rw [hverify, Except.bind] at hok
          split at hok
          · assumption
          · cases hok

/-- A machine is refused and the rows are left, or its user's last row admits it and its ticket is taken. -/
theorem authenticate_spec (hs : h.machines.Single) (m : Moment) (c : Credentials) :
    ((∀ r, Admissible h m c r → ¬ h.machines.Permits r) ∧
      ∃ e faults, h.authenticate m c = (.error e, { h with machines := h.machines.meeting faults })) ∨
    ∃ r faults, Admissible h m c r ∧ h.machines.Permits r ∧
      h.authenticate m c = (.ok (), { h with machines := (h.machines.taken r m.vm.now).meeting faults }) := by
  rcases authenticate_eq_ticket h m c with ⟨hno, e, herror⟩ | ⟨hnamed, hvouched, hticket⟩
  · exact .inl ⟨fun r hadmissible _ => hno ⟨hadmissible.named, hadmissible.vouched⟩, e, h.machines.faults, herror⟩
  · rw [hticket]
    rcases Vm.Work.consumeTicket_spec hs m.vm.now c.userId c.connectTicket with
      ⟨hno, e, faults, hrun⟩ | ⟨r, q, faults, hlast, hadmits, hpermits, hrun⟩
    · rw [hrun]
      exact .inl ⟨fun r hadmissible => hno r hadmissible.last hadmissible.admits, e, faults, rfl⟩
    · rw [hrun]
      exact .inr ⟨r, faults, ⟨hnamed, hvouched, hlast, hadmits⟩, hpermits, rfl⟩

/-- Whatever turns the rows have taken and whatever accesses to them fail, a machine is let in exactly if its
credentials are admissible and the store answers. One that is refused leaves the rows as they are, and of one that
is let in the ticket is taken and nothing else is written. -/
theorem admission_is_exact {keeping : Vm.Keeping} {faults : List (Option Error)} {turns : List Vm.Turn}
    (hfresh : (turns.map Vm.Turn.freshId).Nodup)
    (hreached : h.machines = (Vm.play h.policy turns (.vacant keeping faults)).2) (m : Moment) (c : Credentials) :
    let out := h.authenticate m c
    (out.1 = .ok () ↔ ∃ r, Admissible h m c r ∧ h.machines.Permits r) ∧
    (h.machines.faults = [] → (out.1 = .ok () ↔ ∃ r, Admissible h m c r)) ∧
    (out.1 ≠ .ok () → ∃ left, out.2 = { h with machines := h.machines.meeting left }) ∧
    ∀ r, Admissible h m c r → out.1 = .ok () →
      ∃ left, out.2 = { h with machines := (h.machines.taken r m.vm.now).meeting left } := by
  have hsingle : h.machines.Single := by
    rw [hreached]
    exact Vm.World.Single.play ⟨List.nodup_nil, fun _ hq => absurd hq List.not_mem_nil⟩ (.vacant hfresh)
  rcases authenticate_spec hsingle m c with ⟨hno, e, left, hrefused⟩ | ⟨r, left, hadmissible, hpermits, hadmitted⟩
  · rw [hrefused]
    refine ⟨⟨nofun, fun ⟨r, hr, hp⟩ => absurd hp (hno r hr)⟩, fun hclear => ⟨nofun, fun ⟨r, hr⟩ => ?_⟩,
      fun _ => ⟨left, rfl⟩, fun _ _ => nofun⟩
    exact absurd (Vm.World.permits_of_faultless hclear r) (hno r hr)
  · rw [hadmitted]
    refine ⟨⟨fun _ => ⟨r, hadmissible, hpermits⟩, fun _ => rfl⟩, fun _ => ⟨fun _ => ⟨r, hadmissible⟩, fun _ => rfl⟩,
      fun hrefused => absurd rfl hrefused, fun q hq _ => ?_⟩
    obtain rfl : q = r := Option.some.inj (hq.last.symm.trans hadmissible.last)
    exact ⟨left, rfl⟩

/-- A guess leaves the ticket to the machine that has it. -/
theorem guess_spares_the_ticket :
    let p : Vm.Policy := ⟨{}, ⟨"secret", 600⟩⟩
    let turns : List Vm.Turn := [⟨⟨⟨0, 0⟩, 0, "row-0", "ticket-0", .ok ()⟩, .ensure "u" "o" false⟩]
    let h : Hub :=
      { Hub.start {} p { keeping := .arrival } with machines := (Vm.play p turns (.vacant .arrival [])).2 }
    let m : Moment := ⟨⟨⟨1, 0⟩, 1, "row-1", "ticket-1", .ok ()⟩, 0, "connection"⟩
    let guess : Credentials := ⟨"u", "o", "ticket-1", none⟩
    let after := (h.authenticate m guess).2
    (turns.map Vm.Turn.freshId).Nodup ∧ (h.authenticate m guess).1 ≠ .ok () ∧
      after.machines.store = h.machines.store ∧
      (after.authenticate m { guess with connectTicket := "ticket-0", token := some "" }).1 = .ok () := by
  intro p turns h m guess after
  have hfresh : (turns.map Vm.Turn.freshId).Nodup := by decide
  have hrefused : (h.authenticate m guess).1 ≠ .ok () := by decide +kernel
  obtain ⟨-, -, hleft, -⟩ := admission_is_exact (h := h) hfresh rfl m guess
  obtain ⟨left, hafter⟩ := hleft hrefused
  exact ⟨hfresh, hrefused, congrArg (fun h => h.machines.store) hafter, by decide +kernel⟩

end Hub

end Control

end Fleet
