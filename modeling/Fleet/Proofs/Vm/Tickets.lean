import Fleet.Proofs.Vm.History

/-!
Tickets over a run. A live row holds the ticket of its user's most recent bootstrap cycle, and no two
cycles have one ticket; so a ticket counts only as long as its cycle is the last, and once it was
taken it counts again only while its row is disconnected.
-/

namespace Fleet.Vm

namespace World

/-- The bootstrap cycles that were begun for a user, oldest first. -/
def cycles (w : World) (user : String) : List Launch := w.launches.filter fun l => l.userId == user

def currentTicket? (w : World) (user : String) : Option String :=
  (w.cycles user).getLast?.map Launch.ticket

def tickets (w : World) : List String := w.launches.map Launch.ticket

structure Ticketed (w : World) : Prop where
  current : ∀ r ∈ w.store.rows, r.isLive = true → w.currentTicket? r.userId = some r.ticket
  begun : ∀ r ∈ w.store.rows, r.ticket ∈ w.tickets
  distinctRows : (w.store.rows.map Row.ticket).Nodup
  distinct : w.tickets.Nodup

variable {w v : World} {user : String} {r r' : Row} {l : Launch}

theorem currentTicket?_launching (w : World) (l : Launch) (user : String) :
    (w.launching l).currentTicket? user =
      if l.userId = user then some l.ticket else w.currentTicket? user := by
  by_cases h : l.userId = user <;>
    simp [currentTicket?, cycles, List.filter_append, h]

theorem mem_tickets_of_current {ticket : String} (h : w.currentTicket? user = some ticket) :
    ticket ∈ w.tickets := by
  obtain ⟨l, hl, rfl⟩ := Option.map_eq_some_iff.mp h
  exact List.mem_map.mpr ⟨l, (List.mem_filter.mp (List.mem_of_getLast? hl)).1, rfl⟩

theorem currentTicket?_of_launches_eq (h : v.launches = w.launches) (user : String) :
    v.currentTicket? user = w.currentTicket? user := by simp [currentTicket?, cycles, h]

/-- The list of tickets when one row is written in the place of another. -/
theorem nodup_put_tickets (hc : w.Calm) (hr : r ∈ w.store.rows) (hid : r'.id = r.id)
    (hn : (w.store.rows.map Row.ticket).Nodup)
    (ht : r'.ticket = r.ticket ∨ r'.ticket ∉ w.store.rows.map Row.ticket) :
    ((w.put r').store.rows.map Row.ticket).Nodup := by
  rw [put_rows, List.map_map]
  refine List.Nodup.map_on ?_ (List.Nodup.of_map _ hn)
  intro a ha b hb hab
  have same {c : Row} (hcm : c ∈ w.store.rows) (h : c.id = r'.id) : c = r :=
    hc.eq_of_id hcm hr (h.trans hid)
  have clash {c : Row} (hcm : c ∈ w.store.rows) (h : r'.ticket = c.ticket) : c = r := by
    rcases ht with ht | ht
    · exact List.inj_on_of_nodup_map hn hcm hr (h.symm.trans ht)
    · exact absurd (List.mem_map.mpr ⟨c, hcm, h.symm⟩) ht
  simp only [Function.comp_apply] at hab
  by_cases hia : a.id = r'.id <;> by_cases hib : b.id = r'.id <;> simp only [hia, hib, ↓reduceIte] at hab
  · exact (same ha hia).trans (same hb hib).symm
  · exact (same ha hia).trans (clash hb hab).symm
  · exact (clash ha hab.symm).trans (same hb hib).symm
  · exact List.inj_on_of_nodup_map hn ha hb hab

theorem Ticketed.revision {p : Policy} {now : Instant} (ht : w.Ticketed) (ho : w.Orderly)
    (h : Revision p now user w v) : v.Ticketed := by
  obtain @⟨r, r', live, h⟩ := h
  have hm := (ho.mem_of_live? live).1
  have hl := (latest?_of_live? live).2
  refine ⟨?_, ?_, nodup_put_tickets ho.toCalm hm h.id_eq ht.distinctRows (.inl h.ticket_eq),
    ht.distinct⟩
  · intro q hq hlive
    rw [currentTicket?_of_launches_eq (put_launches w r')]
    rcases mem_put hq with rfl | ⟨hq, _⟩
    · rw [h.userId_eq, h.ticket_eq]
      exact ht.current r hm hl
    · exact ht.current q hq hlive
  · intro q hq
    rcases mem_put hq with rfl | ⟨hq, _⟩
    · rw [h.ticket_eq]
      exact ht.begun r hm
    · exact ht.begun q hq

/-- A new cycle: its row is the only one of the user that may be live, and its ticket is new. -/
theorem Ticketed.begin (ht : w.Ticketed) (r' : Row)
    (hrows : ∀ q ∈ v.store.rows, q = r' ∨ q ∈ w.store.rows ∧
      (q.isLive = true → q.userId ≠ r'.userId))
    (hlaunch : v.launches = w.launches ++ [l]) (hu : l.userId = r'.userId)
    (hticket : l.ticket = r'.ticket) (hf : l.ticket ∉ w.tickets)
    (hn : (v.store.rows.map Row.ticket).Nodup) : v.Ticketed := by
  have hcurrent (user : String) := (currentTicket?_of_launches_eq (w := w.launching l) hlaunch user).trans
    (currentTicket?_launching w l user)
  have htickets : v.tickets = w.tickets ++ [l.ticket] := by simp [tickets, hlaunch]
  refine ⟨?_, ?_, hn, ?_⟩
  · intro q hq hlive
    rw [hcurrent]
    rcases hrows q hq with rfl | ⟨hq, hother⟩
    · simp [hu, hticket]
    · rw [if_neg fun h => hother hlive (h.symm.trans hu)]
      exact ht.current q hq hlive
  · intro q hq
    rw [htickets, List.mem_append, List.mem_singleton]
    rcases hrows q hq with rfl | ⟨hq, _⟩
    · exact .inr hticket.symm
    · exact .inl (ht.begun q hq)
  · rw [htickets]
    exact List.nodup_append.mpr ⟨ht.distinct, List.nodup_singleton _, by
      intro a ha b hb hab
      rw [List.mem_singleton] at hb
      exact hf (hb ▸ hab ▸ ha)⟩

theorem Ticketed.bootstrap {p : Policy} {s : Surroundings} (ht : w.Ticketed) (ho : w.Orderly)
    (hf : s.freshTicket ∉ w.tickets) (h : Bootstrap p s user w v) : v.Ticketed := by
  have hnew : s.freshTicket ∉ w.store.rows.map Row.ticket := by
    intro hm
    obtain ⟨q, hq, he⟩ := List.mem_map.mp hm
    exact hf (he ▸ ht.begun q hq)
  cases h with
  | opened org vacant =>
    refine ht.begin (s.settle (Row.start s.freshId user org s.freshTicket s.now)) ?_ rfl
      (by simp [Policy.bootstrap]) (by simp [Policy.bootstrap]) hf ?_
    · intro q hq
      rcases List.mem_append.mp hq with hq | hq
      · refine .inr ⟨hq, fun hl hsame => ?_⟩
        have hu : q.userId = user := by simpa [Row.start] using hsame
        have := ho.live?_eq hq hl
        rw [hu, vacant] at this
        cases this
      · exact .inl (List.mem_singleton.mp hq)
    · rw [launching_store, add_rows, List.map_append]
      refine List.nodup_append.mpr ⟨ht.distinctRows, List.nodup_singleton _, ?_⟩
      intro a ha b hb hab
      simp only [List.map_cons, Surroundings.settle_ticket, Row.start, List.map_nil,
        List.mem_singleton] at hb
      exact hnew (hb ▸ hab ▸ ha)
  | @reopened r live h left =>
    have hm := ho.mem_of_live? live
    refine ht.begin (s.settle (r.retry s.freshTicket s.now)) ?_ rfl
      (by simp [Policy.bootstrap]) (by simp [Policy.bootstrap]) hf ?_
    · intro q hq
      rcases mem_put hq with hq | ⟨hq, hne⟩
      · exact .inl hq
      · refine .inr ⟨hq, fun hl hsame => ?_⟩
        have hu : q.userId = r.userId := by simpa [Row.retry] using hsame
        have := ho.live?_eq hq hl
        rw [hu, hm.2, live] at this
        exact hne (by simp [Row.retry, Option.some.inj this])
    · exact nodup_put_tickets ho.toCalm hm.1 (by simp [Row.retry]) ht.distinctRows
        (.inr (by simpa [Row.retry] using hnew))

theorem empty_ticketed : empty.Ticketed :=
  ⟨fun _ h => (List.not_mem_nil h).elim, fun _ h => (List.not_mem_nil h).elim, List.nodup_nil,
    List.nodup_nil⟩

/-- The rows with a ticket are one row, and it was taken. -/
def Spent (ticket id : String) (w : World) : Prop :=
  ∀ q ∈ w.store.rows, q.ticket = ticket → q.id = id ∧ q.ticketConsumedAt.isSome = true

/-- The ticket was issued, but not in the user's last cycle. -/
def Superseded (user ticket : String) (w : World) : Prop :=
  ticket ∈ w.tickets ∧ w.currentTicket? user ≠ some ticket

theorem Spent.revision {p : Policy} {now : Instant} {ticket id : String} (hs : w.Spent ticket id)
    (hc : w.Calm) (h : Revision p now user w v) : v.Spent ticket id := by
  obtain @⟨r, r', live, h⟩ := h
  intro q hq ht
  rcases mem_put hq with rfl | ⟨hq, _⟩
  · obtain ⟨hid, hused⟩ := hs r (hc.mem_of_live? live).1 (h.ticket_eq.symm.trans ht)
    exact ⟨h.id_eq.trans hid, h.consumed_of_consumed hused⟩
  · exact hs q hq ht

/-- A bootstrap's row has another ticket. -/
theorem Spent.bootstrap {p : Policy} {s : Surroundings} {ticket id : String}
    (hs : w.Spent ticket id) (hne : s.freshTicket ≠ ticket) (h : Bootstrap p s user w v) :
    v.Spent ticket id := by
  intro q hq ht
  cases h with
  | opened org vacant =>
    rcases List.mem_append.mp hq with hq | hq
    · exact hs q hq ht
    · rw [List.mem_singleton.mp hq] at ht
      exact absurd (by simpa [Row.start] using ht) hne
  | reopened live h left =>
    rcases mem_put hq with rfl | ⟨hq, _⟩
    · exact absurd (by simpa [Row.retry] using ht) hne
    · exact hs q hq ht

end World

open World

variable {p : Policy} {s : Surroundings} {w v : World} {user ticket id : String}

theorem Bootstrap.launches (h : Bootstrap p s user w v) :
    ∃ l, l.ticket = s.freshTicket ∧ v.launches = w.launches ++ [l] := by
  cases h with
  | opened org vacant => exact ⟨_, rfl, rfl⟩
  | reopened live h left => exact ⟨_, rfl, rfl⟩

namespace Effect

/-- An operation launches nothing or begins one cycle, with the ticket it was given. -/
theorem launches (h : Effect p s w v) : v.launches = w.launches ∨
    ∃ l, l.ticket = s.freshTicket ∧ v.launches = w.launches ++ [l] := by
  refine h.leads (I := fun a => a.launches = w.launches)
    (J := fun a => a.launches = w.launches ∨
      ∃ l, l.ticket = s.freshTicket ∧ a.launches = w.launches ++ [l]) rfl ?_ ?_ Or.inl
  · rintro user a b ha ⟨live, h⟩
    exact ha
  · intro user a b ha hb
    obtain ⟨l, hl, hb⟩ := hb.launches
    exact .inr ⟨l, hl, ha ▸ hb⟩

theorem mem_tickets (h : Effect p s w v) (hm : ticket ∈ v.tickets) :
    ticket ∈ w.tickets ∨ ticket = s.freshTicket := by
  rcases h.launches with h | ⟨l, hl, h⟩
  · exact .inl (by simpa [World.tickets, h] using hm)
  · simpa [World.tickets, h, hl] using hm

theorem tickets_subset (h : Effect p s w v) : w.tickets ⊆ v.tickets := by
  intro x hx
  rcases h.launches with h | ⟨l, _, h⟩
  · simpa [World.tickets, h] using hx
  · simp [World.tickets, h, show x ∈ w.launches.map Launch.ticket from hx]

theorem ticketed (h : Effect p s w v) (ho : w.Orderly) (ht : w.Ticketed)
    (hf : s.freshTicket ∉ w.tickets) : v.Ticketed := by
  refine h.leads (I := fun a => a.Orderly ∧ a.Ticketed ∧ a.launches = w.launches)
    ⟨ho, ht, rfl⟩ ?_ ?_ fun h => h.2.1
  · rintro user a b ⟨hoa, hta, hla⟩ hr
    refine ⟨hoa.revision hr, hta.revision hoa hr, ?_⟩
    obtain ⟨live, h⟩ := hr
    exact hla
  · rintro user a b ⟨hoa, hta, hla⟩ hb
    exact hta.bootstrap hoa (by simpa [World.tickets, hla] using hf) hb

theorem spent (h : Effect p s w v) (ho : w.Orderly) (hs : w.Spent ticket id)
    (hne : s.freshTicket ≠ ticket) : v.Spent ticket id := by
  refine h.leads (I := fun a => a.Orderly ∧ a.Spent ticket id) ⟨ho, hs⟩ ?_ ?_ fun h => h.2
  · rintro user a b ⟨hoa, hsa⟩ hr
    exact ⟨hoa.revision hr, hsa.revision hoa.toCalm hr⟩
  · rintro user a b ⟨hoa, hsa⟩ hb
    exact hsa.bootstrap hne hb

/-- What was superseded stays so, since every later cycle has a ticket of its own. -/
theorem superseded (h : Effect p s w v) (hs : w.Superseded user ticket)
    (hne : s.freshTicket ≠ ticket) : v.Superseded user ticket := by
  obtain ⟨hm, hlast⟩ := hs
  refine ⟨h.tickets_subset hm, ?_⟩
  rcases h.launches with h | ⟨l, hl, h⟩
  · rw [currentTicket?_of_launches_eq h user]
    exact hlast
  · rw [currentTicket?_of_launches_eq (w := w.launching l) h, currentTicket?_launching]
    split
    · exact fun he => hne (hl.symm.trans (Option.some.inj he))
    · exact hlast

end Effect

/-! ### Runs -/

/-- The turns to come bring new ids and new tickets. -/
structure Supplied (turns : List Turn) (w : World) : Prop extends Ahead turns w where
  ticketed : w.Ticketed
  unusedTickets : ∀ t ∈ turns, t.freshTicket ∉ w.tickets
  distinctTickets : (turns.map Turn.freshTicket).Nodup

namespace Supplied

variable {t : Turn} {turns early late : List Turn}

theorem unusedTicket (hs : Supplied (t :: turns) w) : t.freshTicket ∉ w.tickets :=
  hs.unusedTickets t List.mem_cons_self

theorem step (hs : Supplied (t :: turns) w) : Supplied turns (t.run p w).2 := by
  have hd := List.nodup_cons.mp (List.map_cons ▸ hs.distinctTickets)
  refine ⟨hs.toAhead.step, hs.effect.ticketed hs.orderly hs.ticketed hs.unusedTicket, ?_, hd.2⟩
  intro u hu hm
  rcases (hs.effect (p := p)).mem_tickets hm with h | h
  · exact hs.unusedTickets u (List.mem_cons_of_mem _ hu) h
  · exact hd.1 (List.mem_map.mpr ⟨u, hu, h⟩)

theorem append (hs : Supplied (early ++ late) w) : Supplied late (play p early w).2 :=
  play_leads (H := Supplied) (fun h => h.step) hs

theorem empty (ids : (turns.map Turn.freshId).Nodup)
    (tickets : (turns.map Turn.freshTicket).Nodup) : Supplied turns World.empty :=
  ⟨Ahead.empty ids, empty_ticketed, fun _ _ => List.not_mem_nil, tickets⟩

/-- What is kept by operations that bring other tickets is kept to the end of a run. -/
theorem keeps {I : World → Prop} (hs : Supplied turns w) (hw : I w) (hm : ticket ∈ w.tickets)
    (hI : ∀ {s a b}, a.Orderly → s.freshTicket ≠ ticket → I a → Effect p s a b → I b) :
    I (play p turns w).2 := by
  suffices h : Supplied [] (play p turns w).2 ∧ ticket ∈ (play p turns w).2.tickets ∧
      I (play p turns w).2 from h.2.2
  refine play_leads (H := fun ts a => Supplied ts a ∧ ticket ∈ a.tickets ∧ I a) ?_
    ⟨by simpa using hs, hm, hw⟩
  rintro t rest a ⟨h, hm, ha⟩
  have hne : t.freshTicket ≠ ticket := fun he => h.unusedTicket (he ▸ hm)
  exact ⟨h.step, h.effect.tickets_subset hm, hI h.orderly hne ha h.effect⟩

end Supplied

/-- A ticket that was accepted is of the user's live last row, which is the row of the user's last
cycle; if it had been taken before, the row is disconnected. -/
theorem Work.consumeTicket_ok (ho : w.Orderly) (ht : w.Ticketed) {now : Instant} {r : Row}
    (h : (Work.consumeTicket now user ticket w).1 = .ok r) :
    w.currentTicket? user = some ticket ∧
      ∃ q, w.store.latest? user = some q ∧ q.status.isTerminal = false ∧ q.ticket = ticket ∧
        q.id = r.id ∧ r.ticketConsumedAt.isSome = true ∧
        (q.ticketConsumedAt.isSome = true → q.status = .disconnected) := by
  have live {q : Row} (hl : w.live? user = some q) (hq : q.ticket = ticket) :
      w.currentTicket? user = some ticket ∧ w.store.latest? user = some q ∧
        q.status.isTerminal = false := by
    obtain ⟨hlast, hlive⟩ := latest?_of_live? hl
    obtain ⟨hm, hu⟩ := ho.mem_of_live? hl
    have := ht.current q hm hlive
    rw [hu, hq] at this
    exact ⟨this, hlast, by simpa [Row.isLive] using hlive⟩
  rcases Work.consumeTicket_cases ho.toCalm now user ticket with
    ⟨text, hrun⟩ | ⟨q, hl, hq, hnew, hrun⟩ | ⟨q, hl, hq, hused, hs, hrun⟩
  · rw [hrun] at h
    cases h
  · rw [hrun] at h
    cases h
    obtain ⟨hcur, hlast, hlive⟩ := live hl hq
    exact ⟨hcur, q, hlast, hlive, hq, rfl, rfl, by simp [hnew]⟩
  · rw [hrun] at h
    cases h
    obtain ⟨hcur, hlast, hlive⟩ := live hl hq
    exact ⟨hcur, _, hlast, hlive, hq, rfl, hused, fun _ => hs⟩

/-- After a ticket was accepted, the one row that has it is taken. -/
theorem Work.consumeTicket_spends (ho : w.Orderly) (ht : w.Ticketed) {now : Instant} {r : Row}
    (h : (Work.consumeTicket now user ticket w).1 = .ok r) :
    (Work.consumeTicket now user ticket w).2.Spent ticket r.id := by
  have only {a b : Row} (ha : a ∈ w.store.rows) (hb : b ∈ w.store.rows)
      (hab : a.ticket = b.ticket) : a = b := List.inj_on_of_nodup_map ht.distinctRows ha hb hab
  rcases Work.consumeTicket_cases ho.toCalm now user ticket with
    ⟨text, hrun⟩ | ⟨q, hl, hq, hnew, hrun⟩ | ⟨q, hl, hq, hused, hs, hrun⟩
  · rw [hrun] at h
    cases h
  · rw [hrun] at h ⊢
    cases h
    intro a ha hta
    rcases mem_put ha with rfl | ⟨ha, hne⟩
    · exact ⟨rfl, rfl⟩
    · have := only ha (ho.mem_of_live? hl).1 (hta.trans hq.symm)
      exact absurd (this ▸ rfl) hne
  · rw [hrun] at h ⊢
    cases h
    intro a ha hta
    rw [only ha (ho.mem_of_live? hl).1 (hta.trans hq.symm)]
    exact ⟨rfl, hused⟩

theorem Work.consumeTicket_refused (hc : w.Calm) {now : Instant} {e : Error}
    (h : (Work.consumeTicket now user ticket w).1 = .error e) :
    ∃ text, Work.consumeTicket now user ticket w = (.error (.auth text), w) := by
  rcases Work.consumeTicket_cases hc now user ticket with
    hrun | ⟨_, _, _, _, hrun⟩ | ⟨_, _, _, _, _, hrun⟩
  · exact hrun
  all_goals
    rw [hrun] at h
    cases h

theorem Turn.consume_ok {t : Turn} {other : String} (hop : t.operation = .consume other ticket)
    {r : Row} (h : (t.run p w).1 = .ok (.row r)) :
    (Work.consumeTicket t.surroundings.now other ticket w).1 = .ok r ∧
      (t.run p w).2 = (Work.consumeTicket t.surroundings.now other ticket w).2 := by
  rw [run, hop, Operation.work, Work.bind_apply] at h ⊢
  rcases hrun : Work.consumeTicket t.surroundings.now other ticket w with ⟨_ | q, v⟩
  · rw [hrun] at h
    cases h
  · rw [hrun] at h
    cases h
    exact ⟨rfl, rfl⟩

/-- Over any operations of any users, when no ticket is generated twice: a ticket is accepted from a
user only if it is the one of the user's last cycle and the user's last row is live; once another
cycle has superseded it, it is refused for good; once it was accepted it is accepted again only
while that row is disconnected; and a refusal changes nothing. -/
theorem ticket_serves_the_last_cycle (p : Policy) (turns : List Turn)
    (ids : (turns.map Turn.freshId).Nodup) (tickets : (turns.map Turn.freshTicket).Nodup)
    (now : Instant) (user ticket : String) :
    let w := (play p turns .empty).2
    let taken := Work.consumeTicket now user ticket w
    (∀ r, taken.1 = .ok r → w.currentTicket? user = some ticket ∧
      ∃ q, w.store.latest? user = some q ∧ q.status.isTerminal = false ∧ q.ticket = ticket ∧
        q.id = r.id) ∧
    (∀ early late, turns = early ++ late → (play p early .empty).2.Superseded user ticket →
      ∃ text, taken.1 = .error (.auth text)) ∧
    (∀ early t late other r₁ r₂, turns = early ++ t :: late →
      t.operation = .consume other ticket →
      (t.run p (play p early .empty).2).1 = .ok (.row r₁) → taken.1 = .ok r₂ →
      ∃ q, w.store.latest? user = some q ∧ q.id = r₁.id ∧ q.status = .disconnected) ∧
    (∀ e, taken.1 = .error e → taken.2 = w) := by
  intro w taken
  have hend : Supplied [] w := by
    have := Supplied.empty ids tickets
    rw [← List.append_nil turns] at this
    exact this.append
  have hok {r : Row} (h : taken.1 = .ok r) := Work.consumeTicket_ok hend.orderly hend.ticketed h
  refine ⟨?_, ?_, ?_, ?_⟩
  · intro r h
    obtain ⟨hcur, q, hlast, hlive, hq, hid, _⟩ := hok h
    exact ⟨hcur, q, hlast, hlive, hq, hid⟩
  · rintro early late rfl hold
    have hw : w.Superseded user ticket := by
      have hl := (Supplied.empty ids tickets).append (p := p)
      have := hl.keeps (p := p) hold hold.1 fun _ hne h he => he.superseded h hne
      simpa only [w, play_append] using this
    rcases hres : taken.1 with e | r
    · obtain ⟨text, hrun⟩ := Work.consumeTicket_refused hend.orderly.toCalm hres
      exact ⟨text, hres.symm.trans (congrArg Prod.fst hrun)⟩
    · exact absurd (hok hres).1 hw.2
  · rintro early t late other r₁ r₂ rfl hop h₁ h₂
    have hl : Supplied (t :: late) (play p early .empty).2 := (Supplied.empty ids tickets).append
    obtain ⟨h₁, hrun⟩ := Turn.consume_ok hop h₁
    have hspent : ((t.run p (play p early .empty).2).2).Spent ticket r₁.id := by
      rw [hrun]
      exact Work.consumeTicket_spends hl.orderly hl.ticketed h₁
    have hold := (Work.consumeTicket_ok hl.orderly hl.ticketed h₁).1
    have hw : w.Spent ticket r₁.id := by
      have := hl.step.keeps (p := p) hspent (hl.effect.tickets_subset (mem_tickets_of_current hold))
        fun ho hne h he => he.spent ho h hne
      change (play p (early ++ t :: late) .empty).2.Spent ticket r₁.id
      rw [play_append]
      exact this
    obtain ⟨_, q, hlast, _, hq, _, _, hdis⟩ := hok h₂
    obtain ⟨hid, hused⟩ := hw q (hend.orderly.mem_of_latest? hlast).1 hq
    exact ⟨q, hlast, hid, hdis hused⟩
  · intro e h
    obtain ⟨_, hrun⟩ := Work.consumeTicket_refused hend.orderly.toCalm h
    exact congrArg Prod.snd hrun

/-- A ticket taken over a connection that was lost is taken again, until a forced bootstrap puts
another one in its place. -/
theorem ticket_is_taken_again_after_a_disconnect :
    let p : Policy := ⟨{}, ⟨"secret", 600⟩⟩
    let at_ (n : Nat) : Surroundings := ⟨⟨n, 0⟩, n, s!"row-{n}", s!"ticket-{n}", .ok ()⟩
    let early : List Turn := [⟨at_ 0, .ensure "u" "o" false⟩]
    let take : Turn := ⟨at_ 1, .consume "u" "ticket-0"⟩
    let late : List Turn := [⟨at_ 2, .connected "u"⟩, ⟨at_ 3, .disconnected "u"⟩]
    let lost := (play p (early ++ take :: late) .empty).2
    let again : List Turn := early ++ take :: late ++ [⟨at_ 4, .force "u" "o"⟩]
    let moved := (play p again .empty).2
    (∃ q, lost.store.latest? "u" = some q ∧ q.status = .disconnected) ∧
    lost.currentTicket? "u" = some "ticket-0" ∧
    (∃ text, (Work.consumeTicket ⟨5, 0⟩ "u" "ticket-0" moved).1 = .error (.auth text)) := by
  intro p at_ early take late lost again moved
  have hlost := ticket_serves_the_last_cycle p (early ++ take :: late) (by decide) (by decide)
    ⟨4, 0⟩ "u" "ticket-0"
  have hmoved := ticket_serves_the_last_cycle p again (by decide) (by decide)
    ⟨5, 0⟩ "u" "ticket-0"
  let taken := (Row.start "row-0" "u" "o" "ticket-0" ⟨0, 0⟩).consume ⟨1, 0⟩
  have first : (take.run p (play p early .empty).2).1 = .ok (.row taken) := by decide +kernel
  have second : (Work.consumeTicket ⟨4, 0⟩ "u" "ticket-0" lost).1 =
      .ok ((taken.promote ⟨2, 0⟩).disconnect ⟨3, 0⟩) := by decide +kernel
  obtain ⟨q, hq, _, hs⟩ := hlost.2.2.1 early take late "u" _ _ rfl rfl first second
  refine ⟨⟨q, hq, hs⟩, (hlost.1 _ second).1, hmoved.2.1 again [] (by simp) ?_⟩
  exact ⟨by decide +kernel, by decide +kernel⟩

end Fleet.Vm
