import Fleet.Proofs.Control.Answers
import Fleet.Proofs.Control.Lines

/-!
What a run of the control plane tells machines: at every moment, whatever is queued for a machine or
kept for later is an answer that was given to the machine's own user.
-/

namespace Fleet.Control

variable {log more : List Answered} {h g : Hub} {m : Moment}

/-- What happens beside the sockets gives no answers. -/
theorem Hub.Happens.leads (hp : h.Happens g) : h.Leads log g := by
  cases hp with
  | call request made => exact .of_connections rfl (Connections.leads_callUser made fun _ => trivial)
  | desert q => exact .of_connections rfl (.of_opened rfl)
  | expire q => exact .of_connections rfl (Connections.leads_expire _ q)
  | _ => exact .of_eq rfl rfl

theorem Hub.Besides.leads (hg : h.Besides g) : h.Leads log g := by
  induction hg with
  | refl => exact .refl h
  | tail _ hp ih => exact ih.trans hp.leads

namespace Plane

variable {p q : Plane} {t : Turn} {n : Nat} {links : List Nat}

/-- Whatever a turn tells machines are answers that were given. -/
theorem leads_take (t : Turn) (links : List Nat) (hl : ∀ e ∈ p.hub.resume.entries, Logged log e)
    (ha : ∀ a, p.answered? links t.act = some a → a ∈ log) : p.hub.Leads log (p.take t).hub := by
  have hw := went_take p t
  generalize p.take t = q at hw ⊢
  cases hw with
  | socket act there next went given =>
    exact (Socket.goes_next next hl fun a haa => ha a (by simpa [answered?, act, there] using haa)).hub
  | write there write wrote => exact (Socket.write_cases write).1
  | beside sockets hub => exact hub.leads

/-- What is kept and what is queued are answers that were given to the users they are for. -/
structure Honest (log : List Answered) (p : Plane) : Prop where
  kept : ∀ e ∈ p.hub.resume.entries, Logged log e
  queued : ∀ c ∈ p.hub.connections.opened, ∀ f ∈ c.outbox, Answers log c.userId f

theorem Honest.mono (hp : Honest log p) (hm : log ⊆ more) : Honest more p :=
  ⟨fun e he => (hp.kept e he).mono hm, fun c hc f hf => (hp.queued c hc f hf).mono hm⟩

theorem Honest.leads (hp : Honest log p) (hg : p.hub.Leads log q.hub) : Honest log q := by
  refine ⟨hg.kept hp.kept, fun d hd f hf => ?_⟩
  obtain ⟨j, hj⟩ := List.getElem?_of_mem hd
  cases hc : p.hub.connections.opened[j]? with
  | none => exact hg.connections.fresh j d hj hc f hf
  | some c =>
    obtain ⟨d', hd', hu, hfit⟩ := hg.connections.kept j c hc
    obtain rfl := Option.some.inj (hd'.symm.trans hj)
    rw [hu]
    rcases hfit f hf with hold | hnew
    · exact hp.queued c (List.mem_of_getElem? hc) f hold
    · exact hnew

/-- The answers so far, after a turn. -/
def answers (p : Plane) (links : List Nat) (log : List Answered) (t : Turn) : List Answered :=
  log ++ (p.answered? links t.act).toList

theorem answered_cases {a : Answered} {x : Act} (ha : p.answered? links x = some a) :
    ∃ k, ∃ s : Socket, p.sockets[k]? = some s ∧ s.answered? (links.contains k) p.hub = some a := by
  unfold answered? at ha
  split at ha
  · rename_i k
    obtain ⟨s, hs, ha⟩ := Option.bind_eq_some_iff.mp ha
    exact ⟨k, s, hs, ha⟩
  · cases ha

theorem leads_answers (hp : Honest log p) (links : List Nat) (t : Turn) :
    p.hub.Leads (p.answers links log t) (p.take t).hub := by
  refine leads_take t links (hp.mono (List.subset_append_left _ _)).kept fun a ha => ?_
  exact List.mem_append_right _ (by simp [ha])

theorem Honest.step (hp : Honest log p) (links : List Nat) (t : Turn) :
    Honest (p.answers links log t) (p.take t) :=
  (hp.mono (List.subset_append_left _ _)).leads (leads_answers hp links t)

/-! ### The sockets of one user's machine -/

/-- A socket on which only fit frames come, and on which the user was told only answers. -/
structure Serves (log : List Answered) (fit : Frame → Prop) (user : String) (h : Hub)
    (s : Socket) : Prop extends Socket.IsOf fit user h s where
  written : ∀ f ∈ s.written, Answers log user f

variable {fit : Frame → Prop} {user : String} {s s' : Socket} {k : Nat}

theorem Serves.leads (hs : Serves log fit user h s) (hg : h.Leads more g) (hm : log ⊆ more) :
    Serves more fit user g s :=
  ⟨hs.toIsOf.leads hg, fun f hf => (hs.written f hf).mono hm⟩

theorem Serves.next (hs : Serves log fit user h s) (ht : Socket.Tells fit user)
    (hg : Socket.Goes more s h s' g) (hm : log ⊆ more) : Serves more fit user g s' := by
  refine ⟨hg.isOf ht hs.toIsOf, fun f hf => ?_⟩
  rcases hg.written f hf with hold | ⟨e, rfl⟩
  · exact (hs.written f hold).mono hm
  · trivial

theorem Serves.fits {fit' : Frame → Prop} (hs : Serves log fit user h s)
    (hfit : ∀ f, fit f → fit' f) : Serves log fit' user h s :=
  ⟨⟨hs.stage, fun t f ht hf => hfit f (hs.inbox t f ht hf)⟩, hs.written⟩

/-- What the writer takes was queued for the user. -/
theorem Serves.write (hs : Serves log fit user p.hub s) (hp : Honest log p)
    (hw : s.write p.hub = some (s', g)) : Serves log fit user g s' := by
  obtain ⟨hg, hi, hst, hwritten⟩ := Socket.write_cases hw
  have hg : p.hub.Leads log g := hg
  refine ⟨⟨hst ▸ hs.stage.leads hg, hi ▸ hs.inbox⟩, fun f hf => ?_⟩
  rcases hwritten f hf with hold | ⟨j, c, hj, hc, hout⟩
  · exact hs.written f hold
  · have huser : ∃ d, p.hub.connections.opened[j]? = some d ∧ d.userId = user := by
      have := hs.stage
      unfold Socket.connection? at hj
      split at hj
      · rename_i hst'
        cases hj
        rw [hst'] at this
        exact this
      · rename_i hst'
        cases hj
        rw [hst'] at this
        exact this
      · cases hj
    obtain ⟨d, hd, hu⟩ := huser
    obtain rfl := Option.some.inj (hd.symm.trans hc)
    exact hu ▸ hp.queued d (List.mem_of_getElem? hc) f hout

/-- A socket of the user's machine stays one, unless a text comes from elsewhere. -/
theorem Serves.step (hs : p.sockets[k]? = some s) (hserves : Serves log fit user p.hub s)
    (hp : Honest log p) (ht : Socket.Tells fit user) (links : List Nat)
    (quiet : ∀ text, t.act ≠ .arrive k (.text text)) :
    ∃ s', (p.take t).sockets[k]? = some s' ∧
      Serves (p.answers links log t) fit user (p.take t).hub s' := by
  have hm : log ⊆ p.answers links log t := List.subset_append_left _ _
  have hlead := leads_answers hp links t
  have same (he : (p.take t).sockets[k]? = p.sockets[k]?) : ∃ s', (p.take t).sockets[k]? = some s' ∧
      Serves (p.answers links log t) fit user (p.take t).hub s' :=
    ⟨s, he.trans hs, hserves.leads hlead hm⟩
  cases hact : t.act with
  | move x =>
    cases hmove : p.move t.moment x with
    | none => exact same (by simp [take, hact, hmove])
    | some q =>
      have hq : p.take t = q := by simp [take, hact, hmove]
      cases x with
      | socket j =>
        obtain ⟨s₀, hs₀, hmove⟩ := Option.bind_eq_some_iff.mp hmove
        obtain ⟨⟨s', hub⟩, hn, rfl⟩ := Option.map_eq_some_iff.mp hmove
        by_cases hj : j = k
        · subst hj
          obtain rfl := Option.some.inj (hs₀.symm.trans hs)
          refine ⟨s', by rw [hq]; exact setSocket_self hs _, ?_⟩
          rw [hq]
          have hlogged : ∀ a, s₀.answered? (links.contains j) p.hub = some a →
              a ∈ p.answers links log t := by
            intro a ha
            refine List.mem_append_right _ ?_
            rw [hact]
            simp only [answered?, hs, Option.bind_some, ha, Option.toList_some, List.mem_singleton]
          exact hserves.next ht (Socket.goes_next hn (hp.mono hm).kept hlogged) hm
        · exact same (by rw [hq]; exact setSocket_ne hj _)
      | write j =>
        obtain ⟨s₀, hs₀, hmove⟩ := Option.bind_eq_some_iff.mp hmove
        obtain ⟨⟨s', hub⟩, hn, rfl⟩ := Option.map_eq_some_iff.mp hmove
        by_cases hj : j = k
        · subst hj
          obtain rfl := Option.some.inj (hs₀.symm.trans hs)
          refine ⟨s', by rw [hq]; exact setSocket_self hs _, ?_⟩
          rw [hq]
          exact (hserves.write hp hn).leads (.refl _) hm
        · exact same (by rw [hq]; exact setSocket_ne hj _)
      | errand n => exact same (by rw [hq, sockets_moveErrand hmove])
      | feed n => exact same (by rw [hq, sockets_moveFeed hmove])
      | expire c =>
        refine same ?_
        rw [hq]
        simp only [move] at hmove
        split at hmove
        · cases hmove
          rfl
        · cases hmove
  | accept =>
    refine same ?_
    simp only [take, hact, accept]
    exact List.getElem?_append_left (List.getElem?_eq_some_iff.mp hs).1
  | arrive j x =>
    by_cases hj : j = k
    · subst hj
      refine ⟨{ s with inbox := s.inbox ++ [x] }, by simp [take, hact, arrive, hs], ?_⟩
      have := hserves.leads hlead hm
      refine ⟨⟨this.stage, fun text f hmem hf => ?_⟩, this.written⟩
      rcases List.mem_append.mp hmem with hmem | hmem
      · exact this.inbox text f hmem hf
      · exact absurd (by rw [hact, ← List.mem_singleton.mp hmem]) (quiet text)
    · exact same (by simp [take, hact, arrive, hj])
  | visit e =>
    refine same ?_
    simp only [take, hact, visit]
  | abandon n => exact same (by simp only [take, hact, sockets_abandon])
  | force user org => exact same (by simp only [take, hact])
  | sweep timeoutMs => exact same (by simp only [take, hact])

end Plane

end Fleet.Control
