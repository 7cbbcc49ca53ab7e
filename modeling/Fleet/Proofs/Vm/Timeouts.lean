import Fleet.Proofs.Vm.Foremost

/-!
What a sweep does that nothing comes between, by its timeout. The timeout is cut to a signed number and
taken from the present time: where both go well, the sweep disconnects the rows that were silent for longer than
that, counts them and leaves the others. A timeout of more than 63 bits turns into a time ahead, before which every
row was heard, and one that leads out of the calendar breaks the sweep off.
-/

namespace Fleet

namespace Instant

/-- A time that a clock shows: one of the calendar, in no leap second. -/
structure Shown (t : Instant) : Prop where
  nanos : t.nanos < perSecond
  calendar : t.InCalendar

instance (t : Instant) : Decidable t.Shown :=
  decidable_of_iff (t.nanos < perSecond ∧ t.InCalendar) ⟨fun ⟨h, h'⟩ => ⟨h, h'⟩, fun ⟨h, h'⟩ => ⟨h, h'⟩⟩

/-- Nanoseconds since the start of 1970. -/
def position (t : Instant) : Int := t.seconds * perSecond + t.nanos

variable {a b : Instant}

theorem lt_iff_position (ha : a.nanos < perSecond) (hb : b.nanos < perSecond) :
    a < b ↔ a.position < b.position := by
  change a.seconds < b.seconds ∨ a.seconds = b.seconds ∧ a.nanos < b.nanos ↔ _
  unfold position perSecond at *
  omega

theorem addMillis_spec (ha : a.nanos < perSecond) (ms : Int) :
    (a.addMillis ms).nanos < perSecond ∧ (a.addMillis ms).position = a.position + ms * perMilli := by
  have hleap : a.isLeap = false := by simp [isLeap, ha]
  have hms := Int.mul_tdiv_add_tmod ms 1000
  have hpositive : (0 : Int) ≤ perSecond := Int.natCast_nonneg _
  simp only [addMillis, hleap, Bool.false_eq_true, ↓reduceIte, ofNanos, position,
    Int.fdiv_eq_ediv_of_nonneg _ hpositive, Int.fmod_eq_emod_of_nonneg _ hpositive]
  unfold perSecond perMilli at *
  omega

/-- Two times that clocks show are less than half of the milliseconds apart that 64 bits can count. -/
theorem position_lt_of_shown (ha : a.Shown) (hb : b.Shown) :
    b.position < a.position + (bitBound 63 : Nat) * perMilli := by
  obtain ⟨-, hlow, -⟩ := ha
  obtain ⟨hnanos, -, hhigh⟩ := hb
  have hfirst : daysOf ⟨-262143, 1, 1⟩ = -96465292 := by decide +kernel
  have hlast : daysOf ⟨262143, 1, 1⟩ = 95026237 := by decide +kernel
  rw [hfirst] at hlow
  rw [hlast] at hhigh
  rw [bitBound_63]
  unfold position perSecond perMilli at *
  omega

end Instant

namespace Vm

open World

/-- Whether a ready row was last heard of before a time. -/
def Row.lapsed (cutoff : Instant) (r : Row) : Bool := r.status == .ready && decide (r.lastSeen < cutoff)

/-- Whether a ready row was last heard of more than so many milliseconds ago. -/
def Row.silent (now : Instant) (timeout : Nat) (r : Row) : Bool :=
  r.status == .ready && decide (r.lastSeen.position + timeout * Instant.perMilli < now.position)

/-- Some rows are disconnected. -/
def World.losing (w : World) (now : Instant) (gone : Row → Bool) : World :=
  { w with store := { w.store with rows := w.store.rows.map fun r => if gone r then r.disconnect now else r } }

/-- A sweep disconnects the rows that were silent for longer than its timeout, does nothing else, and tells how
many they are. -/
def World.Obeys (w : World) (p : Policy) (s : Surroundings) (timeout : Nat) : Prop :=
  Turn.run p ⟨s, .sweep timeout⟩ w =
    (.ok (.count (w.store.rows.filter (·.silent s.now timeout)).length), w.losing s.now (·.silent s.now timeout))

variable {p : Policy} {s : Surroundings} {w : World} {r : Row} {now cutoff : Instant} {timeout : Nat}
  {shown : Instant → Prop}

/-! ### A sweep that nothing comes between -/

theorem Row.lastSeen_mem_times (r : Row) : r.lastSeen ∈ r.times := by
  unfold lastSeen times
  cases r.lastHeartbeatAt <;> simp

namespace Work

/-- A ready row is disconnected when the sweep comes to it. -/
theorem demoteStale_of_ready (hw : w.Lone) (hf : w.Foremost shown) (hr : r ∈ w.store.rows)
    (hs : r.status = .ready) (now : Instant) :
    demoteStale now r w = (.ok true, w.put (r.disconnect now)) := by
  have hlive : r.isLive = true := by simp [Row.isLive, hs, Status.isTerminal]
  have hfound : w.live? r.userId = some r := by rw [World.live?, hf.last r hr hs, Option.filter_some, if_pos hlive]
  rw [demoteStale, bind_of_ok (hw.readLive r.userId), hfound]
  simp only [hs, and_self, ↓reduceIte]
  exact bind_of_ok (hw.update hr hlive rfl rfl rfl)

/-- A sweep disconnects all that it has listed. -/
theorem demoteAll_eq (hw : w.Lone) (hf : w.Foremost shown) (hnow : shown now) {rows : List Row} (n : Nat)
    (hrows : ∀ r ∈ rows, r ∈ w.store.rows ∧ r.status = .ready) (hn : (rows.map Row.id).Nodup) :
    demoteAll now rows n w = (.ok (n + rows.length), w.losing now fun r => decide (r ∈ rows)) := by
  induction rows generalizing w n with
  | nil =>
    rw [show demoteAll now [] n w = (.ok n, w) from rfl]
    simp [losing]
  | cons c rest ih =>
    obtain ⟨hc, hs⟩ := hrows c List.mem_cons_self
    obtain ⟨hnot, hn⟩ := List.nodup_cons.mp (List.map_cons ▸ hn)
    have hlive : c.isLive = true := by simp [Row.isLive, hs, Status.isTerminal]
    have hapart (r : Row) (hr : r ∈ rest) : r.id ≠ c.id := fun h => hnot (h ▸ List.mem_map_of_mem hr)
    have hleft : ∀ r ∈ rest, r ∈ (w.put (c.disconnect now)).store.rows ∧ r.status = .ready := by
      intro r hr
      obtain ⟨hmem, hready⟩ := hrows r (List.mem_cons_of_mem _ hr)
      exact ⟨List.mem_map.mpr ⟨r, hmem, if_neg (hapart r hr)⟩, hready⟩
    have hlone : (w.put (c.disconnect now)).Lone := hw.put hc hlive rfl rfl
    have hput : (w.put (c.disconnect now)).Foremost shown := by
      refine hf.put hc (c.renewed_disconnect now) hnow fun h => ?_
      cases h
    rw [demoteAll, bind_of_ok (demoteStale_of_ready hw hf hc hs now), if_pos rfl,
      ih hlone hput (n + 1) hleft hn, List.length_cons, Nat.add_right_comm, Nat.add_assoc]
    refine congrArg (Prod.mk _) ?_
    simp only [losing, World.put, List.map_map]
    refine congrArg (fun rows => World.mk ⟨_, rows⟩ _ _) (List.map_congr_left fun q hq => ?_)
    rw [Function.comp_apply]
    by_cases hqc : q.id = c.id
    · obtain rfl := eq_of_id hw.distinct hq hc hqc
      simp [Row.disconnect]
    · have hne : q ≠ c := fun h => hqc (h ▸ rfl)
      simp [Row.disconnect, hqc, hne]

theorem sweep_eq (hw : w.Lone) (hf : w.Foremost shown) (hnow : shown now) (cutoff : Instant) :
    sweep now cutoff w = (.ok (w.store.rows.filter (Row.lapsed cutoff)).length, w.losing now (Row.lapsed cutoff)) := by
  have hlisted : ((w.store.byStatus .ready).filter fun r => decide (r.lastSeen < cutoff)) =
      w.store.listing.filter (Row.lapsed cutoff) := by
    rw [Store.byStatus, List.filter_filter]
    exact List.filter_congr fun r _ => Bool.and_comm _ _
  have hperm : w.store.listing.Perm w.store.rows := by
    unfold Store.listing
    cases w.store.keeping
    · exact .refl _
    · exact List.mergeSort_perm _ _
  have hrows : ∀ r ∈ w.store.listing.filter (Row.lapsed cutoff), r ∈ w.store.rows ∧ r.status = .ready := by
    intro r hr
    obtain ⟨hmem, hlapsed⟩ := List.mem_filter.mp hr
    exact ⟨mem_listing.mp hmem, eq_of_beq (Bool.and_eq_true_iff.mp hlapsed).1⟩
  have hn : ((w.store.listing.filter (Row.lapsed cutoff)).map Row.id).Nodup :=
    ((hperm.map Row.id).nodup_iff.mpr hw.distinct).sublist (List.filter_sublist.map _)
  rw [sweep, bind_of_ok (staleRows_eq hw cutoff), hlisted, demoteAll_eq hw hf hnow 0 hrows hn, Nat.zero_add,
    (hperm.filter _).length_eq]
  refine congrArg (Prod.mk _) ?_
  unfold losing
  refine congrArg (fun rows => World.mk ⟨_, rows⟩ _ _) (List.map_congr_left fun q hq => ?_)
  simp [mem_listing.mpr hq]

theorem signed64_of_lt (h : timeout < bitBound 63) : signed64 timeout = timeout := by
  rw [bitBound_63] at h
  unfold signed64
  rw [bitBound_64, Int.bmod_def]
  omega

theorem signed64_of_le (h : bitBound 63 ≤ timeout) (hbits : timeout < bitBound 64) :
    signed64 timeout = -((bitBound 64 - timeout : Nat) : Int) := by
  rw [bitBound_63] at h
  unfold signed64
  rw [bitBound_64] at hbits ⊢
  rw [Int.bmod_def]
  omega

theorem cutoff?_eq (now : Instant) (timeout : Nat) : cutoff? now timeout =
    if (now.addMillis (-signed64 timeout)).InCalendar then some (now.addMillis (-signed64 timeout)) else none := rfl

end Work

/-! ### Which sweeps keep to their timeout -/

namespace World

theorem run_sweep (hw : w.Lone) (hf : w.Foremost shown) (hnow : shown s.now)
    (hcut : Work.cutoff? s.now timeout = some cutoff) : Turn.run p ⟨s, .sweep timeout⟩ w =
      (.ok (.count (w.store.rows.filter (Row.lapsed cutoff)).length), w.losing s.now (Row.lapsed cutoff)) := by
  simp only [Turn.run, Operation.work, hcut]
  exact Work.bind_of_ok (Work.sweep_eq hw hf hnow cutoff)

theorem run_sweep_broken (hcut : Work.cutoff? s.now timeout = none) :
    Turn.run p ⟨s, .sweep timeout⟩ w = (.ok .broken, w) := by
  simp only [Turn.run, Operation.work, hcut]
  rfl

/-- Rows that are ready and disconnected alike are the same ones. -/
theorem eq_of_losing {gone gone' : Row → Bool} (hready : ∀ r, gone r = true → r.status = .ready)
    (hready' : ∀ r, gone' r = true → r.status = .ready) (h : w.losing now gone = w.losing now gone')
    (hr : r ∈ w.store.rows) : gone r = gone' r := by
  have hrows : (w.store.rows.map fun r => if gone r then r.disconnect now else r) =
      w.store.rows.map fun r => if gone' r then r.disconnect now else r := congrArg (·.store.rows) h
  have hsame := congrArg Row.status (List.map_inj_left.mp hrows r hr)
  have hno : Status.disconnected ≠ .ready := nofun
  cases hg : gone r <;> cases hg' : gone' r <;>
    simp only [hg, hg', ↓reduceIte, Bool.false_eq_true, Row.disconnect] at hsame ⊢
  · exact (hno (hsame.symm.trans (hready' r hg'))).elim
  · exact (hno (hsame.trans (hready r hg))).elim

theorem obeys_iff (hw : w.Lone) (hf : w.Foremost shown) (hnow : shown s.now)
    (hcut : Work.cutoff? s.now timeout = some cutoff) :
    w.Obeys p s timeout ↔ ∀ r ∈ w.store.rows, r.lapsed cutoff = r.silent s.now timeout := by
  unfold Obeys
  rw [run_sweep hw hf hnow hcut]
  refine ⟨fun h r hr => ?_, fun h => ?_⟩
  · refine eq_of_losing (fun r h => ?_) (fun r h => ?_) (Prod.mk.inj h).2 hr <;>
      exact eq_of_beq (Bool.and_eq_true_iff.mp h).1
  · unfold losing
    rw [List.filter_congr h, List.map_congr_left fun r hr => by rw [h r hr]]

end World

namespace Row

theorem lapsed_eq_false_iff (r : Row) :
    r.lapsed cutoff = false ↔ (r.status = .ready → ¬ r.lastSeen < cutoff) := by
  simp [lapsed]

/-- Rows that were heard before the time that lies the timeout back are those that were silent for longer. -/
theorem lapsed_eq_silent (hnow : now.nanos < Instant.perSecond) (hr : r.lastSeen.nanos < Instant.perSecond)
    (timeout : Nat) : r.lapsed (now.addMillis (-timeout)) = r.silent now timeout := by
  obtain ⟨hnanos, hplace⟩ := Instant.addMillis_spec hnow (-timeout)
  unfold lapsed silent
  congr 1
  rw [decide_eq_decide, Instant.lt_iff_position hr hnanos, hplace]
  rw [Int.neg_mul]
  omega

theorem not_silent (hnow : now.Shown) (hr : r.lastSeen.Shown) (hlong : bitBound 63 ≤ timeout) :
    r.silent now timeout = false := by
  have hnear := Instant.position_lt_of_shown hr hnow
  have hfar : ((bitBound 63 : Nat) : Int) * Instant.perMilli ≤ timeout * Instant.perMilli :=
    Int.mul_le_mul_of_nonneg_right (Int.ofNat_le.mpr hlong) (Int.natCast_nonneg _)
  have hnot : ¬ r.lastSeen.position + timeout * Instant.perMilli < now.position := by omega
  simp [silent, hnot]

end Row

namespace World

variable (hw : w.Lone) (hf : w.Foremost Instant.Shown) (hnow : s.now.Shown)

include hf in
theorem seen_shown (hr : r ∈ w.store.rows) : r.lastSeen.Shown := hf.times r hr _ r.lastSeen_mem_times

theorem not_obeys_of_broken (hcut : Work.cutoff? s.now timeout = none) : ¬ w.Obeys p s timeout := by
  unfold Obeys
  rw [run_sweep_broken hcut]
  exact fun h => nomatch (Prod.mk.inj h).1

include hw hf hnow

/-- A timeout of 63 bits is kept to unless it leads out of the calendar. -/
theorem obeys_iff_of_lt (hshort : timeout < bitBound 63) :
    w.Obeys p s timeout ↔ (s.now.addMillis (-timeout)).InCalendar := by
  have hcut := Work.cutoff?_eq s.now timeout
  rw [Work.signed64_of_lt hshort] at hcut
  by_cases hin : (s.now.addMillis (-timeout)).InCalendar
  · rw [if_pos hin] at hcut
    rw [obeys_iff hw hf hnow hcut]
    exact iff_of_true (fun r hr => r.lapsed_eq_silent hnow.nanos (seen_shown hf hr).nanos timeout) hin
  · rw [if_neg hin] at hcut
    exact iff_of_false (not_obeys_of_broken hcut) hin

/-- No row was silent for a longer timeout, which yet disconnects all that were heard before a time ahead. -/
theorem obeys_iff_of_le (hlong : bitBound 63 ≤ timeout) (hbits : timeout < bitBound 64) :
    w.Obeys p s timeout ↔ (s.now.addMillis (bitBound 64 - timeout : Nat)).InCalendar ∧
      ∀ r ∈ w.store.rows, r.status = .ready →
        s.now.position + (bitBound 64 - timeout : Nat) * Instant.perMilli ≤ r.lastSeen.position := by
  have hcut := Work.cutoff?_eq s.now timeout
  rw [Work.signed64_of_le hlong hbits, Int.neg_neg] at hcut
  by_cases hin : (s.now.addMillis (bitBound 64 - timeout : Nat)).InCalendar
  · rw [if_pos hin] at hcut
    rw [obeys_iff hw hf hnow hcut, and_iff_right hin]
    refine forall₂_congr fun r hr => ?_
    have hseen := seen_shown hf hr
    obtain ⟨hnanos, hplace⟩ := Instant.addMillis_spec hnow.nanos (bitBound 64 - timeout : Nat)
    rw [r.not_silent hnow hseen hlong, r.lapsed_eq_false_iff, Instant.lt_iff_position hseen.nanos hnanos, hplace,
      Int.not_lt]
  · rw [if_neg hin] at hcut
    exact iff_of_false (not_obeys_of_broken hcut) fun h => hin h.1

/-- A longer timeout of 63 bits disconnects no more rows. -/
theorem sweep_le {longer m n : Nat} (hle : timeout ≤ longer) (hshort : longer < bitBound 63)
    (hm : (Turn.run p ⟨s, .sweep timeout⟩ w).1 = .ok (.count m))
    (hn : (Turn.run p ⟨s, .sweep longer⟩ w).1 = .ok (.count n)) : n ≤ m := by
  have hcount {timeout k : Nat} (hshort : timeout < bitBound 63)
      (hk : (Turn.run p ⟨s, .sweep timeout⟩ w).1 = .ok (.count k)) :
      k = (w.store.rows.filter (·.silent s.now timeout)).length := by
    have hobeys : w.Obeys p s timeout := by
      rw [obeys_iff_of_lt hw hf hnow hshort]
      by_contra hin
      have hcut := Work.cutoff?_eq s.now timeout
      rw [Work.signed64_of_lt hshort, if_neg hin] at hcut
      rw [run_sweep_broken hcut] at hk
      cases hk
    rw [hobeys] at hk
    cases hk
    rfl
  rw [hcount (Nat.lt_of_le_of_lt hle hshort) hm, hcount hshort hn, ← List.countP_eq_length_filter,
    ← List.countP_eq_length_filter]
  refine List.countP_mono_left fun r _ hsilent => ?_
  obtain ⟨hready, hpast⟩ := Bool.and_eq_true_iff.mp hsilent
  refine Bool.and_eq_true_iff.mpr ⟨hready, decide_eq_true ?_⟩
  have hpast := of_decide_eq_true hpast
  have hfar : (timeout : Int) * Instant.perMilli ≤ longer * Instant.perMilli :=
    Int.mul_le_mul_of_nonneg_right (Int.ofNat_le.mpr hle) (Int.natCast_nonneg _)
  omega

end World

/-- Over any operations, on either kind of store and whatever accesses to it fail, for every timeout that 64 bits
hold: a sweep that nothing comes between disconnects exactly the rows that were silent for longer than its timeout,
changes no other and tells their number if and only if the timeout has 63 bits and the time that lies it back is in
the calendar. A longer one is taken for a time ahead, and does no harm only where no ready row was heard before that
time. Among the timeouts of 63 bits, a longer one never disconnects more rows. -/
theorem sweeps_keep_to_their_timeout_iff (p : Policy) (keeping : Keeping) (faults : List (Option Error))
    (turns : List Turn) (s : Surroundings) (timeout : Nat) (hfresh : (turns.map Turn.freshId).Nodup)
    (hclock : ∀ t ∈ turns, t.surroundings.now.Shown) (hnow : s.now.Shown) (hbits : timeout < bitBound 64) :
    let w := (play p turns (.vacant keeping faults)).2.meeting []
    (w.Obeys p s timeout ↔
      timeout < bitBound 63 ∧ (s.now.addMillis (-timeout)).InCalendar ∨
      bitBound 63 ≤ timeout ∧ (s.now.addMillis (bitBound 64 - timeout : Nat)).InCalendar ∧
        ∀ r ∈ w.store.rows, r.status = .ready →
          s.now.position + (bitBound 64 - timeout : Nat) * Instant.perMilli ≤ r.lastSeen.position) ∧
    ∀ longer m n, timeout ≤ longer → longer < bitBound 63 →
      (Turn.run p ⟨s, .sweep timeout⟩ w).1 = .ok (.count m) →
      (Turn.run p ⟨s, .sweep longer⟩ w).1 = .ok (.count n) → n ≤ m := by
  intro w
  have hapart : Apart turns (.vacant keeping faults) := .vacant hfresh
  have hvacant : (World.vacant keeping faults).Single :=
    ⟨List.nodup_nil, fun _ hq => absurd hq List.not_mem_nil⟩
  have hsingle := hvacant.play (p := p) hapart
  have hw : w.Lone := ⟨hsingle.distinct, rfl, hsingle.alone⟩
  have hf : w.Foremost Instant.Shown := ((World.Foremost.vacant keeping faults).play hapart hclock).meeting []
  refine ⟨?_, fun longer m n hle hshort => World.sweep_le hw hf hnow hle hshort⟩
  rcases Nat.lt_or_ge timeout (bitBound 63) with hshort | hlong
  · rw [World.obeys_iff_of_lt hw hf hnow hshort, or_iff_left fun h => Nat.not_le_of_lt hshort h.1,
      and_iff_right hshort]
  · rw [World.obeys_iff_of_le hw hf hnow hlong hbits, or_iff_right fun h => Nat.not_le_of_lt h.1 hlong,
      and_iff_right hlong]

/-- A machine was heard half a minute and a millisecond ago, and another's just half a minute ago. -/
theorem half_a_minute_of_silence :
    let p : Policy := ⟨{}, ⟨"secret", 600⟩⟩
    let turn (seconds : Int) (nanos : Nat) (op : Operation) : Turn :=
      ⟨⟨⟨seconds, nanos⟩, 0, s!"row-{seconds}", s!"ticket-{seconds}", .ok ()⟩, op⟩
    let turns := [turn 0 0 (.ensure "u" "o" false), turn 1 0 (.ensure "v" "o" false), turn 2 0 (.connected "u"),
      turn 3 0 (.connected "v"), turn 29 999000000 (.heartbeat "u"), turn 30 0 (.heartbeat "v")]
    let s : Surroundings := ⟨⟨60, 0⟩, 0, "row-60", "ticket-60", .ok ()⟩
    let w := (play p turns (.vacant .arrival [])).2.meeting []
    w.Obeys p s 30000 ∧ (w.store.rows.filter (·.silent s.now 30000)).map Row.userId = ["u"] := by
  intro p turn turns s w
  have h := sweeps_keep_to_their_timeout_iff p .arrival [] turns s 30000 (by decide +kernel) (by decide +kernel)
    (by decide +kernel) (by decide +kernel)
  exact ⟨h.1.mpr (.inl ⟨by decide +kernel, by decide +kernel⟩), by decide +kernel⟩

/-- Settings may tell never to give up a machine. A machine that was heard this very moment is then
disconnected, and with half of that timeout a sweep breaks off. -/
theorem timeout_without_end_ends_all :
    let never := bitBound 64 - 1
    let settings : Settings.ControlPlane := { ws := { heartbeatTimeout := never } }
    let p : Policy := ⟨settings.vm, ⟨"secret", 600⟩⟩
    let turn (n : Int) (op : Operation) : Turn :=
      ⟨⟨⟨n, 0⟩, 0, s!"row-{n}", s!"ticket-{n}", .ok ()⟩, op⟩
    let turns := [turn 0 (.ensure "u" "o" false), turn 1 (.connected "u")]
    let s : Surroundings := ⟨⟨1, 0⟩, 0, "row-1", "ticket-1", .ok ()⟩
    let w := (play p turns (.vacant .arrival [])).2
    settings.validate = .ok () ∧ w.store.rows.filter (·.silent s.now never) = [] ∧
    (Turn.run p ⟨s, .sweep never⟩ w).1 = .ok (.count 1) ∧
    (Turn.run p ⟨s, .sweep never⟩ w).2.store.rows.map Row.status = [.disconnected] ∧
    (Turn.run p ⟨s, .sweep (never / 2)⟩ w).1 = .ok .broken ∧ ¬ w.Obeys p s never := by
  intro never settings p turn turns s w
  have hone : (Turn.run p ⟨s, .sweep never⟩ w).1 = .ok (.count 1) := by decide +kernel
  have hnone : w.store.rows.filter (·.silent s.now never) = [] := by decide +kernel
  refine ⟨rfl, hnone, hone, by decide +kernel, by decide +kernel, fun h => ?_⟩
  rw [h, hnone] at hone
  cases hone

end Vm
end Fleet
