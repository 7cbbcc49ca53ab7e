import Fleet.Proofs.Machine.Calls

/-!
The pauses between the attempts of a client. The time of an attempt is counted from when it was begun, not from when
the control plane accepted it, so an attempt that is slow to fail is followed by the shortest pause as if its session
had held. Apart from that each pause is twice the one before, up to the longest. The fifth rejection since the last
session that was closed ends it all.
-/

namespace Fleet.Machine

/-- An attempt that is over. -/
structure Attempt where
  /-- How long it took since it was begun. -/
  took : Nat
  /-- For how long its session was up, if the control plane accepted it. -/
  up : Option Nat
  ending : AttemptEnd
  /-- The pause after it, if the client went on. -/
  pause : Option Nat
  deriving DecidableEq, Repr

/-- Something that happens to a client, or comes in for it. -/
inductive Input where
  | act (a : Act)
  | arrive (x : Arrival)

def AttemptEnd.isRejection : AttemptEnd → Bool
  | .failed (.auth _) => true
  | _ => false

namespace Reconnect

/-- The rejections since the last attempt that ended as a closed session; the last attempt comes first. -/
def rejections : List Attempt → Nat
  | [] => 0
  | a :: older =>
    if a.ending = .closed then 0
    else if a.ending.isRejection then rejections older + 1
    else rejections older

/-- The pause that comes next by itself: the shortest, and then twice the one before, up to the longest. -/
def doubled (p : Reconnect) : List Attempt → Nat
  | [] => p.shortest
  | a :: _ => min (2 * a.pause.getD 0) p.longest

/-- The session was up for long enough. -/
def Held (p : Reconnect) (a : Attempt) : Prop := ∃ t, a.up = some t ∧ p.healthy ≤ t

instance (p : Reconnect) (a : Attempt) : Decidable (p.Held a) :=
  decidable_of_iff ((a.up.any fun t => decide (p.healthy ≤ t)) = true) (by simp [Held, Option.any_eq_true])

/-- The pause that is due after an attempt, by what came before it. -/
def due (p : Reconnect) (a : Attempt) (older : List Attempt) : Nat :=
  if p.Held a then p.shortest else p.doubled older

/-- Whether an attempt is the last one. -/
def Ends (a : Attempt) (older : List Attempt) : Prop :=
  a.ending = .shutdown ∨ a.ending.isRejection = true ∧ rejections (a :: older) = rejectionLimit

instance (a : Attempt) (older : List Attempt) : Decidable (Ends a older) := inferInstanceAs (Decidable (_ ∨ _))

/-- What comes of a list of attempts: only the first in it may have been the last one, and where the client went on, it
did so after the shortest pause if the attempt took long, else after the next one by itself. -/
def Paced (p : Reconnect) : List Attempt → Prop
  | [] => True
  | a :: older =>
    (p.Paced older ∧ ∀ b ∈ older.head?, b.pause ≠ none) ∧ (∀ t ∈ a.up, t ≤ a.took) ∧
    a.pause = if Ends a older then none else some (if p.healthy ≤ a.took then p.shortest else p.doubled older)

variable {p : Reconnect} {a : Attempt} {newer older : List Attempt}

theorem Paced.suffix (h : p.Paced (newer ++ a :: older)) : p.Paced (a :: older) := by
  induction newer with
  | nil => exact h
  | cons b rest ih => exact ih h.1.1

theorem Paced.pause_eq (h : p.Paced (a :: older)) {pause : Nat} (hpause : a.pause = some pause) :
    pause = if p.healthy ≤ a.took then p.shortest else p.doubled older := by
  have hgiven := hpause.symm.trans h.2.2
  split at hgiven
  · cases hgiven
  · exact Option.some.inj hgiven

/-- No pause is shorter than the shortest or longer than the longest. -/
theorem Paced.doubled_bounds (hp : p.shortest ≤ p.longest) (h : p.Paced older)
    (hlast : ∀ b ∈ older.head?, b.pause ≠ none) : p.shortest ≤ p.doubled older ∧ p.doubled older ≤ p.longest := by
  induction older with
  | nil => exact ⟨le_rfl, hp⟩
  | cons b rest ih =>
    obtain ⟨pause, hpause⟩ := Option.ne_none_iff_exists'.mp (hlast b rfl)
    have hbefore := ih h.1.1 h.1.2
    have heq := h.pause_eq hpause
    simp only [doubled, hpause, Option.getD_some]
    split at heq <;> omega

/-- By itself the next pause is the shortest only at first, or where all pauses are alike. -/
theorem Paced.doubled_eq_iff (hp : p.shortest ≤ p.longest) (h : p.Paced older)
    (hlast : ∀ b ∈ older.head?, b.pause ≠ none) :
    p.doubled older = p.shortest ↔ older = [] ∨ p.shortest = 0 ∨ p.shortest = p.longest := by
  have hall : p.shortest = 0 → p.doubled older = 0 := by
    intro hzero
    induction older with
    | nil => exact hzero
    | cons b rest ih =>
      obtain ⟨pause, hpause⟩ := Option.ne_none_iff_exists'.mp (hlast b rfl)
      have hnone := ih h.1.1 h.1.2
      have heq := h.pause_eq hpause
      simp only [doubled, hpause, Option.getD_some]
      split at heq <;> omega
  cases older with
  | nil => exact iff_of_true rfl (.inl rfl)
  | cons b rest =>
    obtain ⟨pause, hpause⟩ := Option.ne_none_iff_exists'.mp (hlast b rfl)
    have hbefore := h.1.1.doubled_bounds hp h.1.2
    have heq := h.pause_eq hpause
    simp only [doubled, hpause, Option.getD_some, reduceCtorEq, false_or] at hall ⊢
    split at heq <;> omega

/-- A pause is the one that is due unless the attempt took long and its session did not. -/
theorem Paced.due_iff (hp : p.shortest ≤ p.longest) (h : p.Paced (a :: older)) {pause : Nat}
    (hpause : a.pause = some pause) : pause = p.due a older ↔
      p.Held a ∨ a.took < p.healthy ∨ older = [] ∨ p.shortest = 0 ∨ p.shortest = p.longest := by
  rw [h.pause_eq hpause, due, ← h.1.1.doubled_eq_iff hp h.1.2]
  by_cases hheld : p.Held a
  · obtain ⟨t, ht, hle⟩ := hheld
    have hlong : p.healthy ≤ a.took := Nat.le_trans hle (h.2.1 t ht)
    rw [if_pos hlong, if_pos ⟨t, ht, hle⟩]
    exact iff_of_true rfl (.inl ⟨t, ht, hle⟩)
  · rw [if_neg hheld]
    by_cases hlong : p.healthy ≤ a.took
    · simp [hheld, hlong, Nat.not_lt.mpr hlong, eq_comm]
    · simp [hlong, Nat.lt_of_not_le hlong]

theorem rejections_of_rejected {text : String} (h : a.ending = .failed (.auth text)) :
    rejections (a :: older) = rejections older + 1 := by
  simp [rejections, h, AttemptEnd.isRejection]

theorem after_of_failed {cause : Error} (h : AttemptEnd.isRejection (.failed cause) = false) (s : Schedule)
    (elapsed : Nat) : p.after s elapsed (.failed cause) = p.pause s elapsed s.rejections := by
  cases cause with
  | auth text => cases h
  | _ => rfl

/-- What follows the last attempt. -/
theorem after_of_ends (s : Schedule) (hs : s.rejections = rejections older) (h : Ends a older) :
    ∃ r, p.after s a.took a.ending = (.stop r, s) ∧ (a.ending = .shutdown ∧ r = .ok () ∨
      ∃ text, a.ending = .failed (.auth text) ∧ rejections (a :: older) = rejectionLimit ∧ r = .error (.auth text)) := by
  rcases h with hend | ⟨hrejected, hfifth⟩
  · rw [hend]
    exact ⟨_, rfl, .inl ⟨rfl, rfl⟩⟩
  · obtain ⟨text, htext⟩ : ∃ text, a.ending = .failed (.auth text) := by
      unfold AttemptEnd.isRejection at hrejected
      split at hrejected
      · exact ⟨_, ‹_›⟩
      · cases hrejected
    have hcount := (rejections_of_rejected htext).symm.trans hfifth
    refine ⟨.error (.auth text), ?_, .inr ⟨text, htext, hfifth, rfl⟩⟩
    rw [htext, after, if_pos (by omega)]

/-- What follows an attempt that is not the last one. -/
theorem after_of_not_ends (hfew : rejections older < rejectionLimit) (h : ¬ Ends a older) {pause : Nat}
    (hpause : pause = if p.healthy ≤ a.took then p.shortest else p.doubled older) :
    p.after ⟨p.doubled older, rejections older⟩ a.took a.ending =
      (.again pause, ⟨min (2 * pause) p.longest, rejections (a :: older)⟩) ∧
    rejections (a :: older) < rejectionLimit := by
  have hpaused (count : Nat) : p.pause ⟨p.doubled older, rejections older⟩ a.took count =
      (.again pause, ⟨min (2 * pause) p.longest, count⟩) := by
    rw [Reconnect.pause, hpause]
  cases hend : a.ending with
  | shutdown => exact absurd (.inl hend) h
  | closed =>
    have hnone : rejections (a :: older) = 0 := by simp [rejections, hend]
    exact ⟨hnone ▸ hpaused 0, hnone ▸ Nat.succ_pos 4⟩
  | failed cause =>
    cases hrejected : AttemptEnd.isRejection (.failed cause) with
    | false =>
      have hsame : rejections (a :: older) = rejections older := by simp [rejections, hend, hrejected]
      rw [after_of_failed hrejected, hsame]
      exact ⟨hpaused _, hfew⟩
    | true =>
      obtain ⟨text, rfl⟩ : ∃ text, cause = .auth text := by
        cases cause with
        | auth text => exact ⟨text, rfl⟩
        | _ => cases hrejected
      have hmore : rejections (a :: older) = rejections older + 1 := rejections_of_rejected hend
      have hlimit : rejections (a :: older) ≠ rejectionLimit := fun hfifth => h (.inr ⟨hend ▸ rfl, hfifth⟩)
      have hnot : ¬ rejectionLimit ≤ rejections older + 1 := by omega
      rw [after, if_neg hnot, hmore]
      exact ⟨hpaused _, by omega⟩

end Reconnect

namespace Client

/-- A client with the attempts that are over, the last one first, and what is known of the present one. -/
structure Diary where
  client : Client
  /-- When the control plane accepted the present attempt. -/
  accepted : Option Nat := none
  /-- For how long the session of the present attempt was up. -/
  up : Option Nat := none
  attempts : List Attempt := []

/-- How an act ends the present attempt: when that was begun, when it is over, and what ended it. -/
def ends? (c : Client) : Act → Option (Nat × Nat × AttemptEnd)
  | .dialed now (.error text) =>
    match c.stage with
    | .dialing since => some (since, now,
        .failed (.transport s!"Failed to connect to {c.settings.controlPlaneUrl}: {text}"))
    | _ => none
  | .next now _ =>
    match c.stage with
    | .greeting since deadline =>
      match c.inbox with
      | .text t :: _ =>
        match Frame.parse t with
        | .error e => some (since, now, .failed e)
        | .ok (.error f) => some (since, now, .failed (.auth s!"{f.code}: {f.message}"))
        | .ok _ => none
      | .other :: _ => none
      | .close :: _ | .lost :: _ => some (since, now, .failed closedEarly)
      | [] => if deadline ≤ now then some (since, now, .failed unwelcomed) else none
    | .leaving since ending => if c.queue.isEmpty then some (since, now, ending) else none
    | _ => none
  | _ => none

/-- The pause that a client has just begun. -/
def pause? (c : Client) (now : Nat) : Option Nat :=
  match c.stage with
  | .pausing t => some (t - now)
  | _ => none

end Client

/-- The reading of the clock that goes with it. -/
def Input.now? : Input → Option Nat
  | .act (.request _ now) | .act (.dialed now _) | .act (.next now _) => some now
  | _ => none

namespace Client.Diary

def start (settings : Settings.Machine) (policy : Reconnect) (now : Nat) : Diary :=
  { client := .start settings policy now }

/-- An attempt goes on. It is noted when it is accepted, and how long its session was up. -/
def see (w : Diary) (d : Client) (now? : Option Nat) : Diary :=
  match w.client.stage, d.stage, now? with
  | .greeting _ _, .live _ _ _, some now => { w with client := d, accepted := some now }
  | .live _ _ _, .leaving _ _, some now => { w with client := d, up := w.accepted.map (now - ·) }
  | _, _, _ => { w with client := d }

def take (w : Diary) : Input → Diary
  | .arrive x => { w with client := w.client.arrive x }
  | .act a =>
    let d := w.client.take a
    match w.client.ends? a with
    | some (since, now, ending) =>
      { client := d, attempts := ⟨now - since, w.up, ending, d.pause? now⟩ :: w.attempts }
    | none => w.see d (Input.act a).now?

def play (inputs : List Input) (w : Diary) : Diary := inputs.foldl take w

end Client.Diary

namespace Client

/-! ### What an act does to the present attempt -/

/-- What the pauses depend on. -/
def timing (c : Client) : Reconnect × Schedule × Stage × Bool := (c.policy, c.schedule, c.stage, c.stopping)

variable {c d : Client} {a : Act} {since now : Nat} {ending : AttemptEnd}

@[simp] theorem timing_trySend (c : Client) (f : Frame) : ((c.send f).getD c).timing = c.timing := by
  unfold send
  split <;> rfl

@[simp] theorem timing_complete (c : Client) (r : Reply) : (c.complete r).timing = c.timing := by
  unfold complete
  split <;> rfl

@[simp] theorem timing_expire (c : Client) (n : Nat) : (c.expire n).timing = c.timing := by
  unfold expire
  split
  · rfl
  · split <;> rfl

@[simp] theorem timing_reconcile (c : Client) (r : Resumed) : (c.reconcile r).timing = c.timing := by
  unfold reconcile resend
  split
  · exact timing_complete _ _
  · split
    · exact timing_trySend _ _
    · rfl

theorem timing_reconciles (rs : List Resumed) (c : Client) : (rs.foldl reconcile c).timing = c.timing := by
  induction rs generalizing c with
  | nil => rfl
  | cons r rest ih => exact (ih (c.reconcile r)).trans (timing_reconcile c r)

theorem timing_hear (c : Client) (text : String) : (c.hear text).timing = c.timing := by
  unfold hear handle
  split
  · split
    · exact timing_complete _ _
    · exact timing_reconciles _ _
    · rfl
    · rfl
  · rfl

theorem timing_announce (c : Client) : c.announce.timing = c.timing := by
  unfold announce
  split
  · rfl
  · exact timing_trySend _ _

theorem timing_sendNow (c : Client) (f : Frame) : ((c.sendNow f).toOption.getD c).timing = c.timing := by
  unfold sendNow send
  split <;> rename_i h
  · split at h <;> cases h
    rfl
  · rfl

/-- How far an attempt may come by an act that does not end it. -/
inductive Stage.Onward (c : Client) (now? : Option Nat) : Stage → Prop
  | same : Onward c now? c.stage
  | greeted {since deadline : Nat} (was : c.stage = .dialing since) : Onward c now? (.greeting since deadline)
  | accepted {since deadline period beat now : Nat} (was : c.stage = .greeting since deadline)
    (at_ : now? = some now) : Onward c now? (.live since period beat)
  | beat {since period beat next : Nat} (was : c.stage = .live since period beat) :
    Onward c now? (.live since period next)
  | left {since period beat now : Nat} {ending : AttemptEnd} (was : c.stage = .live since period beat)
    (at_ : now? = some now) (cause : ending = .closed ∨ ending = .shutdown ∧ c.stopping = true) :
    Onward c now? (.leaving since ending)
  | dials {t now : Nat} (was : c.stage = .pausing t) (at_ : now? = some now) : Onward c now? (.dialing now)
  | stops {t : Nat} (was : c.stage = .pausing t) (asked : c.stopping = true) : Onward c now? (.stopped (.ok ()))

/-- A client that has stopped stays so. -/
theorem Stage.Onward.of_stopped {s : Stage} {now? : Option Nat} {r : Except Error Unit} (h : Stage.Onward c now? s)
    (hs : c.stage = .stopped r) : s = .stopped r := by
  cases h with
  | same => exact hs
  | greeted was => exact nomatch was.symm.trans hs
  | accepted was at_ => exact nomatch was.symm.trans hs
  | beat was => exact nomatch was.symm.trans hs
  | left was at_ cause => exact nomatch was.symm.trans hs
  | dials was at_ => exact nomatch was.symm.trans hs
  | stops was asked => exact nomatch was.symm.trans hs

/-- What is left of a client by an act that does not end its attempt. -/
structure Goes (c : Client) (a : Act) (d : Client) : Prop where
  policy : d.policy = c.policy
  schedule : d.schedule = c.schedule
  stopping : c.stopping = true → d.stopping = true
  stage : Stage.Onward c (Input.act a).now? d.stage

theorem Goes.congr {e : Client} (h : c.Goes a d) (hsame : e.timing = d.timing) : c.Goes a e := by
  have hstage : e.stage = d.stage := congrArg (·.2.2.1) hsame
  refine ⟨(congrArg (·.1) hsame).trans h.policy, (congrArg (·.2.1) hsame).trans h.schedule, fun hs => ?_, ?_⟩
  · exact (congrArg (·.2.2.2) hsame).trans (h.stopping hs)
  · rw [hstage]
    exact h.stage

theorem Goes.of_timing (h : d.timing = c.timing) : c.Goes a d := Goes.congr ⟨rfl, rfl, id, .same⟩ h

/-- What is left of a client whose attempt has ended. -/
structure Finished (c : Client) (since now : Nat) (ending : AttemptEnd) (d : Client) : Prop where
  policy : d.policy = c.policy
  stopping : d.stopping = c.stopping
  schedule : d.schedule = (c.policy.after c.schedule (now - since) ending).2
  stage : d.stage = match (c.policy.after c.schedule (now - since) ending).1 with
    | .stop r => .stopped r
    | .again pause => .pausing (now + pause)

theorem finished_of_timing (h : d.timing = c.timing) (since now : Nat) (ending : AttemptEnd) :
    Finished c since now ending (d.finish since now ending) := by
  have hpolicy : d.policy = c.policy := congrArg (·.1) h
  have hschedule : d.schedule = c.schedule := congrArg (·.2.1) h
  have hstopping : d.stopping = c.stopping := congrArg (·.2.2.2) h
  rcases hv : c.policy.after c.schedule (now - since) ending with ⟨verdict, schedule⟩
  cases verdict <;> constructor <;> simp [finish, hpolicy, hschedule, hstopping, hv]

/-- What ends an attempt: the welcome does not come, or its session was left. -/
def Stage.EndsBy (since : Nat) (ending : AttemptEnd) : Stage → Prop
  | .dialing t | .greeting t _ => t = since ∧ ∃ cause, ending = .failed cause
  | .leaving t cause => t = since ∧ ending = cause
  | _ => False

/-- All that an act can do to the present attempt. -/
inductive Turned (c : Client) (a : Act) (d : Client) : Prop
  | goes (open_ : c.ends? a = none) (goes : c.Goes a d)
  | ended {since now : Nat} {ending : AttemptEnd} (ends : c.ends? a = some (since, now, ending))
    (at_ : (Input.act a).now? = some now) (was : c.stage.EndsBy since ending)
    (finished : c.Finished since now ending d)

/-- Something comes in while the welcome is waited for. -/
theorem turned_expect {deadline : Nat} {wall : Int} {t : String} {rest : List Arrival}
    (hs : c.stage = .greeting since deadline) (hi : c.inbox = .text t :: rest) :
    c.Turned (.next now wall) (({ c with inbox := rest } : Client).expect since now t) := by
  have hends : c.ends? (.next now wall) = match Frame.parse t with
      | .error e => some (since, now, .failed e)
      | .ok (.error f) => some (since, now, .failed (.auth s!"{f.code}: {f.message}"))
      | .ok _ => none := by simp only [ends?, hs, hi]
  have hended (e : Error) : c.stage.EndsBy since (.failed e) := by
    rw [hs]
    exact ⟨rfl, e, rfl⟩
  unfold expect
  cases hp : Frame.parse t with
  | error e =>
    rw [hp] at hends
    exact .ended hends rfl (hended e) (finished_of_timing rfl _ _ _)
  | ok f =>
    rw [hp] at hends
    match f with
    | .error f => exact .ended hends rfl (hended _) (finished_of_timing rfl _ _ _)
    | .init w =>
      have hlive : c.Goes (.next now wall) (({ c with inbox := rest } : Client).connect since now w) :=
        ⟨rfl, rfl, id, .accepted hs rfl⟩
      exact .goes hends (hlive.congr (timing_announce _))
    | .auth _ | .request _ | .response _ | .resume _ | .resumeResponse _ | .fireAndForget _ _ | .heartbeat _
    | .sessionEvent _ _ _ => exact .goes hends (.of_timing rfl)

theorem turned_next {wall : Int} (h : c.next now wall = some d) : c.Turned (.next now wall) d := by
  unfold next at h
  split at h
  · cases h
  · cases h
  · rename_i since deadline hs
    have hended (e : Error) : c.stage.EndsBy since (.failed e) := by
      rw [hs]
      exact ⟨rfl, e, rfl⟩
    split at h
    · rename_i t rest hi
      cases h
      exact turned_expect hs hi
    · rename_i rest hi
      cases h
      exact .goes (by simp only [ends?, hs, hi]) (.of_timing rfl)
    · rename_i rest hi
      cases h
      refine .ended ?_ rfl (hended closedEarly) (finished_of_timing rfl _ _ _)
      simp only [ends?, hs, hi]
    · rename_i rest hi
      cases h
      refine .ended ?_ rfl (hended closedEarly) (finished_of_timing rfl _ _ _)
      simp only [ends?, hs, hi]
    · rename_i hi
      split at h
      · rename_i hlate
        cases h
        refine .ended ?_ rfl (hended unwelcomed) (finished_of_timing rfl _ _ _)
        simp only [ends?, hs, hi, if_pos hlate]
      · cases h
  · rename_i since period beat hs
    refine .goes (by simp only [ends?, hs]) ?_
    split at h
    · rename_i hasked
      cases h
      exact ⟨rfl, rfl, id, .left hs rfl (.inr ⟨rfl, hasked⟩)⟩
    · split at h
      · cases h
        exact .of_timing (timing_hear _ _)
      · cases h
        exact .of_timing rfl
      · cases h
        exact ⟨rfl, rfl, id, .left hs rfl (.inl rfl)⟩
      · cases h
        exact ⟨rfl, rfl, id, .left hs rfl (.inl rfl)⟩
      · split at h
        · cases h
          have hbeat : c.Goes (.next now wall) { c with stage := .live since period (now + period) } :=
            ⟨rfl, rfl, id, .beat hs⟩
          exact hbeat.congr (timing_trySend _ _)
        · cases h
  · rename_i since ending hs
    split at h
    · rename_i hempty
      cases h
      have hended : c.stage.EndsBy since ending := by
        rw [hs]
        exact ⟨rfl, rfl⟩
      refine .ended ?_ rfl hended (finished_of_timing rfl _ _ _)
      simp only [ends?, hs, if_pos hempty]
    · cases h
  · rename_i t hs
    refine .goes (by simp only [ends?, hs]) ?_
    split at h
    · rename_i hasked
      cases h
      exact ⟨rfl, rfl, id, .stops hs hasked⟩
    · split at h
      · cases h
        exact ⟨rfl, rfl, id, .dials hs rfl⟩
      · cases h

/-- A client that has no next move does not end its attempt. -/
theorem ends?_of_waiting {wall : Int} (h : c.next now wall = none) : c.ends? (.next now wall) = none := by
  unfold next at h
  split at h
  · rename_i since hs
    simp only [ends?, hs]
  · rename_i r hs
    simp only [ends?, hs]
  · rename_i since deadline hs
    split at h
    · cases h
    · cases h
    · cases h
    · cases h
    · rename_i hi
      split at h
      · cases h
      · rename_i hlate
        simp only [ends?, hs, hi, if_neg hlate]
  · rename_i hs
    simp only [ends?, hs]
  · rename_i hs
    split at h
    · cases h
    · rename_i hempty
      simp only [ends?, hs, if_neg hempty]
  · rename_i hs
    simp only [ends?, hs]

theorem turned_dialed (c : Client) (now : Nat) (reached : Except String Unit) :
    c.Turned (.dialed now reached) (c.dialed now reached) := by
  unfold dialed
  split
  · rename_i since text hs
    have hended : c.stage.EndsBy since
        (.failed (.transport s!"Failed to connect to {c.settings.controlPlaneUrl}: {text}")) := by
      rw [hs]
      exact ⟨rfl, _, rfl⟩
    refine .ended ?_ rfl hended (finished_of_timing rfl _ _ _)
    simp only [ends?, hs]
  · rename_i since hs
    exact .goes rfl ⟨rfl, rfl, id, .greeted hs⟩
  · rename_i outcome _ _ hnot _
    refine .goes ?_ (.of_timing rfl)
    cases outcome with
    | ok _ => rfl
    | error text =>
      simp only [ends?]
      split
      · rename_i since hs
        exact (hnot since text hs rfl).elim
      · rfl

theorem turned_take (c : Client) (a : Act) : c.Turned a (c.take a) := by
  cases a with
  | dialed now reached => exact turned_dialed c now reached
  | next now wall =>
    cases h : c.next now wall with
    | some d =>
      rw [take, h]
      exact turned_next h
    | none =>
      rw [take, h]
      exact .goes (ends?_of_waiting h) (.of_timing rfl)
  | request call now => exact .goes rfl (.of_timing (timing_trySend _ _))
  | expire n => exact .goes rfl (.of_timing (timing_expire c n))
  | report method payload => exact .goes rfl (.of_timing (timing_sendNow c _))
  | tell session e => exact .goes rfl (.of_timing (timing_sendNow c _))
  | answer id outcome => exact .goes rfl (.of_timing (timing_trySend _ _))
  | write =>
    refine .goes rfl (.of_timing ?_)
    rw [take, write]
    split <;> rfl
  | lose => exact .goes rfl (.of_timing rfl)
  | stop => exact .goes rfl ⟨rfl, rfl, fun _ => rfl, .same⟩

/-! ### Runs -/

namespace Diary

variable {w : Diary} {p : Reconnect} {time : Nat} {x : Input} {inputs : List Input}

/-- How far the present attempt has come, by the clock and the client's stage. -/
def Timely (w : Diary) (time : Nat) : Stage → Prop
  | .dialing since | .greeting since _ => since ≤ time ∧ w.up = none
  | .live since _ _ => (∃ t, w.accepted = some t ∧ since ≤ t ∧ t ≤ time) ∧ w.up = none
  | .leaving since ending => (∃ t, w.up = some t ∧ since + t ≤ time) ∧
    (ending = .closed ∨ ending = .shutdown ∧ w.client.stopping = true)
  | .pausing _ => w.up = none
  | .stopped r => w.client.stopping = true ∧ r = .ok () ∨
    ∃ a older text, w.attempts = a :: older ∧ a.ending = .failed (.auth text) ∧
      Reconnect.rejections w.attempts = Reconnect.rejectionLimit ∧ r = .error (.auth text)

/-- What is kept over a run. The schedule tells what the attempts come to, until the client has stopped. -/
structure Kept (p : Reconnect) (time : Nat) (w : Diary) : Prop where
  policy : w.client.policy = p
  paced : p.Paced w.attempts
  going : (∀ r, w.client.stage ≠ .stopped r) →
    w.client.schedule = ⟨p.doubled w.attempts, Reconnect.rejections w.attempts⟩ ∧
    (∀ a ∈ w.attempts.head?, a.pause ≠ none) ∧ Reconnect.rejections w.attempts < Reconnect.rejectionLimit
  timely : w.Timely time w.client.stage

theorem Kept.start (settings : Settings.Machine) (p : Reconnect) (now : Nat) :
    (start settings p now).Kept p now :=
  ⟨rfl, trivial, fun _ => ⟨rfl, nofun, Nat.succ_pos 4⟩, le_rfl, rfl⟩

theorem Timely.mono {time' : Nat} {d : Client} {s : Stage} (h : w.Timely time s) (hle : time ≤ time')
    (hstop : w.client.stopping = true → d.stopping = true) : ({ w with client := d } : Diary).Timely time' s := by
  cases s with
  | dialing since => exact ⟨Nat.le_trans h.1 hle, h.2⟩
  | greeting since deadline => exact ⟨Nat.le_trans h.1 hle, h.2⟩
  | live since period beat =>
    obtain ⟨⟨t, ht, hsince, hnow⟩, hup⟩ := h
    exact ⟨⟨t, ht, hsince, Nat.le_trans hnow hle⟩, hup⟩
  | leaving since ending =>
    obtain ⟨⟨t, ht, hsince⟩, hending⟩ := h
    exact ⟨⟨t, ht, Nat.le_trans hsince hle⟩, hending.imp_right fun hasked => ⟨hasked.1, hstop hasked.2⟩⟩
  | pausing t => exact h
  | stopped r => exact h.imp_left fun hasked => ⟨hstop hasked.1, hasked.2⟩

/-- Nothing is noted unless an attempt is accepted or its session left. -/
theorem see_eq {d : Client} {now? : Option Nat}
    (haccepted : ∀ since deadline, w.client.stage = .greeting since deadline → ∀ s p b, d.stage ≠ .live s p b)
    (hleft : ∀ since period beat, w.client.stage = .live since period beat → ∀ s e, d.stage ≠ .leaving s e) :
    w.see d now? = { w with client := d } := by
  unfold see
  split
  · rename_i hs hd
    exact (haccepted _ _ hs _ _ _ hd).elim
  · rename_i hs hd
    exact (hleft _ _ _ hs _ _ hd).elim
  · rfl

theorem see_client (w : Diary) (d : Client) (now? : Option Nat) :
    (w.see d now?).client = d ∧ (w.see d now?).attempts = w.attempts := by
  unfold see
  split <;> exact ⟨rfl, rfl⟩

/-- An attempt goes on. -/
theorem Timely.see {a : Act} {d : Client} (h : w.Timely time w.client.stage) (hg : w.client.Goes a d)
    (hnow : ∀ now ∈ (Input.act a).now?, time ≤ now) :
    (w.see d (Input.act a).now?).Timely ((Input.act a).now?.getD time) d.stage := by
  have hle : time ≤ (Input.act a).now?.getD time := by
    cases hn : (Input.act a).now? with
    | none => exact le_rfl
    | some now => exact hnow now hn
  generalize hd : d.stage = stage
  cases hd ▸ hg.stage with
  | same =>
    rw [see_eq (fun _ _ hs _ _ _ hl => nomatch hs.symm.trans (hd.symm.trans hl))
      fun _ _ _ hs _ _ hl => nomatch hs.symm.trans (hd.symm.trans hl)]
    exact h.mono hle hg.stopping
  | greeted was =>
    rw [was] at h
    rw [see_eq (fun _ _ hs => nomatch was.symm.trans hs) fun _ _ _ hs => nomatch was.symm.trans hs]
    exact ⟨Nat.le_trans h.1 hle, h.2⟩
  | @accepted since deadline period beat now was at_ =>
    rw [was] at h
    have hsee : w.see d (Input.act a).now? = { w with client := d, accepted := some now } := by
      simp only [Diary.see, was, hd, at_]
    rw [hsee, at_]
    exact ⟨⟨now, rfl, Nat.le_trans h.1 (hnow now at_), le_rfl⟩, h.2⟩
  | beat was =>
    rw [was] at h
    rw [see_eq (fun _ _ hs => nomatch was.symm.trans hs) fun _ _ _ _ _ _ hl => nomatch hd.symm.trans hl]
    exact Timely.mono (s := .live _ _ _) h hle hg.stopping
  | @left since period beat now ending was at_ cause =>
    rw [was] at h
    obtain ⟨⟨t, ht, hsince, hpast⟩, -⟩ := h
    have hsee : w.see d (Input.act a).now? = { w with client := d, up := w.accepted.map (now - ·) } := by
      simp only [Diary.see, was, hd, at_]
    rw [hsee, at_]
    refine ⟨⟨now - t, by rw [ht]; rfl, ?_⟩, cause.imp_right fun hasked => ⟨hasked.1, hg.stopping hasked.2⟩⟩
    have := hnow now at_
    simp only [Option.getD_some]
    omega
  | dials was at_ =>
    rw [was] at h
    rw [see_eq (fun _ _ hs => nomatch was.symm.trans hs) fun _ _ _ hs => nomatch was.symm.trans hs]
    refine ⟨?_, h⟩
    rw [at_]
    exact le_rfl
  | stops was asked =>
    rw [see_eq (fun _ _ hs => nomatch was.symm.trans hs) fun _ _ _ hs => nomatch was.symm.trans hs]
    exact .inl ⟨hg.stopping asked, rfl⟩

theorem Kept.see {a : Act} {d : Client} (h : w.Kept p time) (hg : w.client.Goes a d)
    (hnow : ∀ now ∈ (Input.act a).now?, time ≤ now) :
    (w.see d (Input.act a).now?).Kept p ((Input.act a).now?.getD time) := by
  obtain ⟨hclient, hattempts⟩ := w.see_client d (Input.act a).now?
  refine ⟨?_, hattempts.symm ▸ h.paced, fun hopen => ?_, ?_⟩
  · rw [hclient, hg.policy, h.policy]
  · rw [hclient] at hopen ⊢
    rw [hattempts, hg.schedule]
    exact h.going fun r hr => hopen r (hg.stage.of_stopped hr)
  · rw [hclient]
    exact h.timely.see hg hnow

/-- What is known of an attempt when it is over. -/
theorem Timely.finish {since now : Nat} {ending : AttemptEnd} (h : w.Timely time w.client.stage)
    (was : w.client.stage.EndsBy since ending) (hnow : time ≤ now) :
    (∀ t ∈ w.up, t ≤ now - since) ∧ (ending = .shutdown → w.client.stopping = true) ∧
    ∀ r, w.client.stage ≠ .stopped r := by
  cases hs : w.client.stage with
  | dialing t =>
    rw [hs] at h was
    obtain ⟨rfl, cause, rfl⟩ := was
    exact ⟨fun t ht => (nomatch h.2.symm.trans ht), nofun, nofun⟩
  | greeting t deadline =>
    rw [hs] at h was
    obtain ⟨rfl, cause, rfl⟩ := was
    exact ⟨fun t ht => (nomatch h.2.symm.trans ht), nofun, nofun⟩
  | leaving t cause =>
    rw [hs] at h was
    obtain ⟨rfl, rfl⟩ := was
    obtain ⟨⟨u, hu, hle⟩, hending⟩ := h
    refine ⟨fun t ht => ?_, fun hshutdown => ?_, nofun⟩
    · obtain rfl := Option.some.inj (hu.symm.trans ht)
      omega
    · rcases hending with hclosed | ⟨-, hasked⟩
      · cases hclosed.symm.trans hshutdown
      · exact hasked
  | live _ _ _ =>
    rw [hs] at was
    exact was.elim
  | pausing _ =>
    rw [hs] at was
    exact was.elim
  | stopped _ =>
    rw [hs] at was
    exact was.elim

theorem Kept.ended {since now : Nat} {ending : AttemptEnd} {d : Client} (h : w.Kept p time)
    (was : w.client.stage.EndsBy since ending) (finished : w.client.Finished since now ending d) (hnow : time ≤ now) :
    ({ client := d, attempts := ⟨now - since, w.up, ending, d.pause? now⟩ :: w.attempts } : Diary).Kept p now := by
  obtain ⟨hup, hasked, hopen⟩ := h.timely.finish was hnow
  obtain ⟨hschedule, hlast, hfew⟩ := h.going hopen
  have hpolicy : d.policy = p := finished.policy.trans h.policy
  have hverdict := finished.stage
  have hnext := finished.schedule
  rw [h.policy, hschedule] at hverdict hnext
  generalize ha : (⟨now - since, w.up, ending, d.pause? now⟩ : Attempt) = a
  have htook : now - since = a.took := ha ▸ rfl
  have hending : ending = a.ending := ha ▸ rfl
  have hpause : a.pause = d.pause? now := ha ▸ rfl
  have hup : ∀ t ∈ a.up, t ≤ a.took := ha ▸ hup
  rw [htook, hending] at hverdict hnext
  by_cases hends : Reconnect.Ends a w.attempts
  · obtain ⟨r, hafter, hcause⟩ := Reconnect.after_of_ends (p := p) ⟨p.doubled w.attempts, _⟩ rfl hends
    rw [hafter] at hverdict
    have hnone : d.pause? now = none := by simp only [pause?, hverdict]
    refine ⟨hpolicy, ⟨⟨h.paced, hlast⟩, hup, ?_⟩, fun hgoes => absurd hverdict (hgoes r), ?_⟩
    · rw [if_pos hends, hpause, hnone]
    · rw [hverdict]
      rcases hcause with ⟨hshutdown, rfl⟩ | ⟨text, htext, hfifth, rfl⟩
      · exact .inl ⟨finished.stopping.trans (hasked (hending.trans hshutdown)), rfl⟩
      · exact .inr ⟨a, w.attempts, text, rfl, htext, hfifth, rfl⟩
  · obtain ⟨hafter, hstill⟩ := Reconnect.after_of_not_ends hfew hends rfl
    rw [hafter] at hverdict hnext
    have hsome : a.pause = some (if p.healthy ≤ a.took then p.shortest else p.doubled w.attempts) := by
      rw [hpause]
      simp only [pause?, hverdict, Nat.add_sub_cancel_left]
    refine ⟨hpolicy, ⟨⟨h.paced, hlast⟩, hup, ?_⟩, fun _ => ⟨?_, ?_, hstill⟩, ?_⟩
    · rw [if_neg hends, hsome]
    · rw [hnext, Reconnect.doubled, hsome, Option.getD_some]
    · intro b hb hnone
      rw [← Option.some.inj hb] at hnone
      exact nomatch hsome.symm.trans hnone
    · rw [hverdict]
      rfl

theorem Kept.take (h : w.Kept p time) (x : Input) (hnow : ∀ now ∈ x.now?, time ≤ now) :
    (w.take x).Kept p (x.now?.getD time) := by
  cases x with
  | arrive x => exact ⟨h.policy, h.paced, h.going, h.timely.mono le_rfl id⟩
  | act a =>
    cases w.client.turned_take a with
    | goes open_ goes =>
      have htake : w.take (.act a) = w.see (w.client.take a) (Input.act a).now? := by
        simp only [Diary.take, open_]
      rw [htake]
      exact h.see goes hnow
    | ended ends at_ was finished =>
      simp only [Diary.take, ends, at_, Option.getD_some]
      exact h.ended was finished (hnow _ at_)

theorem Kept.play (h : w.Kept p time) (hclock : (time :: inputs.filterMap Input.now?).Pairwise (· ≤ ·)) :
    ∃ time', (play inputs w).Kept p time' := by
  induction inputs generalizing w time with
  | nil => exact ⟨time, h⟩
  | cons x rest ih =>
    cases hx : x.now? with
    | none =>
      rw [List.filterMap_cons, hx] at hclock
      have hstep := h.take x (hx ▸ nofun)
      rw [hx] at hstep
      exact ih hstep hclock
    | some now =>
      rw [List.filterMap_cons, hx] at hclock
      obtain ⟨hle, hrest⟩ := List.pairwise_cons.mp hclock
      have hstep := h.take x fun t ht => Option.some.inj (hx.symm.trans ht) ▸ hle now List.mem_cons_self
      rw [hx] at hstep
      exact ih hstep hrest

theorem Kept.result?_iff (h : w.Kept p time) (hasked : w.client.stopping = false) (r : Except Error Unit) :
    w.client.result? = some r ↔ ∃ a older text, w.attempts = a :: older ∧ a.ending = .failed (.auth text) ∧
      Reconnect.rejections w.attempts = Reconnect.rejectionLimit ∧ r = .error (.auth text) := by
  have hresult (r : Except Error Unit) (hs : w.client.stage = .stopped r) :
      ∃ a older text, w.attempts = a :: older ∧ a.ending = .failed (.auth text) ∧
        Reconnect.rejections w.attempts = Reconnect.rejectionLimit ∧ r = .error (.auth text) := by
    have htimely := h.timely
    rw [hs] at htimely
    rcases htimely with ⟨hstop, -⟩ | hrejected
    · cases hasked.symm.trans hstop
    · exact hrejected
  constructor
  · intro hr
    unfold result? at hr
    split at hr
    · rename_i r' hs
      cases hr
      exact hresult r hs
    · cases hr
  · rintro ⟨a, older, text, hattempts, htext, hfifth, rfl⟩
    by_cases hopen : ∀ r, w.client.stage ≠ .stopped r
    · exact absurd hfifth (Nat.ne_of_lt (h.going hopen).2.2)
    · push Not at hopen
      obtain ⟨r, hs⟩ := hopen
      obtain ⟨b, rest, text', hattempts', htext', -, rfl⟩ := hresult r hs
      obtain ⟨rfl, -⟩ := List.cons.inj (hattempts.symm.trans hattempts')
      cases htext.symm.trans htext'
      simp only [result?, hs]

/-- Over any run, whatever ends the attempts and however long they take: after each attempt, unless it ended by
request or was the fifth to be rejected since a session was closed, there is a pause, and it is the one that is due,
the shortest at first and after a session that held, else twice the one before up to the longest, if and only if the
attempt's session held or the whole attempt was shorter than that, or all pauses due are the same. A client that was
not asked to stop stops exactly when an attempt is the fifth to be rejected since a session was closed, and then with
that rejection. -/
theorem pauses_are_due_iff (settings : Settings.Machine) (policy : Reconnect) (now : Nat) (inputs : List Input)
    (hpolicy : policy.shortest ≤ policy.longest)
    (hclock : (now :: inputs.filterMap Input.now?).Pairwise (· ≤ ·)) :
    let w := play inputs (start settings policy now)
    (∀ newer a older, w.attempts = newer ++ a :: older →
      (a.pause = none ↔ Reconnect.Ends a older) ∧
      ∀ pause, a.pause = some pause → (pause = policy.due a older ↔ policy.Held a ∨ a.took < policy.healthy ∨
        older = [] ∨ policy.shortest = 0 ∨ policy.shortest = policy.longest)) ∧
    (w.client.stopping = false → ∀ r, w.client.result? = some r ↔
      ∃ a older text, w.attempts = a :: older ∧ a.ending = .failed (.auth text) ∧
        Reconnect.rejections w.attempts = Reconnect.rejectionLimit ∧ r = .error (.auth text)) := by
  intro w
  obtain ⟨time, hkept⟩ := (Kept.start settings policy now).play hclock
  refine ⟨fun newer a older hattempts => ?_, hkept.result?_iff⟩
  have hpaced : policy.Paced (newer ++ a :: older) := hattempts ▸ hkept.paced
  have hpaced := hpaced.suffix
  refine ⟨?_, fun pause hpause => hpaced.due_iff hpolicy hpause⟩
  rw [hpaced.2.2]
  split
  · exact iff_of_true rfl ‹_›
  · exact iff_of_false nofun ‹_›

/-- Two attempts fail at once; the third one's session is up for a minute and is then lost. -/
def settling : List Input :=
  [.act (.dialed 0 (.error "refused")), .act (.next 2000 0), .act (.dialed 2000 (.error "refused")),
    .act (.next 6000 0), .act (.dialed 6000 (.ok ())), .arrive (.text (Frame.text (.init ⟨"conn-1", [], 0⟩))),
    .act (.next 6100 0), .arrive .lost, .act (.next 66100 0), .act (.next 66100 0)]

/-- After a session that held the pauses start over. -/
theorem held_session_starts_over :
    let w := play settling (start {} {} 0)
    (settling.filterMap Input.now?).Pairwise (· ≤ ·) ∧
    w.attempts.map (fun a => (a.took, a.up, a.pause)) =
      [(60100, some 60000, some 2000), (0, none, some 4000), (0, none, some 2000)] ∧
    ∀ newer a older, w.attempts = newer ++ a :: older → ∀ pause, a.pause = some pause →
      a.took < 60000 ∨ a.up = some 60000 → pause = ({} : Reconnect).due a older := by
  intro w
  have hclock : (0 :: settling.filterMap Input.now?).Pairwise (· ≤ ·) := by decide +kernel
  refine ⟨hclock.tail, by decide +kernel, fun newer a older hattempts pause hpause hcause => ?_⟩
  refine (((pauses_are_due_iff {} {} 0 settling (by decide) hclock).1 newer a older hattempts).2 pause hpause).mpr ?_
  exact hcause.elim (fun h => .inr (.inl h)) fun h => .inl ⟨60000, h, le_rfl⟩

/-- An attempt that fails to connect for a minute, after two that failed at once, is followed by the shortest pause and
not by twice the one before, though no session was ever up. -/
theorem slow_failure_starts_over :
    let inputs : List Input := [.act (.dialed 0 (.error "refused")), .act (.next 2000 0),
      .act (.dialed 2000 (.error "refused")), .act (.next 6000 0), .act (.dialed 66000 (.error "timed out"))]
    let w := play inputs (start {} {} 0)
    (0 :: inputs.filterMap Input.now?).Pairwise (· ≤ ·) ∧
    w.attempts.map (fun a => (a.took, a.up, a.pause)) =
      [(60000, none, some 2000), (0, none, some 4000), (0, none, some 2000)] ∧
    ∃ a older, w.attempts = a :: older ∧ ({} : Reconnect).due a older = 8000 ∧ a.pause = some 2000 := by
  intro inputs w
  refine ⟨by decide +kernel, by decide +kernel, _, _, rfl, ?_, ?_⟩ <;> decide +kernel

end Diary

end Client

end Fleet.Machine
