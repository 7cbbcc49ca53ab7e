import Mathlib.Data.List.Induction
import Fleet.Proofs.Tables
import Fleet.Vm.Locks

/-!
The locks of users among any number of tasks. Two tasks never hold one user's lock at once: all who refer to a
user's lock refer to the one in use, as that is not dropped while anybody refers to it. A lock that nobody wants
any more is dropped by the last task that held it; a task that was dropped before it held the lock leaves it there.
-/

namespace Fleet.Vm.Locks

/-! ### Steps -/

/-- What a step does, by what the task does. -/
inductive Stepped (ls : Locks) : Move → Locks → Prop where
  | refer {user : String} {k : Nat} (fresh : ∀ t ∈ ls.tasks, t.id ≠ k) :
    Stepped ls ⟨k, user, .refer⟩ (ls.refer user k)
  | queue {t : Task} (there : t ∈ ls.tasks) (phase : t.phase = .asking) :
    Stepped ls ⟨t.id, t.user, .queue⟩ (ls.queue t)
  | notice {t : Task} (there : t ∈ ls.tasks) (phase : t.phase = .waiting)
    (turn : (ls.lock t.lock).holder = some t.id) :
    Stepped ls ⟨t.id, t.user, .notice⟩ (ls.advance t id .holding)
  | unlock {t : Task} (there : t ∈ ls.tasks) (phase : t.phase = .holding) :
    Stepped ls ⟨t.id, t.user, .unlock⟩ (ls.advance t .pass .parting)
  | part {t : Task} (there : t ∈ ls.tasks) (phase : t.phase = .parting) :
    Stepped ls ⟨t.id, t.user, .part⟩ (ls.advance t id .leaving)
  | dismiss {t : Task} (there : t ∈ ls.tasks) (phase : t.phase = .leaving) :
    Stepped ls ⟨t.id, t.user, .dismiss⟩ ((ls.clear t.user).forget t)
  | withdraw {t : Task} (there : t ∈ ls.tasks) (phase : t.phase = .asking ∨ t.phase = .waiting) :
    Stepped ls ⟨t.id, t.user, .withdraw⟩ (ls.advance t (.withdraw t.id) .withdrawn)
  | forsake {t : Task} (there : t ∈ ls.tasks) (phase : t.phase = .withdrawn) :
    Stepped ls ⟨t.id, t.user, .forsake⟩ (ls.forget t)

variable {ls ls' : Locks} {t u : Task} {m : Move} {moves : List Move} {user : String} {k n : Nat}
  {f : Lock → Lock} {phase : Phase}

theorem stepped (h : ls.step? m = some ls') : Stepped ls m ls' := by
  obtain ⟨k, user, act⟩ := m
  unfold step? task? at h
  cases hfound : ls.tasks.find? (·.id = k) with
  | none =>
    simp only [hfound] at h
    split at h
    · rename_i hact
      cases hact
      cases h
      exact .refer fun t ht => by simpa using List.find?_eq_none.mp hfound t ht
    · cases h
  | some t =>
    have there := List.mem_of_find?_eq_some hfound
    obtain rfl : t.id = k := by simpa using List.find?_some hfound
    simp only [hfound] at h
    split at h
    · cases h
    · rename_i huser
      obtain rfl : t.user = user := not_not.mp huser
      split at h
      · rename_i hphase
        cases h
        exact .queue there hphase
      · rename_i hphase
        split at h
        · rename_i hturn
          cases h
          exact .notice there hphase hturn
        · cases h
      · rename_i hphase
        cases h
        exact .unlock there hphase
      · rename_i hphase
        cases h
        exact .part there hphase
      · rename_i hphase
        cases h
        exact .dismiss there hphase
      · rename_i hphase
        cases h
        exact .withdraw there (.inl hphase)
      · rename_i hphase
        cases h
        exact .withdraw there (.inr hphase)
      · rename_i hphase
        cases h
        exact .forsake there hphase
      · cases h

/-! ### One lock for each user -/

/-- Whoever refers to a user's lock refers to the one in use, and whoever holds a lock has its turn. -/
structure Sound (ls : Locks) : Prop where
  distinct : ∀ t ∈ ls.tasks, ∀ u ∈ ls.tasks, t.id = u.id → t = u
  made : ∀ user n, ls.entries.lookup user = some n → n < ls.made.length
  apart : ∀ u v n, ls.entries.lookup u = some n → ls.entries.lookup v = some n → u = v
  referring : ∀ t ∈ ls.tasks, t.phase.refers = true → ls.entries.lookup t.user = some t.lock
  turn : ∀ t ∈ ls.tasks, t.phase = .holding → (ls.lock t.lock).holder = some t.id

/-- Nobody holds or awaits the user's lock or is on the way out. -/
def Idle (ls : Locks) (user : String) : Prop := ∀ t ∈ ls.tasks, t.user ≠ user

instance (ls : Locks) (user : String) : Decidable (ls.Idle user) :=
  inferInstanceAs (Decidable (∀ t ∈ ls.tasks, t.user ≠ user))

theorem lock_advance (hn : n < ls.made.length) :
    (ls.advance t f phase).lock n = if n = t.lock then f (ls.lock n) else ls.lock n := by
  simp only [lock, advance, List.getElem?_modify, List.getElem?_eq_getElem hn]
  by_cases hk : n = t.lock
  · simp [hk]
  · simp [hk, Ne.symm hk]

theorem mem_forget : u ∈ (ls.forget t).tasks ↔ u ∈ ls.tasks ∧ u.id ≠ t.id := by
  simp [forget]

theorem shared_iff : ls.shared n = true ↔ ∃ t ∈ ls.tasks, t.phase.refers = true ∧ t.lock = n := by
  simp [shared]

namespace Sound

theorem none : Sound {} := by
  constructor <;> simp

theorem mem_advance (h : ls.Sound) (there : t ∈ ls.tasks) :
    u ∈ (ls.advance t f phase).tasks ↔ u = { t with phase } ∨ (u ∈ ls.tasks ∧ u.id ≠ t.id) := by
  rw [advance, List.mem_map]
  constructor
  · rintro ⟨v, hv, rfl⟩
    by_cases hid : v.id = t.id
    · obtain rfl := h.distinct v hv t there hid
      exact .inl (if_pos rfl)
    · rw [if_neg hid]
      exact .inr ⟨hv, hid⟩
  · rintro (rfl | ⟨hu, hid⟩)
    · exact ⟨t, there, if_pos rfl⟩
    · exact ⟨u, hu, if_neg hid⟩

/-- A task that refers to its lock may change it as long as it does not take anybody's turn. -/
theorem advance (h : ls.Sound) (there : t ∈ ls.tasks) (refers : t.phase.refers = true)
    (gets : phase = .holding → (f (ls.lock t.lock)).holder = some t.id)
    (keeps : ∀ k, k ≠ t.id → (ls.lock t.lock).holder = some k → (f (ls.lock t.lock)).holder = some k) :
    (ls.advance t f phase).Sound where
  distinct := by
    intro u hu v hv hid
    rcases (h.mem_advance there).mp hu with rfl | ⟨hu, hne⟩ <;>
      rcases (h.mem_advance there).mp hv with rfl | ⟨hv, hne'⟩
    · rfl
    · exact absurd hid.symm hne'
    · exact absurd hid hne
    · exact h.distinct u hu v hv hid
  made := fun user n hn => by
    rw [Locks.advance, List.length_modify]
    exact h.made user n hn
  apart := h.apart
  referring := by
    intro u hu hrefers
    rcases (h.mem_advance there).mp hu with rfl | ⟨hu, -⟩
    · exact h.referring t there refers
    · exact h.referring u hu hrefers
  turn := by
    intro u hu hholding
    rcases (h.mem_advance there).mp hu with rfl | ⟨hu, hne⟩
    · rw [lock_advance (h.made _ _ (h.referring t there refers)), if_pos rfl]
      exact gets hholding
    · have hlock := h.referring u hu (by rw [hholding]; rfl)
      have hturn := h.turn u hu hholding
      rw [lock_advance (h.made _ _ hlock)]
      split
      · rename_i hsame
        rw [hsame] at hturn ⊢
        exact keeps u.id hne hturn
      · exact hturn

theorem forget (h : ls.Sound) (t : Task) : (ls.forget t).Sound where
  distinct u hu v hv := h.distinct u (mem_forget.mp hu).1 v (mem_forget.mp hv).1
  made := h.made
  apart := h.apart
  referring u hu := h.referring u (mem_forget.mp hu).1
  turn u hu := h.turn u (mem_forget.mp hu).1

theorem clear (h : ls.Sound) (user : String) : (ls.clear user).Sound := by
  unfold Locks.clear
  split
  · rename_i n hn
    split
    · exact h
    · rename_i hshared
      have hless {v : String} {k : Nat} (hv : (ls.entries.filter (·.1 ≠ user)).lookup v = some k) :
          ls.entries.lookup v = some k := by
        rw [lookup_filter_ne] at hv
        split at hv
        · cases hv
        · exact hv
      refine ⟨h.distinct, fun v k hv => h.made v k (hless hv),
        fun u v k hu hv => h.apart u v k (hless hu) (hless hv), fun t ht hrefers => ?_, h.turn⟩
      have hlock := h.referring t ht hrefers
      rw [lookup_filter_ne, if_neg, hlock]
      intro huser
      rw [huser, hn] at hlock
      exact hshared (shared_iff.mpr ⟨t, ht, hrefers, (Option.some.inj hlock).symm⟩)
  · exact h

/-- A newcomer changes nothing for those who are there. -/
theorem join (h : ls.Sound) (fresh : ∀ t ∈ ls.tasks, t.id ≠ k) (inUse : ls.entries.lookup user = some n) :
    Sound { ls with tasks := ⟨k, user, n, .asking⟩ :: ls.tasks } where
  distinct := by
    intro t ht u hu hid
    rcases List.mem_cons.mp ht with rfl | ht <;> rcases List.mem_cons.mp hu with rfl | hu
    · rfl
    · exact absurd hid.symm (fresh u hu)
    · exact absurd hid (fresh t ht)
    · exact h.distinct t ht u hu hid
  made := h.made
  apart := h.apart
  referring := by
    intro t ht hrefers
    rcases List.mem_cons.mp ht with rfl | ht
    · exact inUse
    · exact h.referring t ht hrefers
  turn := by
    intro t ht hholding
    rcases List.mem_cons.mp ht with rfl | ht
    · cases hholding
    · exact h.turn t ht hholding

/-- A lock is made for a user who has none. -/
theorem make (h : ls.Sound) (vacant : ls.entries.lookup user = .none) :
    Sound { ls with made := ls.made ++ [{}], entries := (user, ls.made.length) :: ls.entries } := by
  have hcases {v : String} {i : Nat} (hv : ((user, ls.made.length) :: ls.entries).lookup v = some i) :
      (v = user ∧ i = ls.made.length) ∨ (ls.entries.lookup v = some i ∧ i < ls.made.length) := by
    rw [List.lookup_cons] at hv
    by_cases hsame : v = user
    · rw [hsame, beq_self_eq_true] at hv
      exact .inl ⟨hsame, (Option.some.inj hv).symm⟩
    · rw [beq_false_of_ne hsame] at hv
      exact .inr ⟨hv, h.made v i hv⟩
  have hin (t : Task) (ht : t ∈ ls.tasks) (hrefers : t.phase.refers = true) :
      t.user ≠ user ∧ ls.entries.lookup t.user = some t.lock ∧ t.lock < ls.made.length := by
    have hlock := h.referring t ht hrefers
    refine ⟨fun huser => ?_, hlock, h.made _ _ hlock⟩
    rw [huser, vacant] at hlock
    cases hlock
  constructor
  · exact h.distinct
  · intro v i hv
    rw [List.length_append, List.length_singleton]
    rcases hcases hv with ⟨-, rfl⟩ | ⟨-, hlt⟩ <;> omega
  · intro u v i hu hv
    rcases hcases hu with ⟨rfl, rfl⟩ | ⟨hu, hltu⟩ <;> rcases hcases hv with ⟨rfl, hi⟩ | ⟨hv, hltv⟩
    · rfl
    · exact absurd hltv (Nat.lt_irrefl _)
    · exact absurd hltu (hi ▸ Nat.lt_irrefl _)
    · exact h.apart u v i hu hv
  · intro t ht hrefers
    obtain ⟨hne, hlock, -⟩ := hin t ht hrefers
    rw [List.lookup_cons, beq_false_of_ne hne]
    exact hlock
  · intro t ht hholding
    obtain ⟨-, -, hlt⟩ := hin t ht (by rw [hholding]; rfl)
    rw [lock, List.getElem?_append_left hlt]
    exact h.turn t ht hholding

theorem refer (h : ls.Sound) (fresh : ∀ t ∈ ls.tasks, t.id ≠ k) (user : String) : (ls.refer user k).Sound := by
  unfold Locks.refer
  split
  · rename_i n hn
    exact h.join fresh hn
  · rename_i hnone
    exact (h.make hnone).join fresh (by rw [List.lookup_cons, beq_self_eq_true])

theorem step (h : ls.Sound) (hs : Stepped ls m ls') : ls'.Sound := by
  cases hs with
  | refer fresh => exact h.refer fresh _
  | queue there phase =>
    rename_i t
    refine h.advance there (by rw [phase]; rfl) (fun hholding => ?_) fun k _ hk => ?_
    · cases hfree : (ls.lock t.lock).holder with
      | none => rw [Lock.queue, hfree]
      | some k =>
        rw [hfree] at hholding
        cases hholding
    · rw [Lock.queue, hk]
  | notice there phase turn =>
    exact h.advance there (by rw [phase]; rfl) (fun _ => turn) fun _ _ hk => hk
  | unlock there phase =>
    refine h.advance there (by rw [phase]; rfl) (fun hholding => by cases hholding) fun k hne hk => ?_
    rw [h.turn _ there phase] at hk
    exact absurd (Option.some.inj hk).symm hne
  | part there phase =>
    exact h.advance there (by rw [phase]; rfl) (fun hholding => by cases hholding) fun _ _ hk => hk
  | dismiss there phase => exact (h.clear _).forget _
  | withdraw there phase =>
    refine h.advance there (by rcases phase with phase | phase <;> rw [phase] <;> rfl)
      (fun hholding => by cases hholding) fun k hne hk => ?_
    rw [Lock.withdraw, if_neg (by rw [hk]; exact fun hsame => hne (Option.some.inj hsame))]
    exact hk
  | forsake there phase => exact h.forget _

/-- Two tasks that hold one user's lock have the turn of one lock. -/
theorem holder_unique (h : ls.Sound) (ht : t ∈ ls.tasks) (hu : u ∈ ls.tasks) (same : t.user = u.user)
    (hholds : t.phase = .holding) (hholds' : u.phase = .holding) : t = u := by
  have hlock := h.referring t ht (by rw [hholds]; rfl)
  have hlock' := h.referring u hu (by rw [hholds']; rfl)
  have hone : t.lock = u.lock := Option.some.inj (hlock.symm.trans (same ▸ hlock'))
  have hturn := h.turn t ht hholds
  rw [hone, h.turn u hu hholds'] at hturn
  exact h.distinct t ht u hu (Option.some.inj hturn).symm

end Sound

/-! ### Locks that nobody wants -/

theorem idle_advance : (ls.advance t f phase).Idle user ↔ ls.Idle user := by
  rw [Idle, advance, List.forall_mem_map]
  refine forall₂_congr fun u _ => ?_
  split <;> rfl

/-- Nobody is idle while a task is on its way. -/
theorem not_idle_advance (there : t ∈ ls.tasks) : ¬ (ls.advance t f phase).Idle t.user :=
  fun h => idle_advance.mp h t there rfl

theorem Sound.idle_forget (h : ls.Sound) (there : t ∈ ls.tasks) (other : user ≠ t.user) :
    (ls.forget t).Idle user ↔ ls.Idle user := by
  refine ⟨fun hidle u hu => ?_, fun hidle u hu => hidle u (mem_forget.mp hu).1⟩
  by_cases hid : u.id = t.id
  · rw [h.distinct u hu t there hid]
    exact Ne.symm other
  · exact hidle u (mem_forget.mpr ⟨hu, hid⟩)

theorem tasks_clear (ls : Locks) (user : String) : (ls.clear user).tasks = ls.tasks := by
  unfold Locks.clear
  split
  · split <;> rfl
  · rfl

theorem lookup_clear_of_ne {other : String} (h : other ≠ user) :
    (ls.clear user).entries.lookup other = ls.entries.lookup other := by
  unfold Locks.clear
  split
  · split
    · rfl
    · rw [lookup_filter_ne, if_neg h]
  · rfl

/-- The steps of other users' tasks do not matter to a user. -/
theorem Sound.step_of_ne (h : ls.Sound) (hs : Stepped ls m ls') (other : user ≠ m.user) :
    ls'.entries.lookup user = ls.entries.lookup user ∧ (ls'.Idle user ↔ ls.Idle user) := by
  cases hs with
  | refer fresh =>
    rw [Locks.refer]
    split
    · exact ⟨rfl, by simp [Idle, Ne.symm other]⟩
    · exact ⟨by rw [List.lookup_cons, beq_false_of_ne other], by simp [Idle, Ne.symm other]⟩
  | queue => exact ⟨rfl, idle_advance⟩
  | notice => exact ⟨rfl, idle_advance⟩
  | unlock => exact ⟨rfl, idle_advance⟩
  | part => exact ⟨rfl, idle_advance⟩
  | dismiss there =>
    rename_i t _
    refine ⟨lookup_clear_of_ne other, ?_⟩
    have hclear : (ls.clear t.user).Idle user ↔ ls.Idle user := by rw [Idle, Idle, tasks_clear]
    exact ((h.clear t.user).idle_forget (by rwa [tasks_clear]) other).trans hclear
  | withdraw => exact ⟨rfl, idle_advance⟩
  | forsake there => exact ⟨rfl, h.idle_forget there other⟩

/-- With the last step about a user's lock it is dropped, unless that is the step of a task that was dropped. -/
theorem Sound.step_to_idle (h : ls.Sound) (hs : Stepped ls m ls') (hidle : ls'.Idle m.user) :
    (ls'.entries.lookup m.user).isSome = true ↔ m.act = .forsake := by
  cases hs with
  | refer fresh =>
    rename_i user k
    have hthere : ∃ t ∈ (ls.refer user k).tasks, t.user = user := by
      rw [Locks.refer]
      split <;> exact ⟨_, List.mem_cons_self, rfl⟩
    obtain ⟨t, ht, huser⟩ := hthere
    exact absurd huser (hidle t ht)
  | queue there => exact absurd hidle (not_idle_advance there)
  | notice there => exact absurd hidle (not_idle_advance there)
  | unlock there => exact absurd hidle (not_idle_advance there)
  | part there => exact absurd hidle (not_idle_advance there)
  | dismiss there phase =>
    rename_i t
    have hgone : (ls.clear t.user).entries.lookup t.user = .none := by
      unfold Locks.clear
      split
      · rename_i n hn
        rw [if_neg, lookup_filter_ne, if_pos rfl]
        intro hshared
        obtain ⟨u, hu, hrefers, rfl⟩ := shared_iff.mp hshared
        have huser := h.apart _ _ _ (h.referring u hu hrefers) hn
        refine hidle u (mem_forget.mpr ⟨tasks_clear ls _ ▸ hu, fun hid => ?_⟩) huser
        rw [h.distinct u hu t there hid, phase] at hrefers
        cases hrefers
      · assumption
    rw [Locks.forget, hgone]
    exact iff_of_false Bool.false_ne_true fun hact => nomatch hact
  | withdraw there => exact absurd hidle (not_idle_advance there)
  | forsake there phase =>
    rw [Locks.forget, h.referring _ there (by rw [phase]; rfl)]
    exact iff_of_true rfl rfl

/-- The last step about a user's lock. -/
def last? (user : String) (moves : List Move) : Option Move := (moves.filter (·.user = user)).getLast?

theorem run_concat : run ls (moves ++ [m]) = (run ls moves).bind fun e => e.step? m := by
  rw [run, List.foldlM_append]
  cases hr : moves.foldlM step? ls <;> simp [run, hr]

/-- What the steps up to now say about each lock that nobody wants. -/
theorem run_sound (h : run {} moves = some ls) : ls.Sound ∧ ∀ user, ls.Idle user →
    ((ls.entries.lookup user).isSome = true ↔ ∃ m, last? user moves = some m ∧ m.act = .forsake) := by
  induction moves using List.reverseRecOn generalizing ls with
  | nil =>
    cases h
    exact ⟨.none, fun user _ => by simp [last?]⟩
  | append_singleton moves m ih =>
    rw [run_concat] at h
    obtain ⟨e, hrun, hstep⟩ := Option.bind_eq_some_iff.mp h
    obtain ⟨he, hleft⟩ := ih hrun
    have hs := stepped hstep
    refine ⟨he.step hs, fun user hidle => ?_⟩
    by_cases huser : m.user = user
    · subst huser
      rw [he.step_to_idle hs hidle]
      simp [last?]
    · obtain ⟨hentry, hsame⟩ := he.step_of_ne hs (Ne.symm huser)
      rw [hentry, hleft user (hsame.mp hidle)]
      simp [last?, huser]

/-- Over any steps of any tasks about any users' locks: no two tasks hold one user's lock at once; and when no task
is busy with a user's lock, there is one in use just when the last step about it was that of a task which had been
dropped before it held the lock. -/
theorem lock_is_exclusive_and_stays_iff (h : run {} moves = some ls) :
    (∀ t ∈ ls.tasks, ∀ u ∈ ls.tasks, t.user = u.user → t.phase = .holding → u.phase = .holding → t = u) ∧
    ∀ user, ls.Idle user →
      ((ls.entries.lookup user).isSome = true ↔ ∃ m, last? user moves = some m ∧ m.act = .forsake) := by
  obtain ⟨hsound, hleft⟩ := run_sound h
  exact ⟨fun t ht u hu => hsound.holder_unique ht hu, hleft⟩

/-- A first task lets go of a lock that a second one waits for. -/
def handedOver : List Move :=
  [⟨1, "u", .refer⟩, ⟨1, "u", .queue⟩, ⟨2, "u", .refer⟩, ⟨2, "u", .queue⟩,
   ⟨1, "u", .unlock⟩, ⟨1, "u", .part⟩, ⟨1, "u", .dismiss⟩]

/-- The second task takes its turn and lets go: nothing is left. -/
theorem second_holder_drops_its_lock :
    ∃ ls, run {} (handedOver ++ [⟨2, "u", .notice⟩, ⟨2, "u", .unlock⟩, ⟨2, "u", .part⟩, ⟨2, "u", .dismiss⟩]) =
        some ls ∧ ls.Idle "u" ∧ (ls.entries.lookup "u").isSome = false := by
  refine ⟨{ made := [{}] }, rfl, by decide, ?_⟩
  have hrun : run {} (handedOver ++ [⟨2, "u", .notice⟩, ⟨2, "u", .unlock⟩, ⟨2, "u", .part⟩, ⟨2, "u", .dismiss⟩]) =
      some { made := [{}] } := rfl
  obtain ⟨-, hleft⟩ := lock_is_exclusive_and_stays_iff hrun
  exact Bool.eq_false_iff.mpr (mt (hleft "u" (by decide)).mp (by decide))

/-- The second task is dropped before it takes its turn: nobody is left, and the lock stays. -/
theorem dropped_waiter_leaves_its_lock :
    ∃ ls, run {} (handedOver ++ [⟨2, "u", .withdraw⟩, ⟨2, "u", .forsake⟩]) = some ls ∧ ls.tasks = [] ∧
      ls.count = 1 :=
  ⟨_, rfl, rfl, rfl⟩

end Fleet.Vm.Locks
