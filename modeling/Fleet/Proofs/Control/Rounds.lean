import Fleet.Proofs.Control.Keeping

/-!
A user's machine answers the messages of one session in rounds, one run of notices for each message. A
browser's stream yields what is emitted from when its message came up to the first terminal notice, whose
run that may be: the run of its own message if all earlier runs were over, and otherwise the rest of an
earlier one.
-/

namespace Fleet.Control

open Hub
open Feed (Notice)

/-! ### Runs -/

/-- Whether one of the notices is terminal. -/
def ends (l : List Notice) : Bool := l.any fun x => isTerminalName x.event

/-- Any notices, and then a terminal one. -/
def IsRun (l : List Notice) : Prop := upToTerminal l = l ∧ ends l = true

instance (l : List Notice) : Decidable (IsRun l) := inferInstanceAs (Decidable (_ ∧ _))

variable {a b l run more tail : List Notice} {x : Notice}

theorem unended_iff : Unended l ↔ ends l = false := by simp [Unended, ends]

theorem upToTerminal_of_ends (ha : ends a = true) (b : List Notice) :
    upToTerminal (a ++ b) = upToTerminal a := upToTerminal_of_terminal ha b

@[simp] theorem ends_append (a b : List Notice) : ends (a ++ b) = (ends a || ends b) := List.any_append

theorem isRun_iff : IsRun run ↔ ∃ xs d, run = xs ++ [d] ∧ Unended xs ∧ isTerminalName d.event = true := by
  constructor
  · rintro ⟨hup, hends⟩
    induction run with
    | nil => cases hends
    | cons x rest ih =>
      cases hx : isTerminalName x.event with
      | true =>
        rw [upToTerminal, hx, if_pos rfl] at hup
        exact ⟨[], x, hup.symm, by simp [Unended], hx⟩
      | false =>
        rw [upToTerminal, hx, if_neg Bool.false_ne_true, List.cons.injEq] at hup
        obtain ⟨xs, d, rfl, hxs, hd⟩ := ih hup.2 (by simpa [ends, hx] using hends)
        refine ⟨x :: xs, d, rfl, fun y hy => ?_, hd⟩
        rcases List.mem_cons.mp hy with rfl | hy
        · exact hx
        · exact hxs y hy
  · rintro ⟨xs, d, rfl, hxs, hd⟩
    exact ⟨by rw [upToTerminal_append hxs, upToTerminal, if_pos hd], by simp [ends, hd]⟩

theorem IsRun.exists_cons (hr : IsRun run) : ∃ x xs, run = x :: xs := by
  cases run with
  | nil => cases hr.2
  | cons x xs => exact ⟨x, xs, rfl⟩

/-- What is left of a run is one. -/
theorem IsRun.suffix (hr : IsRun run) (ht : tail <:+ run) (hne : tail ≠ []) : IsRun tail := by
  obtain ⟨xs, d, rfl, hxs, hd⟩ := isRun_iff.mp hr
  rcases List.suffix_concat_iff.mp ht with rfl | ⟨ys, rfl, hys⟩
  · exact absurd rfl hne
  · exact isRun_iff.mpr ⟨ys, d, rfl, fun y hy => hxs y (hys.subset hy), hd⟩

/-- A stream goes no further than the run, and yields it when it is whole. -/
theorem IsRun.upToTerminal_prefix (hr : IsRun run) (hl : l <+: run ++ more) :
    upToTerminal l <+: run ∧ (run <+: l → upToTerminal l = run ∧ ends l = true) := by
  constructor
  · obtain ⟨s, hs⟩ := hl
    have hgrows := upToTerminal_grows l s
    rwa [hs, upToTerminal_of_ends hr.2, hr.1] at hgrows
  · rintro ⟨s, rfl⟩
    exact ⟨by rw [upToTerminal_of_ends hr.2, hr.1], by rw [ends_append, hr.2, Bool.true_or]⟩

theorem upToTerminal_of_not_ends (hl : ends l = false) : upToTerminal l = l :=
  upToTerminal_of_unended (unended_iff.mpr hl)

theorem ends_upToTerminal (l : List Notice) : ends (upToTerminal l) = ends l := by
  induction l with
  | nil => rfl
  | cons x rest ih =>
    unfold upToTerminal
    split
    · rename_i hx
      simp [ends, hx]
    · simpa [ends] using congrArg (isTerminalName x.event || ·) ih

theorem ends_congr (h : upToTerminal a = upToTerminal b) : ends a = ends b := by
  rw [← ends_upToTerminal a, h, ends_upToTerminal b]

/-- What is the same up to a terminal notice stays so when it goes on in the same way. -/
theorem upToTerminal_congr (h : upToTerminal a = upToTerminal b) (c : List Notice) :
    upToTerminal (a ++ c) = upToTerminal (b ++ c) := by
  have he := ends_congr h
  cases hb : ends b with
  | true => rw [upToTerminal_of_ends hb, upToTerminal_of_ends (he.trans hb), h]
  | false =>
    rw [upToTerminal_of_not_ends hb, upToTerminal_of_not_ends (he.trans hb)] at h
    rw [h]

/-! ### Rounds -/

/-- The notices of some rounds in their order, each with the visit whose message it answers. -/
def script (rounds : List (Nat × List Notice)) : List (Nat × Notice) :=
  rounds.flatMap fun r => r.2.map (Prod.mk r.1)

variable {rounds past rest : List (Nat × List Notice)} {n k : Nat}

theorem map_snd_script (rounds : List (Nat × List Notice)) :
    (script rounds).map Prod.snd = rounds.flatMap Prod.snd := by
  simp [script, List.map_flatMap, Function.comp_def]

theorem script_append (past rest : List (Nat × List Notice)) :
    script (past ++ rest) = script past ++ script rest := List.flatMap_append

theorem script_cons (n : Nat) (run : List Notice) (rest : List (Nat × List Notice)) :
    script ((n, run) :: rest) = run.map (Prod.mk n) ++ script rest := List.flatMap_cons

/-- What is left of some rounds begins with the rest of one of them. -/
theorem drop_rounds (h : k < (rounds.flatMap Prod.snd).length) :
    ∃ r ∈ rounds, ∃ tail more, tail ≠ [] ∧ tail <:+ r.2 ∧
      (rounds.flatMap Prod.snd).drop k = tail ++ more := by
  induction rounds generalizing k with
  | nil => simp at h
  | cons r rest ih =>
    rw [List.flatMap_cons] at h ⊢
    rcases Nat.lt_or_ge k r.2.length with hlt | hge
    · refine ⟨r, List.mem_cons_self, r.2.drop k, rest.flatMap Prod.snd, ?_, List.drop_suffix k r.2, ?_⟩
      · simpa using hlt
      · exact List.drop_append_of_le_length (Nat.le_of_lt hlt)
    · rw [List.length_append] at h
      obtain ⟨r', hr', tail, more, hne, htail, he⟩ := ih (k := k - r.2.length) (by omega)
      refine ⟨r', List.mem_cons_of_mem _ hr', tail, more, hne, htail, ?_⟩
      rw [List.drop_append, List.drop_eq_nil_of_le hge, List.nil_append, he]

/-- The browser of a visit is there, and its request was not refused. -/
structure Visit.Stands (v : Visit) : Prop where
  present : v.present = true
  unrefused : ∀ err, v.stage ≠ .ended (.error err)

/-- The same visit a turn before. Where its message goes out, the session is its user's after the turn. -/
structure Visit.Precedes (v w : Visit) (h : Hub) : Prop where
  errand : w.errand = v.errand
  feed : w.feed = v.feed
  out : ∀ org request, v.errand.ask = .message org request → w.stage.isOut = true →
    v.stage.isOut = true ∨ h.owner? v.errand.sessionId = some v.errand.userId

namespace Plane

variable {p q o : Plane} {t : Turn} {turns early late : List Turn} {v w : Visit}
  {user session id : String} {todo : List (Nat × Notice)}

/-- What the user's machine emits for the session over a run. -/
def emitted (user session : String) : List Turn → Plane → List Notice
  | [], _ => []
  | t :: rest, p => (p.emits? user session t).toList ++ emitted user session rest (p.take t)

/-- Whether the message of a visit to the session has gone out to the machine. -/
def isOut (session : String) (n : Nat) (p : Plane) : Bool :=
  p.visits[n]?.any fun v => decide (v.errand.sessionId = session) && v.stage.isOut

/-- Whether the machine emits what it is to emit, in that order, and answers no message that it does not
have. -/
def performs (user session : String) : List Turn → Plane → List (Nat × Notice) → Bool
  | [], _, _ => true
  | t :: rest, p, todo =>
    match p.emits? user session t, todo with
    | none, _ => performs user session rest (p.take t) todo
    | some x, (n, y) :: todo => decide (x = y) && isOut session n p && performs user session rest (p.take t) todo
    | some _, [] => false

/-- The user's machine answers the session's messages in rounds, each for a visit of its own. -/
structure InRounds (user session : String) (turns : List Turn) (o : Plane)
    (rounds : List (Nat × List Notice)) : Prop where
  keeps : ∀ e ∈ turns.filterMap Turn.errand?, e.Keeps user session
  runs : ∀ r ∈ rounds, IsRun r.2
  distinct : (rounds.map Prod.fst).Nodup
  performed : performs user session turns o (script rounds) = true

theorem emitted_append (early late : List Turn) (p : Plane) :
    emitted user session (early ++ late) p =
      emitted user session early p ++ emitted user session late (play early p) := by
  induction early generalizing p with
  | nil => rfl
  | cons t rest ih => simp only [List.cons_append, emitted, ih, List.append_assoc, play_cons]

theorem emitted_concat (turns : List Turn) (t : Turn) (p : Plane) :
    emitted user session (turns ++ [t]) p =
      emitted user session turns p ++ ((play turns p).emits? user session t).toList := by
  simp [emitted_append, emitted]

theorem isOut_eq (there : p.visits[n]? = some v) (hs : v.errand.sessionId = session) :
    isOut session n p = v.stage.isOut := by simp [isOut, there, hs]

theorem lt_of_isOut (h : isOut session n p = true) : n < p.visits.length := by
  rcases Nat.lt_or_ge n p.visits.length with hlt | hge
  · exact hlt
  · rw [isOut, List.getElem?_eq_none hge] at h
    cases h

theorem performs_cons : performs user session (t :: late) p todo = true ↔
    (p.emits? user session t = none ∧ performs user session late (p.take t) todo = true) ∨
    ∃ n x rest, p.emits? user session t = some x ∧ todo = (n, x) :: rest ∧ isOut session n p = true ∧
      performs user session late (p.take t) rest = true := by
  cases hx : p.emits? user session t with
  | none => cases todo <;> simp [performs, hx]
  | some x =>
    rcases todo with _ | ⟨⟨n, y⟩, rest⟩
    · simp [performs, hx]
    · simp only [performs, hx, Bool.and_eq_true, decide_eq_true_eq, reduceCtorEq, false_and, false_or]
      constructor
      · rintro ⟨⟨rfl, hout⟩, h⟩
        exact ⟨n, x, rest, rfl, rfl, hout, h⟩
      · rintro ⟨_, _, _, hs, he, hout, h⟩
        cases hs
        cases he
        exact ⟨⟨rfl, hout⟩, h⟩

/-- What has been emitted is the beginning of what is to be emitted and answers visits that were there,
and the rest is performed then. -/
theorem performs_append (h : performs user session (early ++ late) p todo = true) :
    let k := (emitted user session early p).length
    performs user session early p todo = true ∧
    (todo.take k).map Prod.snd = emitted user session early p ∧
    (∀ x ∈ todo.take k, x.1 < (play early p).visits.length) ∧
    performs user session late (play early p) (todo.drop k) = true := by
  induction early generalizing p todo with
  | nil => exact ⟨rfl, rfl, nofun, h⟩
  | cons t rest ih =>
    rcases performs_cons.mp h with ⟨hnone, h⟩ | ⟨n, x, todo, hx, rfl, hout, h⟩
    · obtain ⟨hearly, hmap, hposted, hlate⟩ := ih h
      simp only [emitted, hnone, Option.toList_none, List.nil_append, play_cons]
      exact ⟨performs_cons.mpr (.inl ⟨hnone, hearly⟩), hmap, hposted, hlate⟩
    · obtain ⟨hearly, hmap, hposted, hlate⟩ := ih h
      simp only [emitted, hx, Option.toList_some, List.singleton_append, List.length_cons,
        List.take_succ_cons, List.map_cons, List.drop_succ_cons, play_cons]
      refine ⟨performs_cons.mpr (.inr ⟨n, x, todo, hx, rfl, hout, hearly⟩), congrArg _ hmap, ?_, hlate⟩
      intro y hy
      rcases List.mem_cons.mp hy with rfl | hy
      · exact Nat.lt_of_lt_of_le (lt_of_isOut hout) (length_le_play (t :: rest) p)
      · exact hposted y hy

theorem emitted_prefix (h : performs user session turns p todo = true) :
    emitted user session turns p <+: todo.map Prod.snd := by
  rw [← List.append_nil turns] at h
  obtain ⟨-, hmap, -⟩ := performs_append h
  rw [← hmap]
  exact (List.take_prefix _ todo).map Prod.snd

/-! ### One stream -/

/-- What the feed of a visit was sent, beside what the machine emitted since the visit came: all but what
came before the session was known to be the user's, as far as the first terminal notice. -/
structure Caught (user session : String) (n : Nat) (known own : Prop) (p : Plane)
    (said since dropped kept : List Notice) : Prop where
  split : since = dropped ++ kept
  same : upToTerminal said = upToTerminal kept
  owner : p.hub.owner? session = some user ∨ ends kept = true ∨ kept = [] ∧ ¬ known
  out : isOut session n p = true → p.hub.owner? session = some user ∨ ends kept = true
  whole : known ∨ own → dropped = []

variable {known own : Prop} {said since dropped kept : List Notice}

theorem Caught.take (hc : Caught user session n known own p said since dropped kept)
    (hk : Kept user session p) (ht : ∀ e, t.errand? = some e → e.Keeps user session)
    (listened : ends kept = false → p.hub.relay.has session = true)
    (hout : isOut session n (p.take t) = true →
      isOut session n p = true ∨ (p.take t).hub.owner? session = some user)
    (hown : own → since = [] → ∀ x, p.emits? user session t = some x → isOut session n p = true) :
    ∃ dropped kept, Caught user session n known own (p.take t)
      (said ++ (p.relays? user session t).toList) (since ++ (p.emits? user session t).toList) dropped kept := by
  cases hx : p.emits? user session t with
  | none =>
    have stays (ho : p.hub.owner? session = some user ∨ ends kept = true) :
        (p.take t).hub.owner? session = some user ∨ ends kept = true := by
      rcases ho with ho | he
      · cases he : ends kept with
        | true => exact .inr rfl
        | false => exact .inl (hk.owned_take ht ho (listened he))
      · exact .inr he
    refine ⟨dropped, kept, ?_, ?_, ?_, fun ho => ?_, hc.whole⟩
    · simpa using hc.split
    · simpa [relays?, hx] using hc.same
    · rcases hc.owner with ho | he | hn
      · exact (stays (.inl ho)).imp_right .inl
      · exact .inr (.inl he)
      · exact .inr (.inr hn)
    · exact (hout ho).elim (fun ho => stays (hc.out ho)) .inl
  | some x =>
    have howner : (p.take t).hub.owner? session = p.hub.owner? session := by
      rw [owner?, Hub.route?_congr (routes_emits hx), owner?]
    rw [howner] at hout
    by_cases ho : p.hub.owner? session = some user
    · -- the notice is relayed
      refine ⟨dropped, kept ++ [x], ?_, ?_, .inl (howner.trans ho), fun _ => .inl (howner.trans ho), hc.whole⟩
      · simp [hc.split]
      · rw [relays?, if_pos ho, hx]
        exact upToTerminal_congr hc.same [x]
    · have hrelays : said ++ (p.relays? user session t).toList = said := by simp [relays?, ho]
      rw [hrelays]
      rcases hc.owner with ho' | he | ⟨rfl, hn⟩
      · exact absurd ho' ho
      · -- nothing after a terminal notice matters
        have hends : ends (kept ++ [x]) = true := by simp [he]
        refine ⟨dropped, kept ++ [x], ?_, ?_, .inr (.inl hends), fun _ => .inr hends, hc.whole⟩
        · simp [hc.split]
        · rw [hc.same, upToTerminal_of_ends he]
      · -- nothing was relayed so far, and this is not either
        have notOut : isOut session n p ≠ true := fun h => (hc.out h).elim ho (by simp [ends])
        refine ⟨dropped ++ [x], [], ?_, hc.same, .inr (.inr ⟨rfl, hn⟩), fun h => ?_, ?_⟩
        · simp [hc.split]
        · exact (hout h).elim (absurd · notOut) (absurd · ho)
        · rintro (hk | hw)
          · exact absurd hk hn
          · have hempty : since = [] := by rw [hc.split, hc.whole (.inr hw), List.append_nil]
            exact absurd (hown hw hempty x hx) notOut

/-- A visit that stands did so before. -/
theorem Turned.before (ht : Turned p t q) (old : n < p.visits.length) (there : q.visits[n]? = some w)
    (stands : w.Stands) : ∃ v, p.visits[n]? = some v ∧ v.Stands ∧ v.Precedes w q.hub := by
  have same {v : Visit} (hv : p.visits[n]? = some v) (errand : w.errand = v.errand) (feed : w.feed = v.feed)
      (stage : w.stage = v.stage) (present : w.present = v.present) :
      ∃ v, p.visits[n]? = some v ∧ v.Stands ∧ v.Precedes w q.hub :=
    ⟨v, hv, ⟨present ▸ stands.present, stage ▸ stands.unrefused⟩, errand, feed,
      fun _ _ _ ho => .inl (stage ▸ ho)⟩
  cases ht with
  | still air visits => exact same (visits ▸ there) rfl rfl rfl rfl
  | errand k v stage g hk here next air hub visits =>
    rw [visits] at there
    rcases getElem?_set_cases hk there with ⟨rfl, rfl⟩ | ⟨-, hv⟩
    · refine ⟨v, hk, ⟨here, fun err he => ?_⟩, rfl, rfl, fun org request ha ho => ?_⟩
      · rw [he] at next
        cases next
      · rw [hub, owner?, Hub.route?_congr (settle_routes _ _)]
        exact v.errand.next_isOut ha next ho
    · exact same hv rfl rfl rfl rfl
  | read k v id c x rest hk feed listens found queue silent hub visits =>
    rw [visits] at there
    rcases getElem?_set_cases hk there with ⟨rfl, rfl⟩ | ⟨-, hv⟩
    · exact same hk rfl rfl rfl rfl
    · exact same hv rfl rfl rfl rfl
  | finished k v id hk feed listens closed silent hub visits =>
    rw [visits] at there
    rcases getElem?_set_cases hk there with ⟨rfl, rfl⟩ | ⟨-, hv⟩
    · exact same hk rfl rfl rfl rfl
    · exact same hv rfl rfl rfl rfl
  | left k v g hk silent air hub visits =>
    rw [visits] at there
    rcases getElem?_set_cases hk there with ⟨rfl, rfl⟩ | ⟨-, hv⟩
    · cases stands.present
    · exact same hv rfl rfl rfl rfl
  | came v g act blank visits hub feed =>
    rw [visits, List.getElem?_append_left old] at there
    exact same there rfl rfl rfl rfl

/-- A visit for a message of the session's user has come, and its feed was sent nothing so far. -/
structure Arrived (user session : String) (n : Nat) (id : String) (p : Plane) (u : Visit) : Prop where
  there : p.visits[n]? = some u
  feed : u.feed = some id
  user : u.errand.userId = user
  session : u.errand.sessionId = session
  message : ∃ org request, u.errand.ask = .message org request
  waits : u.stage.isOut = false
  follows : u.Follows p.hub id {}

variable {u : Visit}

/-- From there the visit follows its feed. -/
theorem Arrived.follows_play (ha : Arrived user session n id p u) (hp : Onwards (turns.map .turn) p)
    (there : (play turns p).visits[n]? = some v) (feed : v.feed = some id) :
    v.Follows (play turns p).hub id (tape n (turns.map .turn) p {}) := by
  rw [← walk_turns] at there ⊢
  refine (follows_walk hp (fun y hy _ => ?_) (fun _ => rfl) there feed).2
  rw [← Option.some.inj (ha.there.symm.trans hy)]
  exact ha.follows

/-- The relay has a connection for the session of a visit that stands and has more to come. -/
theorem has_of_stands {r : Tape} (hf : v.Follows p.hub id r) (ht : p.hub.Tuned) (stands : v.Stands)
    (more : r.isDone = false) : p.hub.relay.has v.errand.sessionId = true := by
  have hserved : v.isServed = true := by
    have hended : v.feedEnded = false := by
      rw [← Bool.not_eq_true]
      intro he
      rw [(hf.ended he).2] at more
      cases more
    unfold Visit.isServed
    rw [stands.present, hended]
    split
    · exact absurd ‹_› (stands.unrefused _)
    · rfl
  obtain ⟨d, hd, hid⟩ := hf.on.mpr ⟨hserved, (Bool.or_eq_false_iff.mp more).1⟩
  have hmem : d.id ∈ p.hub.relay.ids v.errand.sessionId :=
    (ht.relay.mem_ids _ _).mpr ⟨d, hd, rfl, hf.listens d hd hid⟩
  rw [Feed.Relay.has, Bool.not_eq_true', List.isEmpty_eq_false_iff]
  exact List.ne_nil_of_mem hmem

/-- As long as it stands, the visit's feed catches what is emitted. -/
theorem Arrived.caught (ha : Arrived user session n id p u) (hp : Onwards (late.map .turn) p)
    (hk : Kept user session p) (keeps : ∀ t ∈ late, ∀ e, t.errand? = some e → e.Keeps user session)
    (performed : performs user session late p todo = true)
    (hown : own → ∀ x rest, todo = x :: rest → x.1 = n)
    (there : (play late p).visits[n]? = some v) (stands : v.Stands) :
    v.errand = u.errand ∧ v.feed = some id ∧ (tape n (late.map .turn) p {}).closed = false ∧
      ∃ dropped kept, Caught user session n (p.hub.owner? session = some user) own (play late p)
        (tape n (late.map .turn) p {}).said (emitted user session late p) dropped kept := by
  induction late using List.reverseRecOn generalizing v with
  | nil =>
    obtain rfl := Option.some.inj (ha.there.symm.trans there)
    refine ⟨rfl, ha.feed, rfl, [], [], rfl, rfl, ?_, fun ho => ?_, fun _ => rfl⟩
    · by_cases ho : p.hub.owner? session = some user
      · exact .inl ho
      · exact .inr (.inr ⟨rfl, ho⟩)
    · rw [isOut_eq there ha.session, ha.waits] at ho
      cases ho
  | append_singleton late t ih =>
    rw [play_concat] at there
    rw [List.map_append] at hp
    have old : n < (play late p).visits.length :=
      Nat.lt_of_lt_of_le (List.getElem?_eq_some_iff.mp ha.there).1 (length_le_play late p)
    obtain ⟨w, hw, wstands, precedes⟩ := (turned_take _ t).before old there stands
    obtain ⟨hperformed, -, -, hlast⟩ := performs_append performed
    have hk : Kept user session (play late p) := hk.play fun t ht => keeps t (List.mem_append_left _ ht)
    have ht := keeps t (List.mem_append_right _ (List.mem_singleton_self t))
    obtain ⟨errand, feed, closed, dropped, kept, hc⟩ :=
      ih hp.append.1 (fun t ht => keeps t (List.mem_append_left _ ht)) hperformed hw wstands
    have hsession : w.errand.sessionId = session := errand ▸ ha.session
    have hheard := hk.hear ht closed
    have htape : tape n ((late ++ [t]).map .turn) p {} =
        (tape n (late.map .turn) p {}).hear session ((play late p).airing t) := by
      rw [List.map_append, List.map_singleton, tape_concat, walk_turns, tapeNext, hw]
      simp only [hsession]
      rfl
    have listened (more : ends kept = false) : (play late p).hub.relay.has session = true := by
      have tuned : (play late p).hub.Tuned := walk_turns late p ▸ hp.append.2.arranged.tuned
      rw [← hsession]
      refine has_of_stands (ha.follows_play hp.append.1 hw feed) tuned wstands ?_
      rw [Tape.isDone, closed, Bool.false_or]
      exact (ends_congr hc.same).trans more
    have out (ho : isOut session n ((play late p).take t) = true) :
        isOut session n (play late p) = true ∨ ((play late p).take t).hub.owner? session = some user := by
      obtain ⟨org, request, hask⟩ := ha.message
      rw [isOut_eq there (by rw [precedes.errand, hsession])] at ho
      have h := precedes.out org request (errand ▸ hask) ho
      rwa [isOut_eq hw hsession, ← hsession, ← ha.user, ← errand]
    rw [htape, hheard.1, emitted_concat, play_concat]
    refine ⟨precedes.errand.trans errand, precedes.feed.trans feed, hheard.2,
      hc.take hk ht listened out fun ho hempty x hx => ?_⟩
    rw [hempty] at hlast
    rcases performs_cons.mp hlast with ⟨hnone, -⟩ | ⟨k, y, rest, -, htodo, hout, -⟩
    · rw [hx] at hnone
      cases hnone
    · have hk : k = n := hown ho _ _ htodo
      rwa [hk] at hout

/-! ### Streams -/

/-- When the browser of a visit reads on, it comes to have received just this, and its stream has ended or
not. -/
def Yields (p : Plane) (n : Nat) (received : List Notice) (ended : Bool) : Prop :=
  ∀ m, ∃ k w, (readOn k n m p).visits[n]? = some w ∧ w.received = received ∧ w.feedEnded = ended

/-- When a message comes that the machine answers in a later round, what is left to emit is its own run and
what comes after it, or the rest of an earlier run and what comes after that. -/
theorem left_of_rounds {before : List Notice} (runs : ∀ r ∈ past ++ (n, run) :: rest, IsRun r.2)
    (emitted : ((script (past ++ (n, run) :: rest)).take before.length).map Prod.snd = before)
    (posted : ∀ x ∈ (script (past ++ (n, run) :: rest)).take before.length, x.1 < n) :
    (past.flatMap Prod.snd <+: before ∧
      (script (past ++ (n, run) :: rest)).drop before.length = script ((n, run) :: rest)) ∨
    (¬ past.flatMap Prod.snd <+: before ∧ ∃ r ∈ past, ∃ tail more, tail ≠ [] ∧ tail <:+ r.2 ∧
      ((script (past ++ (n, run) :: rest)).drop before.length).map Prod.snd = tail ++ more) := by
  have hlen : (past.flatMap Prod.snd).length = (script past).length := by rw [← map_snd_script, List.length_map]
  rw [script_append] at emitted posted ⊢
  rcases Nat.lt_or_ge before.length (script past).length with hlt | hge
  · refine .inr ⟨fun hp => ?_, ?_⟩
    · have := hp.length_le
      omega
    · obtain ⟨r, hr, tail, more, hne, htail, he⟩ := drop_rounds (k := before.length) (hlen ▸ hlt)
      refine ⟨r, hr, tail, more ++ (script ((n, run) :: rest)).map Prod.snd, hne, htail, ?_⟩
      rw [List.drop_append_of_le_length (Nat.le_of_lt hlt), List.map_append, List.map_drop, map_snd_script, he,
        List.append_assoc]
  · -- nothing of the visit's own run is emitted before the visit comes
    have hk : before.length = (script past).length := by
      refine Nat.le_antisymm (Nat.not_lt.mp fun hlt => ?_) hge
      obtain ⟨x, xs, rfl⟩ := (runs (n, run) (by simp)).exists_cons
      obtain ⟨k, hk⟩ := Nat.exists_eq_add_of_lt hlt
      refine Nat.lt_irrefl n (posted (n, x) ?_)
      rw [hk, Nat.add_assoc, List.take_append, script_cons]
      simp
    refine .inl ⟨?_, by rw [hk, List.drop_left]⟩
    rw [hk, List.take_left, map_snd_script] at emitted
    exact emitted ▸ List.prefix_rfl

/-- A visit for a message comes, and the routes are as they were. -/
theorem arrived_take {e : Errand} (act : t.act = .visit e) (hu : e.userId = user) (hs : e.sessionId = session)
    (ha : ∃ org request, e.ask = .message org request) (hp : p.Arranged)
    (fresh : feedId t ∉ p.hub.feeds.map Prod.fst) : (p.take t).hub.routes = p.hub.routes ∧
      ∃ u, Arrived user session p.visits.length (feedId t) (p.take t) u := by
  obtain ⟨org, request, hask⟩ := ha
  have hbegin (h : Hub) : (e.begin t.moment h).2 = h := by
    simp only [Errand.begin, hask]
    split <;> rfl
  obtain ⟨routes, u, there, errand, feed, waits⟩ : (p.take t).hub.routes = p.hub.routes ∧
      ∃ u, (p.take t).visits[p.visits.length]? = some u ∧ u.errand = e ∧ u.feed = some (feedId t) ∧
        u.stage.isOut = false := by
    rw [take, act]
    simp only [visit, hask]
    refine ⟨?_, _, List.getElem?_concat_length, rfl, rfl, Errand.begin_message hask⟩
    rw [settle_routes, hbegin]
    rfl
  have hnone : p.visits[p.visits.length]? = none := List.getElem?_eq_none (Nat.le_refl _)
  have hf := follows_turned hp (turned_take p t) fresh there feed (r := {})
    (fun v hv => by rw [hnone] at hv; cases hv) fun _ => rfl
  rw [tapeNext, hnone] at hf
  exact ⟨routes, u, there, feed, errand ▸ hu, errand ▸ hs, ⟨org, request, errand ▸ hask⟩, waits, hf⟩

/-- The stream of an accepted message catches what the machine emits since the message came. -/
theorem caught_stream {e : Errand} (onwards : Onwards ((early ++ t :: late).map .turn) o)
    (hk : Kept user session o) (keeps : ∀ e ∈ (early ++ t :: late).filterMap Turn.errand?, e.Keeps user session)
    (performed : performs user session late ((play early o).take t) todo = true)
    (act : t.act = .visit e) (place : (play early o).visits.length = n) (hu : e.userId = user)
    (hs : e.sessionId = session) (ha : ∃ org request, e.ask = .message org request)
    (there : (play (early ++ t :: late) o).visits[n]? = some v)
    (accepted : ∃ answer, v.stage = .ended (.ok answer)) (present : v.present = true) :
    ∃ dropped kept, emitted user session late ((play early o).take t) = dropped ++ kept ∧
      (play (early ++ t :: late) o).Yields n (upToTerminal kept) (ends kept) ∧
      ((play early o).hub.owner? session = some user ∨ (∀ x rest, todo = x :: rest → x.1 = n) →
        dropped = []) := by
  subst place
  have keeps : ∀ u ∈ early ++ t :: late, ∀ e, u.errand? = some e → e.Keeps user session := fun u hu e he =>
    keeps e (List.mem_filterMap.mpr ⟨u, hu, he⟩)
  have coming : Onwards (.turn t :: late.map .turn) (play early o) := by
    rw [List.map_append] at onwards
    rw [← walk_turns]
    exact onwards.append.2
  have onwards : Onwards (late.map .turn) ((play early o).take t) := coming.step
  have hk : Kept user session (play early o) := hk.play fun u hu => keeps u (List.mem_append_left _ hu)
  obtain ⟨routes, u, arrived⟩ := arrived_take act hu hs ha coming.arranged
    (coming.unused _ List.mem_cons_self _ rfl)
  rw [play_append, play_cons] at there ⊢
  obtain ⟨answer, stage⟩ := accepted
  obtain ⟨-, feed, closed, dropped, kept, hc⟩ := arrived.caught onwards (hk.take (keeps t (by simp)))
    (fun u hu => keeps u (by simp [hu])) performed
    (fun own : ∀ x rest, todo = x :: rest → x.1 = (play early o).visits.length => own) there
    ⟨present, by simp [stage]⟩
  refine ⟨dropped, kept, hc.split, fun m => ?_, fun h => hc.whole (h.imp_left fun ho => ?_)⟩
  · obtain ⟨k, w, hw, hreceived, hended⟩ := reads_to_end there feed
      (arrived.follows_play onwards there feed) ⟨answer, stage⟩ present m
    refine ⟨k, w, hw, hreceived.trans hc.same, Bool.eq_iff_iff.mpr (hended.trans ?_)⟩
    rw [Tape.isDone, closed, Bool.false_or]
    exact Bool.eq_iff_iff.mp (ends_congr hc.same)
  · rw [owner?, Hub.route?_congr routes]
    exact ho

/-- Alice's machine emits an event for the session. -/
def emission (event : String) (data : Json) : List Act :=
  [.arrive 0 (.text (Frame.sessionEvent "s" event data).text), .move (.socket 0)]

/-- A message of Alice's is accepted and its run begins, and she sends another one. When that is accepted the
first run ends, and the whole second run follows. She reads what the second message is answered with. -/
def overlap : List Turn :=
  numbered (accepted ++ emission "text" (.str "one") ++ [greets "alice", .move (.errand 1)] ++
    answered 0 "req-17" 1 ++ emission "done" .null ++ emission "text" (.str "two") ++
    emission "done" .null ++ [.move (.feed 1), .move (.feed 1)])

def firstRun : List Notice := [⟨"text", .str "one"⟩, ⟨"done", .null⟩]

def secondRun : List Notice := [⟨"text", .str "two"⟩, ⟨"done", .null⟩]

/-- Both messages are accepted, nobody leaves, and both runs are emitted. -/
theorem overlap_outcome :
    performs "alice" "s" overlap opening (script [(0, firstRun), (1, secondRun)]) = true ∧
    emitted "alice" "s" overlap opening = firstRun ++ secondRun ∧
    (play overlap opening).visits.map (fun v =>
      (v.present, v.stage.outcome?.bind Except.toOption, v.received, v.feedEnded)) =
      [(true, some .null, [], false), (true, some .null, [⟨"done", .null⟩], true)] := by
  decide +kernel

theorem overlap_in_rounds : InRounds "alice" "s" overlap opening [(0, firstRun), (1, secondRun)] :=
  ⟨by decide +kernel, by decide +kernel, by decide +kernel, overlap_outcome.1⟩

theorem overlap_fresh : (overlap.map Turn.fresh).Nodup := by decide +kernel

end Plane

end Fleet.Control
