import Fleet.Proofs.Machine.Queueing
import Mathlib.Data.List.Induction

/-!
Calls and new connections. A call is made in two steps, it is taken up and its frame is sent, and so is a
connection, frames are taken for it and the calls that wait are named on it. The steps of callers may fall
between those of the connection; no call is left out.
-/

namespace Fleet.Machine

/-- Whether an act belongs to the task that keeps the connection. -/
def Act.connects : Act → Bool
  | .dialed .. | .next .. => true
  | _ => false

namespace Client

/-- A client with what its callers and its connection are in the middle of, and what was queued on the
present connection. -/
structure Watch where
  client : Client
  /-- Calls that were taken up and whose frames are still to be sent. -/
  unsent : List Call := []
  /-- Whether frames are taken for a connection on which the calls that wait are still to be named. -/
  opening : Bool := false
  log : List Frame := []

/-- One step of the client, of a caller, or of the control plane. -/
inductive Event where
  | act (a : Act)
  | arrive (x : Arrival)
  /-- A call is taken up. -/
  | begin (call : Call) (now : Nat)
  /-- The frame of a call that was taken up is sent. -/
  | post (i : Nat)
  /-- A welcome is taken in. -/
  | connect (now : Nat)
  /-- The calls that wait are named. -/
  | announce

/-- The call that an event makes. -/
def Event.call? : Event → Option Call
  | .act (.request call _) | .begin call _ => some call
  | _ => none

namespace Watch

def see (w : Watch) (d : Client) : Watch :=
  { w with
    client := d
    log := (if w.client.connected then w.log else []) ++ d.queue.drop w.client.queue.length }

/-- What cannot be done now is not done. -/
def take (w : Watch) : Event → Watch
  | .act a => if w.opening && a.connects then w else w.see (w.client.take a)
  | .arrive x => w.see (w.client.arrive x)
  | .begin call now => { w.see (w.client.enter call now) with unsent := w.unsent ++ [call] }
  | .post i =>
    match w.unsent[i]? with
    | none => w
    | some call =>
      { w.see ((w.client.send (.request call)).getD w.client) with unsent := w.unsent.eraseIdx i }
  | .connect now =>
    match w.client.welcomed? with
    | some (since, welcome, rest) =>
      { w.see ({ w.client with inbox := rest }.connect since now welcome) with opening := true }
    | none => w
  | .announce => if w.opening then { w.see w.client.announce with opening := false } else w

def play (events : List Event) (w : Watch) : Watch := events.foldl take w

/-- What a step queues. -/
def added (w : Watch) (e : Event) : List Frame :=
  (w.take e).client.queue.drop w.client.queue.length

/-- What a run queues, on all its connections. -/
def queuedIn : List Event → Watch → List Frame
  | [], _ => []
  | e :: rest, w => w.added e ++ queuedIn rest (w.take e)

/-- Calls are named on the present connection at most once, and each call that waits was named then, or its
frame was queued there, or its caller is about to send it. -/
def Covered (w : Watch) : Prop :=
  ∃ names, w.log.filterMap Frame.resumed? = (if names = [] then [] else [names]) ∧
    ∀ o ∈ w.client.outgoing, o.outcome? = none →
      o.call.id ∈ names ∨ .request o.call ∈ w.log ∨ o.call ∈ w.unsent

structure Kept (w : Watch) : Prop where
  orderly : w.client.Orderly
  unsent : ∀ call ∈ w.unsent, ∃ o ∈ w.client.outgoing, o.call = call
  opening : w.opening = true → w.log.filterMap Frame.resumed? = []
  covered : w.client.connected = true → w.opening = false → w.Covered

/-- A call that has ended, and whose caller has sent what there was to send. -/
structure Over (w : Watch) (o : Outgoing) : Prop where
  mem : o ∈ w.client.outgoing
  ended : o.outcome? ≠ none
  sent : o.call ∉ w.unsent

variable {w : Watch} {c d : Client} {e : Event} {o : Outgoing} {fs : List Frame}

theorem log_see (w : Watch) (h : w.client.connected = true) :
    (w.see d).log = w.log ++ d.queue.drop w.client.queue.length := by
  simp only [see, h, if_true]

theorem resumed_log_see (hr : w.log.filterMap Frame.resumed? = [])
    (hq : (d.queue.drop w.client.queue.length).filterMap Frame.resumed? = []) :
    (w.see d).log.filterMap Frame.resumed? = [] := by
  simp only [see, List.filterMap_append, hq, List.append_nil]
  split
  · exact hr
  · rfl

/-! ### Steps in one go -/

/-- Making a call is taking it up and sending its frame. -/
theorem take_request (w : Watch) (call : Call) (now : Nat) : w.take (.act (.request call now)) =
    (w.take (.begin call now)).take (.post w.unsent.length) := by
  have hlast : (w.unsent ++ [call])[w.unsent.length]? = some call := by simp
  have herase : (w.unsent ++ [call]).eraseIdx w.unsent.length = w.unsent := by
    rw [List.eraseIdx_append_of_length_le (Nat.le_refl _), Nat.sub_self]
    exact List.append_nil _
  simp only [take, Act.connects, Bool.and_false, Bool.false_eq_true, if_false, hlast, herase]
  simp only [see, Client.take, request, enter, List.drop_length, List.append_nil]
  cases w.client.connected <;> rfl

/-- Taking in a welcome is taking frames for the connection and naming the calls that wait. -/
theorem take_next {since : Nat} {welcome : Welcome} {rest : List Arrival} (ho : w.client.Orderly)
    (h : w.client.welcomed? = some (since, welcome, rest)) (hopen : w.opening = false) (now : Nat)
    (wall : Int) : w.take (.act (.next now wall)) = (w.take (.connect now)).take .announce := by
  have hoff := connected_of_welcomed ho h
  simp only [take, hopen, Bool.false_and, Bool.false_eq_true, if_false, h, if_true, Client.take,
    next_of_welcomed h, Option.getD_some]
  simp only [see, hoff, Client.welcome, Client.connect, List.drop_length, List.append_nil, if_true,
    Bool.false_eq_true, if_false]
  rw [hopen]

/-! ### What one step leaves of it -/

namespace Kept

/-- Whatever happens beside new calls and new connections. -/
theorem see (hk : w.Kept) (hm : Moves fs w.client d) : (w.see d).Kept := by
  have hnone : (d.queue.drop w.client.queue.length).filterMap Frame.resumed? = [] := by
    rw [hm.added, List.filterMap_eq_nil_iff]
    intro f hf
    have hsends := hm.sends f hf
    cases f with
    | resume ids => exact hsends.elim
    | _ => rfl
  refine ⟨hm.orderly, fun call hcall => ?_, fun hopen => resumed_log_see (hk.opening hopen) hnone,
    fun hc hopen => ?_⟩
  · obtain ⟨o, ho, rfl⟩ := hk.unsent call hcall
    have hmem := List.mem_map_of_mem (f := Outgoing.call) ho
    rw [← hm.lasts.calls] at hmem
    exact List.mem_map.mp hmem
  · have hconnected := hm.connected hc
    obtain ⟨names, hnames, hall⟩ := hk.covered hconnected hopen
    refine ⟨names, ?_, fun o ho hw => ?_⟩
    · rw [log_see w hconnected, List.filterMap_append, hnone, List.append_nil, hnames]
    · obtain ⟨p, hp, hpw, hcall⟩ := hm.lasts.waited ho hw
      rw [log_see w hconnected, ← hcall]
      rcases hall p hp hpw with h | h | h
      · exact .inl h
      · exact .inr (.inl (List.mem_append_left _ h))
      · exact .inr (.inr h)

/-- A caller takes up a call with a new id. -/
theorem begin (hk : w.Kept) {call : Call} (hid : call.id ∉ w.client.outgoing.map fun o => o.call.id)
    (now : Nat) : (w.take (.begin call now)).Kept := by
  have hnone : ((w.client.enter call now).queue.drop w.client.queue.length) = [] := List.drop_length
  refine ⟨orderly_enter hk.orderly hid now, fun x hx => ?_,
    fun hopen => resumed_log_see (hk.opening hopen) (by rw [hnone]; rfl), fun hc hopen => ?_⟩
  · rcases List.mem_append.mp hx with hx | hx
    · obtain ⟨o, ho, rfl⟩ := hk.unsent x hx
      exact ⟨o, List.mem_append_left _ ho, rfl⟩
    · rw [List.mem_singleton.mp hx]
      exact ⟨_, List.mem_append_right _ List.mem_cons_self, rfl⟩
  · obtain ⟨names, hnames, hall⟩ := hk.covered hc hopen
    have hlog : (w.take (.begin call now)).log = w.log := by
      change (w.see (w.client.enter call now)).log = w.log
      rw [log_see w hc, hnone, List.append_nil]
    refine ⟨names, by rw [hlog, hnames], fun o ho hw => ?_⟩
    rw [hlog]
    rcases List.mem_append.mp ho with ho | ho
    · rcases hall o ho hw with h | h | h
      · exact .inl h
      · exact .inr (.inl h)
      · exact .inr (.inr (List.mem_append_left _ h))
    · rw [List.mem_singleton.mp ho]
      exact .inr (.inr (List.mem_append_right _ List.mem_cons_self))

/-- A caller sends the frame of its call. -/
theorem post (hk : w.Kept) (i : Nat) : (w.take (.post i)).Kept := by
  cases hcall : w.unsent[i]? with
  | none =>
    simp only [Watch.take, hcall]
    exact hk
  | some call =>
    simp only [Watch.take, hcall]
    have hnone : ∀ b : Bool, (if b then [Frame.request call] else []).filterMap Frame.resumed? = [] := by
      intro b
      cases b <;> rfl
    rw [trySend_eq]
    refine ⟨hk.orderly.of_same rfl rfl hk.orderly.live,
      fun x hx => hk.unsent x (List.mem_of_mem_eraseIdx hx),
      fun hopen => resumed_log_see (hk.opening hopen) (by rw [List.drop_left, hnone]), fun hc hopen => ?_⟩
    obtain ⟨names, hnames, hall⟩ := hk.covered hc hopen
    have hconnected : w.client.connected = true := hc
    have hlog : (w.see { w.client with
        queue := w.client.queue ++ if w.client.connected then [.request call] else [] }).log =
        w.log ++ [.request call] := by
      rw [log_see w hconnected, List.drop_left, hconnected, if_pos rfl]
    refine ⟨names, ?_, fun o ho hw => ?_⟩
    · change (w.see _).log.filterMap Frame.resumed? = _
      rw [hlog, List.filterMap_append, hnames]
      exact List.append_nil _
    · change _ ∨ _ ∈ (w.see _).log ∨ o.call ∈ w.unsent.eraseIdx i
      rw [hlog]
      rcases hall o ho hw with h | h | h
      · exact .inl h
      · exact .inr (.inl (List.mem_append_left _ h))
      · obtain ⟨m, hm⟩ := List.getElem?_of_mem h
        by_cases hi : m = i
        · obtain rfl := Option.some.inj ((hi ▸ hm).symm.trans hcall)
          exact .inr (.inl (List.mem_append_right _ List.mem_cons_self))
        · exact .inr (.inr (List.mem_eraseIdx_iff_getElem?.mpr ⟨m, hi, hm⟩))

/-- Frames are taken for a new connection, on which nothing was queued. -/
theorem connect (hk : w.Kept) (now : Nat) : (w.take (.connect now)).Kept := by
  cases h : w.client.welcomed? with
  | none =>
    simp only [Watch.take, h]
    exact hk
  | some x =>
    simp only [Watch.take, h]
    have hoff := connected_of_welcomed hk.orderly h
    refine ⟨hk.orderly.of_same rfl rfl fun _ => ⟨_, _, _, rfl⟩, hk.unsent, fun _ => ?_,
      fun _ hopen => nomatch hopen⟩
    simp [Watch.see, hoff, Client.connect]

/-- All calls that wait are named. -/
theorem announce (hk : w.Kept) : (w.take .announce).Kept := by
  by_cases hopen : w.opening = true
  · simp only [Watch.take, hopen, if_true]
    obtain ⟨houtgoing, _, hconnected, _⟩ := w.client.announce_same
    refine ⟨orderly_announce hk.orderly, fun x hx => ?_, fun h => (Bool.false_ne_true h).elim,
      fun hc _ => ?_⟩
    · change ∃ o ∈ w.client.announce.outgoing, _
      rw [houtgoing]
      exact hk.unsent x hx
    have hc : w.client.connected = true := hconnected ▸ hc
    refine ⟨w.client.pending.map Prod.fst, ?_, fun o ho hw => .inl ?_⟩
    · change (w.see _).log.filterMap Frame.resumed? = _
      rw [log_see w hc, queue_announce, List.drop_left, List.filterMap_append, hk.opening hopen,
        List.nil_append]
      cases w.client.pending <;> simp [hc, Frame.resumed?]
    · obtain ⟨n, hn⟩ := List.getElem?_of_mem ho
      exact List.mem_map.mpr ⟨(o.call.id, n),
        hk.orderly.mem_pending.mpr ⟨o, houtgoing ▸ hn, hw, rfl⟩, rfl⟩
  · simp only [Watch.take, hopen, Bool.false_eq_true, if_false]
    exact hk

/-- An act makes a call, takes in a welcome, is not done, or leaves calls and connections alone. -/
theorem take_act (hk : w.Kept) (a : Act) :
    (∃ call now, a = .request call now ∧
      w.take (.act a) = (w.take (.begin call now)).take (.post w.unsent.length)) ∨
    (∃ now wall, a = .next now wall ∧ w.take (.act a) = (w.take (.connect now)).take .announce) ∨
    (Event.call? (.act a) = none ∧ w.take (.act a) = w) ∨
    (Event.call? (.act a) = none ∧
      ∃ fs, Moves fs w.client (w.client.take a) ∧ w.take (.act a) = w.see (w.client.take a)) := by
  by_cases hreq : ∃ call now, a = .request call now
  · obtain ⟨call, now, rfl⟩ := hreq
    exact .inl ⟨call, now, rfl, take_request ..⟩
  have hcall : Event.call? (.act a) = none := by
    cases a with
    | request call now => exact absurd ⟨call, now, rfl⟩ hreq
    | _ => rfl
  by_cases hskip : (w.opening && a.connects) = true
  · exact .inr (.inr (.inl ⟨hcall, by simp only [Watch.take, hskip, if_true]⟩))
  by_cases hwel : ∃ now wall, a = .next now wall ∧ w.client.welcomed? ≠ none
  · obtain ⟨now, wall, rfl, hw⟩ := hwel
    obtain ⟨⟨since, welcome, rest⟩, hw⟩ := Option.ne_none_iff_exists'.mp hw
    have hopen : w.opening = false := by simpa [Act.connects] using hskip
    exact .inr (.inl ⟨now, wall, rfl, take_next hk.orderly hw hopen ..⟩)
  · obtain ⟨fs, hm⟩ := moves_take hk.orderly (fun call now h => hreq ⟨call, now, h⟩)
      fun now wall h => by_contra fun hw => hwel ⟨now, wall, h, hw⟩
    refine .inr (.inr (.inr ⟨hcall, fs, hm, ?_⟩))
    simp only [Watch.take, hskip, Bool.false_eq_true, if_false]

/-- Whatever happens, ids of calls being new. -/
theorem take (hk : w.Kept) (e : Event)
    (fresh : ∀ call, e.call? = some call → call.id ∉ w.client.outgoing.map fun o => o.call.id) :
    (w.take e).Kept := by
  cases e with
  | arrive x =>
    exact hk.see (Queues.moves (.of_same hk.orderly rfl rfl rfl rfl hk.orderly.live))
  | begin call now => exact hk.begin (fresh call rfl) now
  | post i => exact hk.post i
  | connect now => exact hk.connect now
  | announce => exact hk.announce
  | act a =>
    rcases hk.take_act a with ⟨call, now, rfl, h⟩ | ⟨now, wall, rfl, h⟩ | ⟨_, h⟩ | ⟨_, fs, hm, h⟩
    · rw [h]
      exact (hk.begin (fresh call rfl) now).post _
    · rw [h]
      exact (hk.connect now).announce
    · rw [h]
      exact hk
    · rw [h]
      exact hk.see hm

/-- Calls are those that were made, in their order. -/
theorem calls_take (hk : w.Kept) (e : Event) : (w.take e).client.outgoing.map Outgoing.call =
    w.client.outgoing.map Outgoing.call ++ e.call?.toList := by
  have hpost (v : Watch) (i : Nat) : (v.take (.post i)).client.outgoing = v.client.outgoing := by
    cases h : v.unsent[i]? with
    | none => simp only [Watch.take, h]
    | some call => simp only [Watch.take, h, trySend_eq, Watch.see]
  have hannounce (v : Watch) : (v.take .announce).client.outgoing = v.client.outgoing := by
    by_cases h : v.opening = true
    · simp only [Watch.take, h, if_true, Watch.see, (announce_same _).1]
    · simp only [Watch.take, h, Bool.false_eq_true, if_false]
  have hconnect (now : Nat) : (w.take (.connect now)).client.outgoing = w.client.outgoing := by
    cases h : w.client.welcomed? with
    | none => simp only [Watch.take, h]
    | some x => simp only [Watch.take, h, Watch.see, Client.connect]
  have hbegin (call : Call) (now : Nat) : (w.take (.begin call now)).client.outgoing.map Outgoing.call =
      w.client.outgoing.map Outgoing.call ++ [call] := by
    simp [Watch.take, Watch.see, Client.enter]
  cases e with
  | arrive x => exact (List.append_nil _).symm
  | begin call now => exact hbegin call now
  | post i => rw [hpost]; exact (List.append_nil _).symm
  | connect now => rw [hconnect]; exact (List.append_nil _).symm
  | announce => rw [hannounce]; exact (List.append_nil _).symm
  | act a =>
    rcases hk.take_act a with ⟨call, now, rfl, h⟩ | ⟨now, wall, rfl, h⟩ | ⟨hc, h⟩ | ⟨hc, fs, hm, h⟩
    · rw [h, hpost, hbegin]
      rfl
    · rw [h, hannounce, hconnect]
      exact (List.append_nil _).symm
    · rw [h, hc]
      exact (List.append_nil _).symm
    · rw [h, hc]
      exact hm.lasts.calls.trans (List.append_nil _).symm

end Kept

/-! ### A call that has ended -/

/-- The call stays over, and nothing that is queued mentions it. -/
def Spares (w : Watch) (o : Outgoing) (e : Event) : Prop :=
  (w.take e).Over o ∧ ∀ f ∈ w.added e, ¬ f.Mentions o.call.id

theorem added_begin (w : Watch) (call : Call) (now : Nat) : w.added (.begin call now) = [] :=
  List.drop_length

theorem added_connect (w : Watch) (now : Nat) : w.added (.connect now) = [] := by
  cases h : w.client.welcomed? with
  | none => simp [added, Watch.take, h]
  | some x => simp [added, Watch.take, h, Watch.see, Client.connect]

/-- Of two steps the first of which queues nothing. -/
theorem Spares.after {x y : Event} (hy : (w.take x).Spares o y)
    (hx : (w.take x).client.queue = w.client.queue) (he : w.take e = (w.take x).take y) : w.Spares o e := by
  refine ⟨he ▸ hy.1, fun f hf => hy.2 f ?_⟩
  rw [added, he] at hf
  rw [added, hx]
  exact hf

namespace Over

theorem skip (hov : w.Over o) (h : w.take e = w) : w.Spares o e := by
  refine ⟨by rw [h]; exact hov, fun f hf => ?_⟩
  simp [added, h] at hf

theorem begin (hov : w.Over o) {call : Call} (hid : call.id ∉ w.client.outgoing.map fun o => o.call.id)
    (now : Nat) : w.Spares o (.begin call now) := by
  refine ⟨⟨List.mem_append_left _ hov.mem, hov.ended, fun hm => ?_⟩,
    fun f hf => (List.not_mem_nil (added_begin w call now ▸ hf)).elim⟩
  rcases List.mem_append.mp hm with hm | hm
  · exact hov.sent hm
  · rw [← List.mem_singleton.mp hm] at hid
    exact hid (List.mem_map_of_mem (f := fun o => o.call.id) hov.mem)

theorem post (hov : w.Over o) (hk : w.Kept) (i : Nat) : w.Spares o (.post i) := by
  cases hcall : w.unsent[i]? with
  | none => exact hov.skip (by simp only [Watch.take, hcall])
  | some call =>
    have hmem := List.mem_of_getElem? hcall
    refine ⟨?_, fun f hf hm => ?_⟩
    · simp only [Watch.take, hcall, trySend_eq]
      exact ⟨hov.mem, hov.ended, fun h => hov.sent (List.mem_of_mem_eraseIdx h)⟩
    · simp only [added, Watch.take, hcall, trySend_eq, Watch.see, List.drop_left] at hf
      split at hf
      · rw [List.mem_singleton.mp hf] at hm
        obtain ⟨p, hp, rfl⟩ := hk.unsent call hmem
        rw [hk.orderly.same hp hov.mem hm] at hmem
        exact hov.sent hmem
      · exact List.not_mem_nil hf

theorem connect (hov : w.Over o) (now : Nat) : w.Spares o (.connect now) := by
  refine ⟨?_, fun f hf => (List.not_mem_nil (added_connect w now ▸ hf)).elim⟩
  cases h : w.client.welcomed? with
  | none =>
    simp only [Watch.take, h]
    exact hov
  | some x =>
    simp only [Watch.take, h]
    exact ⟨hov.mem, hov.ended, hov.sent⟩

theorem announce (hov : w.Over o) (hk : w.Kept) : w.Spares o .announce := by
  by_cases hopen : w.opening = true
  · refine ⟨?_, fun f hf hm => ?_⟩
    · simp only [Watch.take, hopen, if_true]
      refine ⟨?_, hov.ended, hov.sent⟩
      change o ∈ w.client.announce.outgoing
      rw [(announce_same _).1]
      exact hov.mem
    · simp only [added, Watch.take, hopen, if_true, Watch.see, queue_announce, List.drop_left] at hf
      split at hf
      · rw [List.mem_singleton.mp hf] at hm
        -- those that are named wait
        obtain ⟨⟨id, n⟩, hp, hid⟩ := List.mem_map.mp hm
        obtain ⟨p, hn, hw, hpid⟩ := hk.orderly.mem_pending.mp hp
        obtain rfl := hk.orderly.same (List.mem_of_getElem? hn) hov.mem (hpid.trans hid)
        exact hov.ended hw
      · exact List.not_mem_nil hf
  · exact hov.skip (by simp only [Watch.take, hopen, Bool.false_eq_true, if_false])

theorem see (hov : w.Over o) (hk : w.Kept) (hm : Moves fs w.client d) (he : w.take e = w.see d) :
    w.Spares o e := by
  refine ⟨he ▸ ⟨?_, hov.ended, hov.sent⟩, fun f hf hment => ?_⟩
  · obtain ⟨n, hn⟩ := List.getElem?_of_mem hov.mem
    exact List.mem_of_getElem? (hm.lasts.ended n o hn hov.ended)
  · rw [added, he] at hf
    have hsends := hm.sends f (hm.added ▸ hf)
    cases f with
    | request call =>
      obtain ⟨p, hp, hw, rfl⟩ := hsends
      obtain rfl := hk.orderly.same hp hov.mem hment
      exact hov.ended hw
    | resume ids => exact hsends
    | _ => exact hment

/-- Whatever happens, ids of calls being new. -/
theorem take (hov : w.Over o) (hk : w.Kept) (e : Event)
    (fresh : ∀ call, e.call? = some call → call.id ∉ w.client.outgoing.map fun o => o.call.id) :
    w.Spares o e := by
  cases e with
  | arrive x =>
    exact hov.see (d := w.client.arrive x) hk
      (Queues.moves (.of_same hk.orderly rfl rfl rfl rfl hk.orderly.live)) rfl
  | begin call now => exact hov.begin (fresh call rfl) now
  | post i => exact hov.post hk i
  | connect now => exact hov.connect now
  | announce => exact hov.announce hk
  | act a =>
    rcases hk.take_act a with ⟨call, now, rfl, h⟩ | ⟨now, wall, rfl, h⟩ | ⟨_, h⟩ | ⟨_, fs, hm, h⟩
    · have hbegin := hov.begin (fresh call rfl) now
      exact (hbegin.1.post (hk.begin (fresh call rfl) now) _).after rfl h
    · have hconnect := hov.connect now
      refine (hconnect.1.announce (hk.connect now)).after ?_ h
      cases hw : w.client.welcomed? with
      | none => simp only [Watch.take, hw]
      | some x => simp only [Watch.take, hw, Watch.see, Client.connect]
    · exact hov.skip h
    · exact hov.see hk hm h

end Over

/-! ### Runs -/

theorem play_concat (events : List Event) (e : Event) (w : Watch) :
    play (events ++ [e]) w = (play events w).take e := by simp [play]

/-- The run of a client that has just started. -/
def run (settings : Settings.Machine) (policy : Reconnect) (now : Nat) (events : List Event) : Watch :=
  play events { client := start settings policy now }

variable {settings : Settings.Machine} {policy : Reconnect} {now : Nat} {events : List Event}

theorem kept_start (settings : Settings.Machine) (policy : Reconnect) (now : Nat) :
    Kept { client := start settings policy now } where
  orderly := ⟨rfl, List.nodup_nil, fun h => (Bool.false_ne_true h).elim⟩
  unsent := fun _ h => (List.not_mem_nil h).elim
  opening := fun _ => rfl
  covered := fun h => (Bool.false_ne_true h).elim

/-- In a run that gives each id once, calls are those that were made, and all is kept. -/
theorem kept_run (settings : Settings.Machine) (policy : Reconnect) (now : Nat)
    (hids : ((events.filterMap Event.call?).map Call.id).Nodup) :
    (run settings policy now events).Kept ∧
    (run settings policy now events).client.outgoing.map Outgoing.call =
      events.filterMap Event.call? := by
  induction events using List.reverseRecOn with
  | nil => exact ⟨kept_start settings policy now, rfl⟩
  | append_singleton events e ih =>
    rw [List.filterMap_append, List.map_append, List.nodup_append] at hids
    obtain ⟨hk, hcalls⟩ := ih hids.1
    have hrun : run settings policy now (events ++ [e]) = (run settings policy now events).take e :=
      play_concat ..
    rw [hrun]
    refine ⟨hk.take e fun call hcall hm => ?_, ?_⟩
    · refine hids.2.2 call.id ?_ call.id (by simp [hcall]) rfl
      rw [← hcalls, List.map_map]
      exact hm
    · rw [hk.calls_take e, hcalls, List.filterMap_append]
      cases h : e.call? <;> simp [h]

/-- A call that is over is mentioned by nothing that the rest of the run queues. -/
theorem not_mentions_queuedIn {early late : List Event} (hids : (((early ++ late).filterMap Event.call?).map
      Call.id).Nodup) (hov : (run settings policy now early).Over o) :
    ∀ f ∈ queuedIn late (run settings policy now early), ¬ f.Mentions o.call.id := by
  induction late generalizing early with
  | nil => exact fun f hf => (List.not_mem_nil hf).elim
  | cons e rest ih =>
    rw [List.append_cons] at hids
    have hids' := hids
    rw [List.filterMap_append, List.map_append, List.nodup_append] at hids'
    obtain ⟨hk', hcalls'⟩ := kept_run settings policy now hids'.1
    have hrun : run settings policy now (early ++ [e]) = (run settings policy now early).take e :=
      play_concat ..
    rw [List.filterMap_append, List.map_append, List.nodup_append] at hids'
    obtain ⟨hk, hcalls⟩ := kept_run settings policy now hids'.1.1
    have hspares := hov.take hk e fun call hcall hm => by
      refine hids'.1.2.2 call.id ?_ call.id (by simp [hcall]) rfl
      rw [← hcalls, List.map_map]
      exact hm
    intro f hf
    rcases List.mem_append.mp hf with hf | hf
    · exact hspares.2 f hf
    · exact ih hids (hrun ▸ hspares.1) f (hrun ▸ hf)

/-- Callers that make their calls in one go have nothing left to send. -/
theorem unsent_take (h : ∀ call at_, e ≠ .begin call at_) (hw : w.unsent = []) :
    (w.take e).unsent = [] := by
  cases e with
  | act a =>
    simp only [Watch.take]
    split <;> exact hw
  | arrive x => exact hw
  | begin call at_ => exact absurd rfl (h call at_)
  | post i => simp only [Watch.take, hw, List.getElem?_nil]
  | connect now =>
    simp only [Watch.take]
    split <;> exact hw
  | announce =>
    simp only [Watch.take]
    split <;> exact hw

theorem unsent_run (h : ∀ call at_, .begin call at_ ∉ events) :
    (run settings policy now events).unsent = [] := by
  induction events using List.reverseRecOn with
  | nil => rfl
  | append_singleton events e ih =>
    rw [run, play_concat]
    refine unsent_take (fun call at_ he => ?_) (ih fun call at_ hm => ?_)
    · exact h call at_ (he ▸ List.mem_append_right _ List.mem_cons_self)
    · exact h call at_ (List.mem_append_left _ hm)

/-- In every run in which each id is given once, and with the steps of callers between those of the
connection: calls are those that were made, and the pending ones are those that have not ended. On a
connection on which calls have been named, each pending one is named or its frame was queued there, or its
caller is about to queue it, which none is where calls are made in one go. Of the calls that are said to be
lost those that wait are queued as they were made, and no others. A call that has ended, its caller having
sent what there was, is neither named nor queued again. -/
theorem calls_survive_reconnects (settings : Settings.Machine) (policy : Reconnect) (now : Nat)
    (events : List Event) (hids : ((events.filterMap Event.call?).map Call.id).Nodup) :
    let w := run settings policy now events
    (w.client.outgoing.map Outgoing.call = events.filterMap Event.call? ∧
      ∀ id n, (id, n) ∈ w.client.pending ↔
        ∃ o, w.client.outgoing[n]? = some o ∧ o.outcome? = none ∧ o.call.id = id) ∧
    (w.client.connected = true → w.opening = false →
      ∃ names, w.log.filterMap Frame.resumed? = (if names = [] then [] else [names]) ∧
        ∀ id n, (id, n) ∈ w.client.pending → id ∈ names ∨
          ∃ o, w.client.outgoing[n]? = some o ∧ (.request o.call ∈ w.log ∨ o.call ∈ w.unsent)) ∧
    ((∀ call at_, .begin call at_ ∉ events) → w.unsent = []) ∧
    (∀ since period beat t rest before r after at_ wall,
      w.client.stage = .live since period beat → w.client.stopping = false →
      w.client.inbox = .text t :: rest → Frame.parse t = .ok (.resumeResponse (before ++ r :: after)) →
      r.status = .lost → ∃ c : Client, c = before.foldl reconcile { w.client with inbox := rest } ∧
        c.connected = w.client.connected ∧ c.outgoing.map Outgoing.call = events.filterMap Event.call? ∧
        w.client.next at_ wall = some (after.foldl reconcile (c.reconcile r)) ∧
        (∀ o ∈ c.outgoing, o.outcome? = none → o.call.id = r.requestId → c.reconcile r =
          { c with queue := c.queue ++ if c.connected then [.request o.call] else [] }) ∧
        ((∀ o ∈ c.outgoing, o.call.id = r.requestId → o.outcome? ≠ none) → c.reconcile r = c)) ∧
    ∀ early late o, early ++ late = events → o ∈ (run settings policy now early).client.outgoing →
      o.outcome? ≠ none → o.call ∉ (run settings policy now early).unsent →
      ∀ f ∈ queuedIn late (run settings policy now early), ¬ f.Mentions o.call.id := by
  intro w
  obtain ⟨hk, hcalls⟩ := kept_run settings policy now hids
  refine ⟨⟨hcalls, fun id n => hk.orderly.mem_pending⟩, fun hc hopen => ?covered, unsent_run, ?lost, ?settled⟩
  case covered =>
    obtain ⟨names, hnames, hall⟩ := hk.covered hc hopen
    refine ⟨names, hnames, fun id n hp => ?_⟩
    obtain ⟨o, hn, hw, rfl⟩ := hk.orderly.mem_pending.mp hp
    exact (hall o (List.mem_of_getElem? hn) hw).imp_right fun h => ⟨o, hn, h⟩
  case lost =>
    intro since period beat t rest before r after at_ wall hs hstop hi hp hr
    have horderly : ({ w.client with inbox := rest } : Client).Orderly :=
      hk.orderly.of_same rfl rfl hk.orderly.live
    obtain ⟨fs, hbefore⟩ := queues_reconciles horderly before
    obtain ⟨hwaits, hended⟩ := reconcile_of_lost hbefore.orderly hr
    refine ⟨_, rfl, hbefore.connected, hbefore.lasts.calls.trans hcalls, ?_, hwaits, hended⟩
    rw [next_of_resumed hs hstop hi hp, List.foldl_append, List.foldl_cons]
  case settled =>
    rintro early late o rfl hm hended hsent
    exact not_mentions_queuedIn hids ⟨hm, hended, hsent⟩

def ask : Call := ⟨"req-1", "search", .null⟩

def order : Call := ⟨"req-2", "search", .null⟩

/-- One call is made while there is no connection and another while one is being made. The first is said to
be lost and is then answered. -/
def answered : List Event :=
  [.act (.request ask 0), .act (.dialed 0 (.ok ())),
    .arrive (.text (Frame.text (.init ⟨"conn-1", [], 0⟩))), .connect 5, .begin order 5, .announce, .post 0,
    .arrive (.text (Frame.text (.resumeResponse [.missing "req-1"]))), .act (.next 6 0),
    .arrive (.text (Frame.text (.response (.ok "req-1" .null)))), .act (.next 7 0)]

/-- The connection breaks and another one is made. -/
def reconnected : List Event :=
  [.act .lose, .arrive .lost, .act (.next 8 0), .act (.next 8 0), .act (.next 9000 0),
    .act (.dialed 9000 (.ok ())), .arrive (.text (Frame.text (.init ⟨"conn-2", [], 0⟩))),
    .act (.next 9001 0)]

theorem answered_call_is_left_out : (((answered ++ reconnected).filterMap Event.call?).map Call.id).Nodup ∧
    (∃ names ∈ (run {} {} 0 (answered ++ reconnected)).log.filterMap Frame.resumed?, "req-2" ∈ names) ∧
    ∀ f ∈ queuedIn reconnected (run {} {} 0 answered), ¬ f.Mentions "req-1" := by
  have hids : (((answered ++ reconnected).filterMap Event.call?).map Call.id).Nodup := by decide
  obtain ⟨-, covered, -, -, settled⟩ := calls_survive_reconnects {} {} 0 (answered ++ reconnected) hids
  refine ⟨hids, ?_, ?_⟩
  · obtain ⟨hc, hopen, hpending, hkinds, hunsent⟩ :
        (run {} {} 0 (answered ++ reconnected)).client.connected = true ∧
        (run {} {} 0 (answered ++ reconnected)).opening = false ∧
        ("req-2", 1) ∈ (run {} {} 0 (answered ++ reconnected)).client.pending ∧
        (∀ f ∈ (run {} {} 0 (answered ++ reconnected)).log, f.kind ≠ "request") ∧
        (run {} {} 0 (answered ++ reconnected)).unsent = [] := by decide +kernel
    obtain ⟨names, hnames, hall⟩ := covered hc hopen
    rcases hall _ _ hpending with h | ⟨o, -, h | h⟩
    · refine ⟨names, ?_, h⟩
      rw [hnames, if_neg (List.ne_nil_of_mem h)]
      exact List.mem_cons_self
    · exact absurd rfl (hkinds _ h)
    · rw [hunsent] at h
      exact (List.not_mem_nil h).elim
  · have hended : ∃ o ∈ (run {} {} 0 answered).client.outgoing,
        o.call = ask ∧ o.outcome?.isSome ∧ o.call ∉ (run {} {} 0 answered).unsent := by decide +kernel
    obtain ⟨o, hm, hcall, hended, hsent⟩ := hended
    have hover := settled answered reconnected o rfl hm (Option.isSome_iff_ne_none.mp hended) hsent
    rwa [hcall] at hover

end Watch

end Client

end Fleet.Machine
