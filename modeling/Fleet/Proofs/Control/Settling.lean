import Fleet.Proofs.Control.Inquiries
import Mathlib.Data.List.Induction

/-!
How a call to a machine ends. Of what could end it the first to come does, and nothing after that changes
it; this holds for every run in which ids are given once.
-/

namespace Fleet.Control.Connections

variable {s t : Connections} {c : Connection} {k j n : Nat} {q : Inquiry} {user : String}

namespace Tallied

/-! ### What operations do to one call -/

/-- Giving up a connection's calls ends those that wait on it. -/
theorem getElem?_failPending (ht : s.Tallied) (hq : s.inquiries[n]? = some q) (k : Nat) :
    (s.failPending k).2.inquiries[n]? = some (q.breakOff k) := by
  cases hc : s.opened[k]? with
  | none =>
    obtain ⟨c, hqc⟩ := ht.opened_of_known hq
    have hk : q.connection ≠ k := fun hk => by simp [← hk, hqc] at hc
    simp only [Connections.failPending, hc, Inquiry.breakOff, if_neg hk]
    exact hq
  | some c =>
    rw [ht.failPending_eq hc]
    change (s.inquiries.map _)[n]? = _
    rw [List.getElem?_map, hq, Option.map_some]

theorem getElem?_resolve (ht : s.Tallied) (hq : s.inquiries[n]? = some q) (k : Nat) (r : Reply) :
    (s.resolve k r).2.inquiries[n]? = some (q.after (s.endedBy n q (.respond k r))) := by
  cases hp : s.opened[k]?.bind fun c => c.pending.lookup r.id with
  | none =>
    -- a call that the response is for does not wait any more
    have hsame : q.after (s.endedBy n q (.respond k r)) = q := by
      simp only [endedBy]
      split
      · rename_i h
        refine Inquiry.finish_of_not_waiting (Bool.eq_false_iff.mpr fun hw => ?_)
        obtain ⟨c, hc⟩ := ht.opened_of_known hq
        rw [h.1, hc, Option.bind_some,
          (ht.lookup_pending hc).mpr ⟨q, hq, hw, rfl, h.2.symm⟩] at hp
        cases hp
      · rfl
    simp only [resolve, hp, hsame]
    exact hq
  | some m =>
    obtain ⟨c, hc, hp⟩ := Option.bind_eq_some_iff.mp hp
    obtain ⟨p, hm, _, hk, hid, he⟩ := ht.resolve_eq hc hp
    rw [he]
    change (s.inquiries.modify m _)[n]? = _
    by_cases hn : m = n
    · subst hn
      obtain rfl := Option.some.inj (hm.symm.trans hq)
      simp [hq, endedBy, hk, hid, Inquiry.after]
    · have hother : s.endedBy n q (.respond k r) = none := if_neg fun h => hn ?_
      · rw [List.getElem?_modify_ne _ _ hn, hq, hother]
        rfl
      · have hlt : m < (s.inquiries.map fun q => q.request.id).length := by
          simpa using (List.getElem?_eq_some_iff.mp hm).1
        apply (List.getElem?_inj hlt ht.calls).mp
        rw [List.getElem?_map, List.getElem?_map, hm, hq, Option.map_some, Option.map_some, hid, h.2]

theorem getElem?_register (ht : s.Tallied) (hq : s.inquiries[n]? = some q) (k : Nat) :
    (s.register k).inquiries[n]? =
      some (match s.replaced? k with | some j => q.breakOff j | none => q) := by
  cases hc : s.opened[k]? with
  | none => simp [register_of_none hc, hq, replaced?, hc]
  | some c =>
    cases hl : s.current.lookup c.userId with
    | none =>
      simp only [register_of_first hc hl, replaced?, hc, Option.bind_some, hl]
      exact hq
    | some j =>
      simp only [register_of_current hc hl, replaced?, hc, Option.bind_some, hl]
      exact (ht.appoint hc).getElem?_failPending hq j

/-- Whatever is done, a call ends if it waits and if that ends it, and stays otherwise. -/
theorem getElem?_take (ht : s.Tallied) (hq : s.inquiries[n]? = some q) (op : Operation) :
    (s.take op).inquiries[n]? = some (q.after (s.endedBy n q op)) := by
  have hlt := (List.getElem?_eq_some_iff.mp hq).1
  have hcall (k : Nat) (request : Call) (timeoutMs now : Nat) :
      ((s.call k request timeoutMs now).toOption.getD s).inquiries[n]? = some q := by
    cases h : s.call k request timeoutMs now with
    | error e => exact hq
    | ok t =>
      obtain ⟨rfl, _⟩ := call_ok h
      exact (List.getElem?_append_left hlt).trans hq
  cases op with
  | connect => exact hq
  | hangUp k => exact hq
  | write k => exact hq
  | send k f =>
    change ((s.send k f).toOption.getD s).inquiries[n]? = some q
    cases h : s.send k f with
    | error e => exact hq
    | ok t =>
      obtain ⟨c, _, _, rfl⟩ := send_ok h
      exact hq
  | call k request timeoutMs now => exact hcall k request timeoutMs now
  | callUser user request timeoutMs now =>
    change ((s.callUser user request timeoutMs now).toOption.getD s).inquiries[n]? = some q
    unfold Connections.callUser
    split
    · exact hq
    · exact hcall _ request timeoutMs now
  | respond k r => exact ht.getElem?_resolve hq k r
  | expire m =>
    change (s.expire m).inquiries[n]? = _
    unfold Connections.expire
    by_cases hm : m = n
    · subst hm
      cases hw : q.isWaiting with
      | true => simp [hq, hw, endedBy, Inquiry.after]
      | false => simp [hq, hw, endedBy, Inquiry.after, Inquiry.finish_of_not_waiting hw]
    · rw [endedBy, if_neg hm]
      split
      · exact hq
      · split
        · exact (List.getElem?_modify_ne _ _ hm).trans hq
        · exact hq
  | failPending k =>
    change (s.failPending k).2.inquiries[n]? = _
    rw [ht.getElem?_failPending hq, q.breakOff_eq]
    simp only [endedBy, eq_comm (a := k)]
  | close k => exact hq
  | register k =>
    change (s.register k).inquiries[n]? = _
    rw [ht.getElem?_register hq]
    cases hj : s.replaced? k with
    | none => simp [endedBy, hj, Inquiry.after]
    | some j => simp [endedBy, hj, q.breakOff_eq, eq_comm (a := j)]
  | unregister user id =>
    change (s.unregister user id).2.inquiries[n]? = some q
    unfold Connections.unregister
    split <;> exact hq

end Tallied

namespace Tallied

/-! ### What is left to say of one state -/

theorem resolve_of_stray (ht : s.Tallied) {r : Reply} (hr : ∀ q ∈ s.inquiries,
    q.isWaiting = true → q.connection = k → q.request.id ≠ r.id) : s.resolve k r = (false, s) := by
  cases hp : s.opened[k]?.bind fun c => c.pending.lookup r.id with
  | none => simp only [resolve, hp]
  | some n =>
    obtain ⟨c, hc, hp⟩ := Option.bind_eq_some_iff.mp hp
    obtain ⟨q, hq, hw, hk, hid⟩ := (ht.lookup_pending hc).mp hp
    exact absurd hid (hr q (List.mem_of_getElem? hq) hw hk)

theorem length_pending (ht : s.Tallied) (hc : s.opened[k]? = some c) :
    c.pending.length = s.inquiries.countP fun q => q.isWaiting && q.connection = k := by
  rw [ht.pending k c hc, awaited, length_index]
  apply List.countP_congr
  intro q _
  simp only [Inquiry.awaitedOn]
  split <;> simp_all

theorem closing_register (ht : s.Tallied) (hj : s.replaced? k = some j) :
    ∃ d, (s.register k).opened[j]? = some d ∧ d.closing = true ∧ d.pending = [] := by
  obtain ⟨c, hc, hl⟩ := replaced?_eq_some.mp hj
  have huser := ht.current _ _ hl
  rw [List.getElem?_map] at huser
  obtain ⟨d, hd, _⟩ := Option.map_eq_some_iff.mp huser
  refine ⟨{ d with pending := [], closing := true }, ?_, rfl, rfl⟩
  rw [register_of_current hc hl, (ht.appoint hc).failPending_eq hd]
  simp [close, Connections.change, Connections.appoint, hd]

/-- Ids name connections, so what is taken off is the current connection. -/
theorem unregister_of_not_current (ht : s.Tallied) (hc : s.opened[k]? = some c)
    (hk : s.current.lookup user ≠ some k) : s.unregister user c.id = (false, s) := by
  refine if_neg fun hid => ?_
  obtain ⟨d, hd, hid⟩ := Option.map_eq_some_iff.mp hid
  obtain ⟨j, hj, hd⟩ := Option.bind_eq_some_iff.mp hd
  have hlt : j < (s.opened.map Connection.id).length := by
    simpa using (List.getElem?_eq_some_iff.mp hd).1
  have hsame : j = k := by
    apply (List.getElem?_inj hlt ht.lines).mp
    rw [List.getElem?_map, List.getElem?_map, hd, hc, Option.map_some, Option.map_some, hid]
  exact hk (hsame ▸ hj)

end Tallied

/-! ### Runs -/

/-- The ids of connections and those of calls. -/
def ids (s : Connections) : List String × List String :=
  (s.opened.map Connection.id, s.inquiries.map fun q => q.request.id)

theorem ids_change {f : Connection → Connection} (hf : ∀ c, (f c).id = c.id) (s : Connections) (k : Nat) :
    (s.change k f).ids = s.ids := by
  rw [ids, map_opened_change hf]
  rfl

theorem Silent.ids (h : Silent s t) : t.ids = s.ids := by
  have hlines := congrArg (List.map Prod.fst) h.faces
  have hcalls := congrArg (List.map fun a => a.2.id) h.made
  simp only [List.map_map, Connections.made] at hlines hcalls
  exact Prod.ext hlines hcalls

/-- A connection opens, a call is made, or ids stay what they were. -/
theorem take_cases (s : Connections) (op : Operation) :
    (∃ id user org, op = .connect id user org) ∨
    (∃ k request timeoutMs now, op.callId? = some request.id ∧
      s.take op = s.enter k request timeoutMs now) ∨
    (s.take op).ids = s.ids := by
  have hcall (k : Nat) (request : Call) (timeoutMs now : Nat) :
      (s.call k request timeoutMs now).toOption.getD s = s.enter k request timeoutMs now ∨
        (s.call k request timeoutMs now).toOption.getD s = s := by
    cases h : s.call k request timeoutMs now with
    | error e => exact .inr rfl
    | ok t => exact .inl (call_ok h).1
  cases op with
  | connect id user org => exact .inl ⟨id, user, org, rfl⟩
  | call k request timeoutMs now =>
    rcases hcall k request timeoutMs now with h | h
    · exact .inr (.inl ⟨k, request, timeoutMs, now, rfl, h⟩)
    · exact .inr (.inr (congrArg Connections.ids h))
  | callUser user request timeoutMs now =>
    cases hk : s.current.lookup user with
    | none =>
      refine .inr (.inr ?_)
      simp only [take, callUser, hk]
      rfl
    | some k =>
      have htake : s.take (.callUser user request timeoutMs now) =
          (s.call k request timeoutMs now).toOption.getD s := by simp only [take, callUser, hk]
      rcases hcall k request timeoutMs now with h | h
      · exact .inr (.inl ⟨k, request, timeoutMs, now, rfl, htake.trans h⟩)
      · exact .inr (.inr (congrArg Connections.ids (htake.trans h)))
  | send k f =>
    refine .inr (.inr ?_)
    change ((s.send k f).toOption.getD s).ids = s.ids
    cases h : s.send k f with
    | error e => rfl
    | ok t =>
      rw [send_eq h]
      exact ids_change (f := fun c => { c with outbox := c.outbox ++ [f] }) (fun _ => rfl) s k
  | hangUp k => exact .inr (.inr (ids_change (f := Connection.hangUp) (fun _ => rfl) s k))
  | write k =>
    let f (c : Connection) : Connection := { c with outbox := c.outbox.drop 1 }
    exact .inr (.inr (ids_change (f := f) (fun _ => rfl) s k))
  | respond k r => exact .inr (.inr (silent_resolve s k r).ids)
  | expire n => exact .inr (.inr (silent_expire s n).ids)
  | failPending k => exact .inr (.inr (silent_failPending s k).ids)
  | close k => exact .inr (.inr (silent_close s k).ids)
  | register k => exact .inr (.inr (silent_register s k).ids)
  | unregister user id => exact .inr (.inr (silent_unregister s user id).ids)

theorem play_concat (ops : List Operation) (op : Operation) (s : Connections) :
    play (ops ++ [op]) s = (play ops s).take op := by simp [play]

/-- Ids are those that operations gave. -/
theorem ids_play (ops : List Operation) :
    (play ops {}).ids.1 ⊆ ops.filterMap Operation.lineId? ∧
      (play ops {}).ids.2 ⊆ ops.filterMap Operation.callId? := by
  induction ops using List.reverseRecOn with
  | nil => exact ⟨List.nil_subset _, List.nil_subset _⟩
  | append_singleton ops op ih =>
    rw [play_concat, List.filterMap_append, List.filterMap_append]
    have old {xs ys zs : List String} (h : xs ⊆ ys) : xs ⊆ ys ++ zs :=
      List.subset_append_of_subset_left zs h
    rcases take_cases (play ops {}) op with ⟨id, user, org, rfl⟩ | ⟨k, request, timeoutMs, now, hid, he⟩ | he
    · refine ⟨?_, old ih.2⟩
      simp only [ids, take, connect, List.map_append]
      exact List.append_subset.mpr ⟨old ih.1, List.subset_append_right _ _⟩
    · rw [he]
      refine ⟨?_, ?_⟩
      · have hlines : (play ops {}).opened.map Connection.id ⊆ _ := ih.1
        rw [← map_opened_change (k := k) (f := fun c => { c with
          outbox := c.outbox ++ [.request request]
          pending := c.pending ++ [(request.id, (play ops {}).inquiries.length)] }) fun _ => rfl] at hlines
        exact old hlines
      · simp only [ids, enter, List.map_append, List.map_cons, List.map_nil]
        refine List.append_subset.mpr ⟨old ih.2, fun id hm => List.mem_append_right _ ?_⟩
        rw [List.mem_singleton.mp hm]
        simp [hid]
    · rw [he]
      exact ⟨old ih.1, old ih.2⟩

/-- While ids are given once, pending calls are those that wait. -/
theorem tallied_play {ops : List Operation} (hcalls : (ops.filterMap Operation.callId?).Nodup)
    (hlines : (ops.filterMap Operation.lineId?).Nodup) : (play ops {}).Tallied := by
  induction ops using List.reverseRecOn with
  | nil =>
    refine ⟨fun k c hc => ?_, List.nodup_nil, List.nodup_nil, fun k hk => ?_, fun u k h => ?_⟩
    · simp [play] at hc
    · simp [play] at hk
    · simp [play] at h
  | append_singleton ops op ih =>
    rw [List.filterMap_append, List.nodup_append] at hcalls hlines
    have hids := ids_play ops
    rw [play_concat]
    refine (ih hcalls.1 hlines.1).take op (fun id hid hm => ?_) fun id hid hm => ?_
    · exact hcalls.2.2 id (hids.2 hm) id (by simp [hid]) rfl
    · exact hlines.2.2 id (hids.1 hm) id (by simp [hid]) rfl

/-- What becomes of a call in the rest of a run is what the first operation to end it makes of it. -/
theorem getElem?_play {early late : List Operation}
    (hcalls : ((early ++ late).filterMap Operation.callId?).Nodup)
    (hlines : ((early ++ late).filterMap Operation.lineId?).Nodup)
    (hq : (play early {}).inquiries[n]? = some q) :
    (play (early ++ late) {}).inquiries[n]? = some (q.after (firstEnd n q late (play early {}))) := by
  induction late generalizing early q with
  | nil =>
    rw [List.append_nil]
    exact hq
  | cons op rest ih =>
    have ht : (play early {}).Tallied := by
      rw [List.filterMap_append] at hcalls hlines
      exact tallied_play hcalls.of_append_left hlines.of_append_left
    have hnext := ht.getElem?_take hq op
    rw [← play_concat] at hnext
    rw [List.append_cons] at hcalls hlines ⊢
    rw [ih hcalls hlines hnext, firstEnd, play_concat]
    cases (play early {}).endedBy n q op with
    | none => rfl
    | some x => exact congrArg some Inquiry.after_finish

/-- In every run in which the ids of calls and of connections are given once, a call ends once, with the
first of these that comes: a response with its id on its connection, its time, or the end of its
connection; a response that no call waits for changes nothing. A call is not made where there is no
writer. As many calls are pending on a connection as wait on it. A connection that is replaced closes and
ends its calls, and one that is not current is not taken off. -/
theorem calls_settle_once (ops : List Operation) (hcalls : (ops.filterMap Operation.callId?).Nodup)
    (hlines : (ops.filterMap Operation.lineId?).Nodup) :
    (∀ early late (n : Nat) (q : Inquiry), early ++ late = ops → (play early {}).inquiries[n]? = some q →
      (play ops {}).inquiries[n]? = some (q.after (firstEnd n q late (play early {})))) ∧
    (∀ (k : Nat) c request timeoutMs now, (play ops {}).opened[k]? = some c →
      (play ops {}).call k request timeoutMs now =
        if c.writable then .ok ((play ops {}).enter k request timeoutMs now) else .error c.closed) ∧
    (∀ k r, (∀ q ∈ (play ops {}).inquiries, q.isWaiting = true → q.connection = k → q.request.id ≠ r.id) →
      (play ops {}).resolve k r = (false, play ops {})) ∧
    (∀ (k : Nat) c, (play ops {}).opened[k]? = some c → c.pending.length =
      (play ops {}).inquiries.countP fun q => q.isWaiting && q.connection = k) ∧
    (∀ k j, (play ops {}).replaced? k = some j →
      (∃ d, ((play ops {}).register k).opened[j]? = some d ∧ d.closing = true ∧ d.pending = []) ∧
      ∀ (n : Nat) (q : Inquiry), (play ops {}).inquiries[n]? = some q → q.isWaiting = true → q.connection = j →
        ((play ops {}).register k).inquiries[n]? = some { q with state := .ended (.error q.abandoned) }) ∧
    ∀ (k : Nat) c user, (play ops {}).opened[k]? = some c → (play ops {}).current.lookup user ≠ some k →
      (play ops {}).unregister user c.id = (false, play ops {}) := by
  have ht := tallied_play hcalls hlines
  refine ⟨?first, fun k c request timeoutMs now hc => ?made, fun k r hr => ht.resolve_of_stray hr,
    fun k c hc => ht.length_pending hc, fun k j hj => ⟨ht.closing_register hj, fun n q hq hw hk => ?_⟩,
    fun k c user hc hk => ht.unregister_of_not_current hc hk⟩
  case first =>
    rintro early late n q rfl hq
    exact getElem?_play hcalls hlines hq
  case made =>
    cases hw : c.writable with
    | true => exact call_of_writable hc hw
    | false => exact call_of_not_writable hc hw
  rw [ht.getElem?_register hq, hj]
  simp only [Inquiry.breakOff, if_pos hk, Inquiry.finish_of_waiting hw]

/-- Of four calls the first is answered twice, the second when its time is up, and the third when its
machine has come back on another connection; the fourth is made where nobody writes any more. -/
def meetings : List Operation :=
  [.connect "conn-1" "alice" "acme", .register 0,
    .call 0 ⟨"req-1", "list", .null⟩ 50 0, .call 0 ⟨"req-2", "list", .null⟩ 50 0,
    .call 0 ⟨"req-3", "list", .null⟩ 900 0,
    .respond 0 (.ok "req-1" .null), .respond 0 (.ok "req-1" (.bool true)),
    .expire 1, .respond 0 (.ok "req-2" .null),
    .connect "conn-2" "alice" "acme", .register 1, .respond 0 (.ok "req-3" .null),
    .hangUp 0, .call 0 ⟨"req-4", "list", .null⟩ 50 0, .respond 0 (.ok "req-4" .null)]

theorem meetings_settle_once :
    (meetings.filterMap Operation.callId?).Nodup ∧ (meetings.filterMap Operation.lineId?).Nodup ∧
    ((play meetings {}).inquiries[0]?.map Inquiry.state = some (.ended (.ok .null)) ∧
      (play meetings {}).inquiries[1]?.map Inquiry.state =
        some (.ended (.error (.timeout "'list' got no response within 50ms"))) ∧
      (play meetings {}).inquiries[2]?.map Inquiry.state =
        some (.ended (.error (.transport "Connection closed before 'list' completed")))) ∧
    (play meetings {}).call 0 ⟨"req-4", "list", .null⟩ 50 0 =
      .error (.transport "Connection conn-1 closed") ∧
    (play meetings {}).resolve 0 (.ok "req-4" .null) = (false, play meetings {}) ∧
    (play meetings {}).unregister "alice" "conn-1" = (false, play meetings {}) := by
  have hcalls : (meetings.filterMap Operation.callId?).Nodup := by decide
  have hlines : (meetings.filterMap Operation.lineId?).Nodup := by decide
  obtain ⟨first, made, stray, -, -, taken⟩ := calls_settle_once meetings hcalls hlines
  let q (n timeoutMs : Nat) : Inquiry := ⟨0, ⟨s!"req-{n}", "list", .null⟩, timeoutMs, timeoutMs, .waiting⟩
  refine ⟨hcalls, hlines, ⟨?_, ?_, ?_⟩, ?_, ?_, ?_⟩
  · rw [first (meetings.take 5) (meetings.drop 5) 0 (q 1 50) rfl rfl]
    rfl
  · rw [first (meetings.take 5) (meetings.drop 5) 1 (q 2 50) rfl rfl]
    have htext : s!"'list' got no response within {50}ms" = "'list' got no response within 50ms" := by
      decide +kernel
    exact congrArg (fun text => some (InquiryState.ended (.error (.timeout text)))) htext
  · rw [first (meetings.take 5) (meetings.drop 5) 2 (q 3 900) rfl rfl]
    rfl
  · exact made 0 _ _ 50 0 rfl
  · exact stray 0 _ (by decide)
  · exact taken 0 _ "alice" rfl (by decide)

end Fleet.Control.Connections
