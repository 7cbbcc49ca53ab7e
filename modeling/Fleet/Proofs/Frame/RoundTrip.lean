import Fleet.Proofs.Frame.Carried
import Fleet.Proofs.Json.Reading

/-!
Frames whose text is read. A frame of any kind with payloads of integers, texts, lists and objects,
nested no deeper than a reader goes, is read back as it was, but for results that are null.
-/

namespace Fleet

open Json (Form Reader Document Named depthLimit)
open Json.Document (printed)

/-- The reply as it is read back: a result that is null is none. -/
def Reply.returned (r : Reply) : Reply := { r with result := r.result.filter (· ≠ .null) }

def Resumed.returned (r : Resumed) : Resumed := { r with result := r.result.filter (· ≠ .null) }

namespace Frame

/-- The values of others that a frame passes on. -/
def payloads : Frame → List Json
  | .request c => [c.params]
  | .response r => r.result.toList
  | .fireAndForget _ payload => [payload]
  | .sessionEvent _ _ data => [data]
  | .resumeResponse results => results.flatMap fun r => r.result.toList
  | _ => []

/-- Numbers are in their range, and no secret has two values. -/
def InRange : Frame → Prop
  | .init w => w.heartbeatIntervalMs < bitBound 64 ∧ (w.secrets.map Prod.fst).Nodup
  | .heartbeat (some ts) => -(bitBound 63 : Int) ≤ ts ∧ ts < bitBound 63
  | _ => True

/-- A frame whose text is read: its payloads are, and nest no deeper than a reader goes. -/
structure WellFormed (f : Frame) : Prop where
  proper : ∀ v ∈ f.payloads, v.Proper
  nested : f.toJson.depth ≤ depthLimit
  inRange : f.InRange

/-- The frame as it is read back. -/
def returned : Frame → Frame
  | .response r => .response r.returned
  | .resumeResponse results => .resumeResponse (results.map Resumed.returned)
  | f => f

/-- The same frame. Secrets are told apart by their names, whatever order they are in. -/
def Same : Frame → Frame → Prop
  | .init w, .init w' => w.connectionId = w'.connectionId ∧ w.secrets.Perm w'.secrets ∧
      w.heartbeatIntervalMs = w'.heartbeatIntervalMs
  | f, g => f = g

end Frame

/-! ### Parts of frames -/

variable {members : List (Option String × Document)} {k : Json}

theorem Fault.gives (f : Fault) : Fault.reader.Gives (printed f.toJson) f := by
  obtain ⟨members, hprinted, hn, hlookup⟩ :=
    Json.printed_object [("code", .str f.code), ("message", .str f.message)]
  have hcode : members.lookup (some "code") = some (printed (.str f.code)) := hlookup "code"
  have hmessage : members.lookup (some "message") = some (printed (.str f.message)) :=
    hlookup "message"
  rw [toJson, hprinted]
  refine Form.Gives.reader ?_ hn
  exact ((Form.required_gives hcode (Reader.text_gives _)).map Fault.mk).seq
    (Form.required_gives hmessage (Reader.text_gives _))

theorem Fault.optional_gives {name : String} {x : Option Fault}
    (h : members.lookup (some name) = x.map fun f => printed f.toJson) :
    (Form.optional name Fault.reader).Gives members x :=
  Form.optional_gives h fun f _ => ⟨f.gives, f.printed_ne_null⟩

theorem Credentials.gives {c : Credentials} (hn : Named members)
    (hm : Wrote members (("type", k) :: c.members)) : reader.Gives (.record members) c := by
  obtain ⟨huser, horg, hticket, htoken⟩ := written hm
  have hmk := (Form.defaulted_gives "" huser (Reader.text_gives _)).map Credentials.mk
  have hfields := (hmk.seq (Form.defaulted_gives "" horg (Reader.text_gives _))).seq
    (Form.defaulted_gives "" hticket (Reader.text_gives _))
  refine Form.Gives.reader (hfields.seq (Form.optional_gives htoken ?_)) hn
  exact fun t _ => ⟨Reader.text_gives t, nofun⟩

/-- Secrets are given in the order of their names. -/
theorem Welcome.gives {w : Welcome} (hn : Named members)
    (hm : Wrote members (("type", k) :: w.members)) (hrange : w.heartbeatIntervalMs < bitBound 64) :
    reader.Gives (.record members) { w with secrets := Json.ordered w.secrets } := by
  have hid : members.lookup (some "connectionId") = some (printed (.str w.connectionId)) :=
    hm _ (by decide)
  have hsecrets : members.lookup (some "secrets") =
      some (printed (Json.object (w.secrets.map fun e => (e.1, Json.str e.2)))) := hm _ (by decide)
  have hinterval : members.lookup (some "heartbeatIntervalMs") =
      some (printed (.nat w.heartbeatIntervalMs)) := hm _ (by decide)
  have hmk := (Form.required_gives hid (Reader.text_gives _)).map Welcome.mk
  have htable : (Reader.table .text).Gives
      (printed (Json.object (w.secrets.map fun e => (e.1, Json.str e.2)))) (Json.ordered w.secrets) :=
    Reader.table_gives fun e _ => Reader.text_gives e.2
  exact Form.Gives.reader ((hmk.seq (Form.defaulted_gives [] hsecrets htable)).seq
    (Form.required_gives hinterval (Reader.nat64_gives hrange))) hn

theorem Call.gives {c : Call} (hn : Named members) (hm : Wrote members (("type", k) :: c.members))
    (hp : c.params.Proper) (hd : c.params.depth ≤ depthLimit) :
    reader.Gives (.record members) c := by
  obtain ⟨hid, hmethod, hparams⟩ := written hm
  have hmk := (Form.required_gives hid (Reader.text_gives _)).map Call.mk
  have hfields := hmk.seq (Form.required_gives hmethod (Reader.text_gives _))
  exact Form.Gives.reader
    (hfields.seq (Form.defaulted_gives .null hparams (Reader.any_gives hp hd))) hn

theorem Reply.gives {r : Reply} (hn : Named members) (hm : Wrote members (("type", k) :: r.members))
    (hp : ∀ v, r.result = some v → v.Proper ∧ v.depth ≤ depthLimit) :
    reader.Gives (.record members) r.returned := by
  obtain ⟨hid, hresult, hfault⟩ := written hm
  have hmk := (Form.required_gives hid (Reader.text_gives _)).map Reply.mk
  exact Form.Gives.reader
    ((hmk.seq (Form.payload_gives hresult hp)).seq (Fault.optional_gives hfault)) hn

theorem Resumed.gives {r : Resumed} (hp : ∀ v, r.result = some v → v.Proper)
    (hd : r.toJson.depth ≤ depthLimit) : reader.Gives (printed r.toJson) r.returned := by
  obtain ⟨members, hprinted, hn, hlookup⟩ := Json.printed_object r.members
  obtain ⟨hid, hstatus, hresult, hfault⟩ := written hlookup
  have hdepth : ∀ v, r.result = some v → v.Proper ∧ v.depth ≤ depthLimit := by
    intro v hv
    have hlast : r.members.reverse.lookup "result" = some v := by
      obtain ⟨id, status, result, fault⟩ := r
      cases hv
      cases fault <;> rfl
    exact ⟨hp v hv, (Json.depth_lt_of_lookup hlast).le.trans hd⟩
  have hchoice : Recall.reader.Gives (printed (.str r.status.name)) r.status := by
    cases r.status with
    | completed => exact Reader.choice_gives rfl
    | lost => exact Reader.choice_gives rfl
  rw [toJson_eq, hprinted]
  have hmk := (Form.required_gives hid (Reader.text_gives _)).map Resumed.mk
  have hfields := hmk.seq (Form.required_gives hstatus hchoice)
  exact Form.Gives.reader
    ((hfields.seq (Form.payload_gives hresult hdepth)).seq (Fault.optional_gives hfault)) hn

/-! ### What frames are written as -/

theorem mem_member? {α : Type} {name : String} {write : α → Json} {x : Option α}
    {m : String × Json} (h : m ∈ member? name write x) : ∃ a, x = some a ∧ m = (name, write a) := by
  cases x with
  | none => cases h
  | some a => exact ⟨a, rfl, List.mem_singleton.mp h⟩

theorem member?_proper {α : Type} {name : String} {write : α → Json} {x : Option α}
    (h : ∀ a, x = some a → (write a).Proper) : ∀ m ∈ member? name write x, m.2.Proper := by
  intro m hm
  obtain ⟨a, ha, rfl⟩ := mem_member? hm
  exact h a ha

theorem Fault.proper (f : Fault) : f.toJson.Proper := by
  refine Json.object_proper fun m hm => ?_
  simp only [List.mem_cons, List.not_mem_nil, or_false] at hm
  rcases hm with rfl | rfl <;> trivial

theorem Reply.members_proper {r : Reply} (hp : ∀ v, r.result = some v → v.Proper) :
    ∀ m ∈ r.members, m.2.Proper := by
  refine List.forall_mem_cons.mpr ⟨trivial, List.forall_mem_append.mpr ⟨?_, ?_⟩⟩
  · exact member?_proper hp
  · exact member?_proper fun f _ => f.proper

theorem Resumed.proper {r : Resumed} (hp : ∀ v, r.result = some v → v.Proper) : r.toJson.Proper := by
  refine Json.object_proper (List.forall_mem_append.mpr ⟨List.forall_mem_append.mpr ⟨?_, ?_⟩, ?_⟩)
  · exact List.forall_mem_cons.mpr ⟨trivial, List.forall_mem_cons.mpr ⟨trivial, nofun⟩⟩
  · exact member?_proper hp
  · exact member?_proper fun f _ => f.proper

namespace Frame

variable {f : Frame}

/-- All that a frame is written as is proper where its payloads are. -/
theorem WellFormed.members_proper (h : f.WellFormed) :
    ∀ m ∈ ("type", Json.str f.kind) :: f.members, m.2.Proper := by
  obtain ⟨hpayloads, _, hrange⟩ := h
  refine List.forall_mem_cons.mpr ⟨trivial, ?_⟩
  cases f with
  | auth c =>
    refine List.forall_mem_append.mpr ⟨?_, member?_proper fun _ _ => trivial⟩
    exact List.forall_mem_cons.mpr ⟨trivial, List.forall_mem_cons.mpr ⟨trivial,
      List.forall_mem_cons.mpr ⟨trivial, nofun⟩⟩⟩
  | init w =>
    have hsecrets : (Json.object (w.secrets.map fun e => (e.1, Json.str e.2))).Proper := by
      refine Json.object_proper fun m hm => ?_
      obtain ⟨e, _, rfl⟩ := List.mem_map.mp hm
      trivial
    have hinterval : (Json.nat w.heartbeatIntervalMs).Proper := by
      have hlt := hrange.1
      simp only [bitBound_64] at hlt
      exact ⟨by simp only [bitBound_63]; omega, by simp only [bitBound_64]; omega⟩
    exact List.forall_mem_cons.mpr ⟨trivial, List.forall_mem_cons.mpr ⟨hsecrets,
      List.forall_mem_cons.mpr ⟨hinterval, nofun⟩⟩⟩
  | heartbeat ts =>
    refine member?_proper fun n hn => ?_
    subst hn
    obtain ⟨hlow, hhigh⟩ := hrange
    simp only [bitBound_63] at hlow hhigh
    exact ⟨by simp only [bitBound_63]; omega, by simp only [bitBound_64]; omega⟩
  | request c =>
    exact List.forall_mem_cons.mpr ⟨trivial, List.forall_mem_cons.mpr ⟨trivial,
      List.forall_mem_cons.mpr ⟨hpayloads _ (by simp [payloads]), nofun⟩⟩⟩
  | response r =>
    exact Reply.members_proper fun v hv => hpayloads v (by simp [payloads, hv])
  | fireAndForget method payload =>
    exact List.forall_mem_cons.mpr ⟨trivial,
      List.forall_mem_cons.mpr ⟨hpayloads _ (by simp [payloads]), nofun⟩⟩
  | sessionEvent session event data =>
    exact List.forall_mem_cons.mpr ⟨trivial, List.forall_mem_cons.mpr ⟨trivial,
      List.forall_mem_cons.mpr ⟨hpayloads _ (by simp [payloads]), nofun⟩⟩⟩
  | resume ids =>
    refine List.forall_mem_cons.mpr ⟨Json.properItems_iff.mpr fun v hv => ?_, nofun⟩
    obtain ⟨id, _, rfl⟩ := List.mem_map.mp hv
    trivial
  | resumeResponse results =>
    refine List.forall_mem_cons.mpr ⟨Json.properItems_iff.mpr fun v hv => ?_, nofun⟩
    obtain ⟨r, hr, rfl⟩ := List.mem_map.mp hv
    exact Resumed.proper fun v hv => hpayloads v (List.mem_flatMap.mpr ⟨r, hr, by simp [hv]⟩)
  | error e =>
    exact List.forall_mem_cons.mpr ⟨trivial, List.forall_mem_cons.mpr ⟨trivial, nofun⟩⟩

/-- A welcome is read if its interval has 64 bits; it nests no more than its secrets. -/
theorem wellFormed_init {w : Welcome} (h : (Frame.init w).InRange) : (Frame.init w).WellFormed := by
  refine ⟨nofun, ?_, h⟩
  have hsecrets : (Json.object (w.secrets.map fun e => (e.1, Json.str e.2))).depth ≤ 1 := by
    refine Json.depth_object_le fun m hm => ?_
    obtain ⟨e, _, rfl⟩ := List.mem_map.mp hm
    exact Nat.le_refl 0
  have hmembers : ∀ m ∈ ("type", Json.str (Frame.init w).kind) :: (Frame.init w).members, m.2.depth ≤ 1 :=
    List.forall_mem_cons.mpr ⟨Nat.zero_le 1, List.forall_mem_cons.mpr ⟨Nat.zero_le 1,
      List.forall_mem_cons.mpr ⟨hsecrets, List.forall_mem_cons.mpr ⟨Nat.zero_le 1, nofun⟩⟩⟩⟩
  exact (Json.depth_object_le hmembers).trans (by decide)

theorem wellFormed_heartbeat {ts : Option Int} (h : (Frame.heartbeat ts).InRange) :
    (Frame.heartbeat ts).WellFormed := by
  refine ⟨nofun, ?_, h⟩
  have hmembers : ∀ m ∈ ("type", Json.str (Frame.heartbeat ts).kind) :: (Frame.heartbeat ts).members,
      m.2.depth ≤ 0 := by
    cases ts <;> simp [members, member?, Json.int, Json.depth]
  exact (Json.depth_object_le hmembers).trans (by decide)

/-- A payload under a name of its own nests no deeper than a reader goes. -/
theorem WellFormed.depth_le (h : f.WellFormed) (name : String) {v : Json}
    (hv : (("type", Json.str f.kind) :: f.members).reverse.lookup name = some v) :
    v.depth ≤ depthLimit :=
  (Json.depth_lt_of_lookup hv).le.trans h.nested

/-! ### Frames -/

/-- A frame that is read by a form of its own. -/
theorem variant_gives {name : String} {form : Form Frame} {g : Frame} (hn : Named members)
    (h : form.Gives members g) :
    (variant name form).Gives (.record members) g := h.reader hn

/-- A frame as it is read, where secrets are given in the order of their names. -/
def settled : Frame → Frame
  | .init w => .init { w with secrets := Json.ordered w.secrets }
  | f => f.returned

theorem settled_same (h : f.InRange) : f.settled.Same f.returned := by
  cases f with
  | init w => exact ⟨rfl, Json.perm_ordered h.2, rfl⟩
  | _ => rfl

/-- What stands besides the tag is read as the tag says. -/
theorem WellFormed.gives (h : f.WellFormed) : ∃ r, choices.lookup f.kind = some r ∧
    ∀ rest, Named rest → Wrote rest (("type", .str f.kind) :: f.members) →
      r.Gives (.record rest) f.settled := by
  cases hf : f with
  | auth c =>
    refine ⟨_, rfl, fun rest hn hm => ?_⟩
    exact (Credentials.gives hn hm).map
  | init w =>
    refine ⟨_, rfl, fun rest hn hm => ?_⟩
    have hrange := h.inRange
    rw [hf] at hrange
    exact (Welcome.gives hn hm hrange.1).map
  | heartbeat ts =>
    refine ⟨_, rfl, fun rest hn hm => variant_gives hn (Form.Gives.map ?_ _)⟩
    have hts : rest.lookup (some "ts") = ts.map fun n => printed (Json.int n) := by
      refine (hm "ts" (by decide)).trans ?_
      cases ts <;> rfl
    refine Form.optional_gives hts fun n hn => ?_
    have hrange := h.inRange
    rw [hf, hn] at hrange
    refine ⟨Reader.int64_gives hrange, ?_⟩
    rw [Json.int, printed, Document.ofNumber_exact]
    · intro h
      cases h
    · obtain ⟨hlow, hhigh⟩ := hrange
      simp only [bitBound_63] at hlow hhigh
      exact ⟨by simp only [bitBound_63]; omega, by simp only [bitBound_64]; omega⟩
  | request c =>
    refine ⟨_, rfl, fun rest hn hm => ?_⟩
    subst hf
    exact (Call.gives hn hm (h.proper _ (by simp [payloads])) (h.depth_le "params" rfl)).map
  | response r =>
    refine ⟨_, rfl, fun rest hn hm => ?_⟩
    subst hf
    refine (Reply.gives hn hm fun v hv => ⟨h.proper v (by simp [payloads, hv]), ?_⟩).map
    refine h.depth_le "result" ?_
    obtain ⟨id, result, fault⟩ := r
    cases hv
    cases fault <;> rfl
  | fireAndForget method payload =>
    refine ⟨_, rfl, fun rest hn hm => variant_gives hn ?_⟩
    subst hf
    have hmethod : rest.lookup (some "method") = some (printed (.str method)) := hm _ (by decide)
    have hpayload : rest.lookup (some "payload") = some (printed payload) := hm _ (by decide)
    have hgives := Reader.any_gives (h.proper payload (by simp [payloads]))
      (h.depth_le "payload" rfl)
    exact ((Form.required_gives hmethod (Reader.text_gives _)).map _).seq
      (Form.defaulted_gives _ hpayload hgives)
  | sessionEvent session event data =>
    refine ⟨_, rfl, fun rest hn hm => variant_gives hn ?_⟩
    subst hf
    have hsession : rest.lookup (some "sessionId") = some (printed (.str session)) := hm _ (by decide)
    have hevent : rest.lookup (some "event") = some (printed (.str event)) := hm _ (by decide)
    have hdata : rest.lookup (some "data") = some (printed data) := hm _ (by decide)
    have hgives := Reader.any_gives (h.proper data (by simp [payloads]))
      (h.depth_le "data" rfl)
    have hfields := ((Form.required_gives hsession (Reader.text_gives _)).map Frame.sessionEvent).seq
      (Form.required_gives hevent (Reader.text_gives _))
    exact hfields.seq (Form.defaulted_gives _ hdata hgives)
  | resume ids =>
    refine ⟨_, rfl, fun rest hn hm => variant_gives hn (Form.Gives.map ?_ _)⟩
    have hids : rest.lookup (some "lastSeenRequestIds") = some (printed (.arr (ids.map Json.str))) :=
      hm _ (by decide)
    have hlist : (Reader.list .text).Gives (printed (.arr (ids.map Json.str))) (ids.map id) :=
      Reader.list_gives fun s _ => Reader.text_gives s
    rw [List.map_id] at hlist
    exact Form.defaulted_gives _ hids hlist
  | resumeResponse results =>
    refine ⟨_, rfl, fun rest hn hm => variant_gives hn (Form.Gives.map ?_ _)⟩
    subst hf
    have hresults : rest.lookup (some "results") =
        some (printed (.arr (results.map Resumed.toJson))) := hm _ (by decide)
    refine Form.required_gives hresults (Reader.list_gives fun r hr => Resumed.gives ?_ ?_)
    · exact fun v hv => h.proper v (List.mem_flatMap.mpr ⟨r, hr, by simp [hv]⟩)
    · have hlist := h.depth_le "results" rfl
      exact (Json.depth_lt_of_mem (List.mem_map.mpr ⟨r, hr, rfl⟩)).le.trans hlist
  | error e =>
    refine ⟨_, rfl, fun rest hn hm => variant_gives hn ?_⟩
    have hcode : rest.lookup (some "code") = some (printed (.str e.code)) := hm _ (by decide)
    have hmessage : rest.lookup (some "message") = some (printed (.str e.message)) := hm _ (by decide)
    exact ((Form.required_gives hcode (Reader.text_gives _)).map _).seq
      (Form.required_gives hmessage (Reader.text_gives _))

theorem WellFormed.parse_eq (h : f.WellFormed) : parse f.text = .ok f.settled := by
  obtain ⟨r, hr, hgives⟩ := h.gives
  have htagged := Reader.tagged_gives .stream "internally tagged enum ControlFrame"
    h.members_proper h.nested f.lookup_kind hr hgives
  rw [parse, text, Json.ofText_print]
  rw [toJson, reader, htagged]
  rfl

theorem returned_outcome (r : Reply) : r.returned.outcome = r.outcome := by
  obtain ⟨id, result, fault⟩ := r
  cases fault with
  | some f => rfl
  | none =>
    cases result with
    | none => rfl
    | some v =>
      by_cases h : v = .null
      · subst h
        rfl
      · have hkeep : (some v).filter (· ≠ .null) = some v := by
          rw [Option.filter_some, if_pos (by simpa using h)]
        simp only [Reply.returned, Reply.outcome, hkeep]

/-- The text of a frame is read as the frame, but for results that are null, which come back as none.
The outcome of a reply is the same before and after. -/
theorem text_is_read_back (h : f.WellFormed) :
    (∃ g, parse f.text = .ok g ∧ g.Same f.returned) ∧
    ∀ r, f = .response r → ∃ r', parse f.text = .ok (.response r') ∧ r'.outcome = r.outcome := by
  refine ⟨⟨f.settled, h.parse_eq, settled_same h.inRange⟩, ?_⟩
  rintro r rfl
  exact ⟨r.returned, h.parse_eq, returned_outcome r⟩

/-- The largest number comes back, and a result that is null does not. -/
theorem recalled_results_are_read_back :
    let answer : Json := .obj [("count", .int 18446744073709551615), ("text", .str "\"\n")]
    let f : Frame := .resumeResponse [⟨"first", .completed, some answer, none⟩,
      ⟨"second", .completed, some .null, none⟩, ⟨"third", .lost, none, none⟩]
    f.WellFormed ∧ f.returned = .resumeResponse [⟨"first", .completed, some answer, none⟩,
      ⟨"second", .completed, none, none⟩, ⟨"third", .lost, none, none⟩] ∧
    ∃ g, parse f.text = .ok g ∧ g.Same f.returned := by
  intro answer f
  have hf : f.WellFormed := by
    refine ⟨?_, by decide +kernel, trivial⟩
    intro v hv
    simp only [f, payloads, List.flatMap_cons, List.flatMap_nil, Option.toList_some,
      Option.toList_none, List.append_nil, List.cons_append, List.nil_append, List.mem_cons,
      List.not_mem_nil, or_false] at hv
    have hcount : Number.Exact 18446744073709551615 := by decide
    rcases hv with rfl | rfl
    · exact ⟨⟨hcount, trivial, trivial⟩, by decide⟩
    · trivial
  exact ⟨hf, by decide, (text_is_read_back hf).1⟩

end Frame

end Fleet
