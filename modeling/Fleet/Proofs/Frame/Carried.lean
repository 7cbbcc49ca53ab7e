import Fleet.Frame.Text
import Fleet.Proofs.Json.Records

/-!
What the far end reads of a frame's text. Ids, names and texts come as they were written, and a
payload comes as what its own text is read as.
-/

namespace Fleet

open Json (Form Reader Document depthLimit readsAs_iff)
open Json.Document (printed)

/-- What is said of a call that was open, as the response that it stands for. -/
def Resumed.reply (r : Resumed) : Reply := ⟨r.requestId, r.result, r.fault⟩

/-- What a call that was open is written with. -/
def Resumed.members (r : Resumed) : List (String × Json) :=
  [("requestId", .str r.requestId), ("status", .str r.status.name)]
    ++ member? "result" (fun v => v) r.result ++ member? "error" Fault.toJson r.fault

theorem Resumed.toJson_eq (r : Resumed) : r.toJson = Json.object r.members := rfl

/-- An outcome as its text is read. -/
def Reply.SameOutcome : Except Error Json → Except Error Json → Prop
  | .ok v, .ok w => v.ReadsAs w
  | .error e, .error e' => e = e'
  | _, _ => False

/-- What is read of a reply. A result that is null is read as none. -/
structure Reply.Carries (r r' : Reply) : Prop where
  id : r'.id = r.id
  outcome : SameOutcome r.outcome r'.outcome

structure Call.Carries (c c' : Call) : Prop where
  id : c'.id = c.id
  method : c'.method = c.method
  params : c.params.ReadsAs c'.params

structure Resumed.Carries (r r' : Resumed) : Prop where
  status : r'.status = r.status
  reply : r.reply.Carries r'.reply

/-- What is read of a frame. Nothing is said of what other frames bear. -/
def Frame.Carries : Frame → Frame → Prop
  | .auth c, .auth c' => c' = c
  | .request c, .request c' => c.Carries c'
  | .response r, .response r' => r.Carries r'
  | .resumeResponse rs, .resumeResponse rs' => List.Forall₂ Resumed.Carries rs rs'
  | f, g => f.kind = g.kind

/-! ### Texts and payloads -/

variable {ctx : Json.Context} {room : Nat} {found : List (String × Document)}

theorem text_ok {s t : String} (h : Reader.text ctx (.text (some s)) = .ok t) : t = s := by
  cases h
  rfl

theorem text_found {name s t : String} (hn : found.lookup name = some (.text (some s)))
    (h : (Form.required name Reader.text).build ctx found = .ok t) : t = s := by
  obtain ⟨d, hd, ht⟩ := Form.required_ok h
  obtain rfl := Option.some.inj (hn.symm.trans hd)
  exact text_ok ht

/-- A payload that may be missing counts as null where it is. -/
theorem payload_found {name : String} {x y : Option Json} (hn : found.lookup name = x.map printed)
    (h : (Form.optional name Reader.any).build ⟨.aside, room⟩ found = .ok y) :
    (x.getD .null).ReadsAs (y.getD .null) := by
  rw [readsAs_iff]
  rcases Form.defaulted_ok h with ⟨d, hd, hy⟩ | ⟨hnone, rfl⟩
  · obtain ⟨v, rfl, rfl⟩ := Option.map_eq_some_iff.mp (hn.symm.trans hd)
    exact Reader.optional_aside hy
  · obtain rfl := Option.map_eq_none_iff.mp (hn.symm.trans hnone)
    rfl

/-- What may be missing is read as it was, if whatever is there is. -/
theorem optional_found {α : Type} {name : String} {r : Reader α} {write : α → Json} {x y : Option α}
    (hr : ∀ a b, r ctx (printed (write a)) = .ok b → b = a)
    (hnull : ∀ a, printed (write a) ≠ .null)
    (hn : found.lookup name = x.map fun a => printed (write a))
    (h : (Form.optional name r).build ctx found = .ok y) : y = x := by
  rcases Form.defaulted_ok h with ⟨d, hd, hy⟩ | ⟨hnone, rfl⟩
  · obtain ⟨a, rfl, rfl⟩ := Option.map_eq_some_iff.mp (hn.symm.trans hd)
    unfold Reader.optional at hy
    split at hy
    · exact absurd ‹_› (hnull a)
    · obtain ⟨b, hb, rfl⟩ := Json.map_ok hy
      rw [hr a b hb]
  · exact (Option.map_eq_none_iff.mp (hn.symm.trans hnone)).symm

/-! ### Parts of frames -/

variable {members : List (Option String × Document)} {ms : List (String × Json)}

namespace Fault

theorem carried {f f' : Fault} (h : reader ctx (printed f.toJson) = .ok f') : f' = f := by
  obtain ⟨members, hd, hlookup⟩ := Json.shows_object [("code", .str f.code), ("message", .str f.message)]
  rw [toJson, hd] at h
  obtain ⟨room, found, hbuild, hfound⟩ := Form.reader_record h rfl
  obtain ⟨g, message, hg, hmessage, rfl⟩ := Form.seq_ok hbuild
  obtain ⟨code, hcode, rfl⟩ := Form.map_ok hg
  have hc : found.lookup "code" = some (.text (some f.code)) :=
    (hfound "code" rfl).trans ((hlookup "code").trans rfl)
  have hm : found.lookup "message" = some (.text (some f.message)) :=
    (hfound "message" rfl).trans ((hlookup "message").trans rfl)
  rw [text_found hc hcode, text_found hm hmessage]

end Fault

/-- The members under the names that a part of a frame has are what it was written as. -/
def Wrote (members : List (Option String × Document)) (ms : List (String × Json)) : Prop :=
  ∀ n, n ≠ "type" → members.lookup (some n) = (ms.reverse.lookup n).map printed

/-- A text that may be missing counts as none at all where it is. -/
theorem defaulted_found {name s t : String} (hn : found.lookup name = some (.text (some s)))
    (h : (Form.defaulted name Reader.text "").build ctx found = .ok t) : t = s := by
  rcases Form.defaulted_ok h with ⟨d, hd, ht⟩ | ⟨hnone, _⟩
  · obtain rfl := Option.some.inj (hn.symm.trans hd)
    exact text_ok ht
  · cases hn.symm.trans hnone

theorem Credentials.written {c : Credentials} {k : Json}
    (hm : Wrote members (("type", k) :: c.members)) :
    members.lookup (some "userId") = some (printed (.str c.userId)) ∧
    members.lookup (some "orgId") = some (printed (.str c.orgId)) ∧
    members.lookup (some "connectTicket") = some (printed (.str c.connectTicket)) ∧
    members.lookup (some "token") = c.token.map fun t => printed (.str t) := by
  obtain ⟨user, org, ticket, token⟩ := c
  refine ⟨(hm _ (by decide)).trans ?_, (hm _ (by decide)).trans ?_, (hm _ (by decide)).trans ?_,
    (hm _ (by decide)).trans ?_⟩
  all_goals cases token <;> rfl

theorem Credentials.carried {c c' : Credentials} {k : Json}
    (hm : Wrote members (("type", k) :: c.members))
    (h : reader ctx (.record members) = .ok c') : c' = c := by
  obtain ⟨huser', horg', hticket', htoken'⟩ := written hm
  obtain ⟨room, found, hbuild, hfound⟩ := Form.reader_record h rfl
  obtain ⟨f₁, token, hf₁, htoken, rfl⟩ := Form.seq_ok hbuild
  obtain ⟨f₂, ticket, hf₂, hticket, rfl⟩ := Form.seq_ok hf₁
  obtain ⟨f₃, org, hf₃, horg, rfl⟩ := Form.seq_ok hf₂
  obtain ⟨user, huser, rfl⟩ := Form.map_ok hf₃
  have htext (a b : String)
      (h : Reader.text ⟨ctx.source, room⟩ (printed (.str a)) = .ok b) : b = a := text_ok h
  have hnull (a : String) : printed (.str a) ≠ .null := nofun
  rw [defaulted_found ((hfound "userId" rfl).trans huser') huser,
    defaulted_found ((hfound "orgId" rfl).trans horg') horg,
    defaulted_found ((hfound "connectTicket" rfl).trans hticket') hticket,
    optional_found htext hnull ((hfound "token" rfl).trans htoken') htoken]

theorem Call.written {c : Call} {k : Json} (hm : Wrote members (("type", k) :: c.members)) :
    members.lookup (some "id") = some (printed (.str c.id)) ∧
    members.lookup (some "method") = some (printed (.str c.method)) ∧
    members.lookup (some "params") = some (printed c.params) :=
  ⟨hm _ (by decide), hm _ (by decide), hm _ (by decide)⟩

theorem Call.carried {c c' : Call} {k : Json} (hm : Wrote members (("type", k) :: c.members))
    (h : reader ⟨.aside, room⟩ (.record members) = .ok c') : c.Carries c' := by
  obtain ⟨hid', hmethod', hparams'⟩ := written hm
  obtain ⟨room, found, hbuild, hfound⟩ := Form.reader_record h rfl
  obtain ⟨f₁, params, hf₁, hparams, rfl⟩ := Form.seq_ok hbuild
  obtain ⟨f₂, method, hf₂, hmethod, rfl⟩ := Form.seq_ok hf₁
  obtain ⟨id, hid, rfl⟩ := Form.map_ok hf₂
  refine ⟨text_found ((hfound "id" rfl).trans hid') hid,
    text_found ((hfound "method" rfl).trans hmethod') hmethod, ?_⟩
  rcases Form.defaulted_ok hparams with ⟨d, hd, hp⟩ | ⟨hnone, _⟩
  · obtain rfl := Option.some.inj (((hfound "params" rfl).trans hparams').symm.trans hd)
    exact readsAs_iff.mpr (Reader.whole_aside hp)
  · cases ((hfound "params" rfl).trans hparams').symm.trans hnone

theorem Reply.Carries.of_parts {r r' : Reply} (hid : r'.id = r.id) (hfault : r'.fault = r.fault)
    (hresult : (r.result.getD .null).ReadsAs (r'.result.getD .null)) : r.Carries r' := by
  refine ⟨hid, ?_⟩
  unfold Reply.outcome
  rw [hfault]
  cases r.fault with
  | none => exact hresult
  | some f => rfl

theorem Fault.printed_ne_null (f : Fault) : printed f.toJson ≠ .null := nofun

theorem Reply.written {r : Reply} {k : Json} (hm : Wrote members (("type", k) :: r.members)) :
    members.lookup (some "id") = some (printed (.str r.id)) ∧
    members.lookup (some "result") = r.result.map printed ∧
    members.lookup (some "error") = r.fault.map fun f => printed f.toJson := by
  obtain ⟨id, result, fault⟩ := r
  refine ⟨(hm _ (by decide)).trans ?_, (hm _ (by decide)).trans ?_, (hm _ (by decide)).trans ?_⟩
  all_goals cases result <;> cases fault <;> rfl

theorem Reply.carried {r r' : Reply} {k : Json} (hm : Wrote members (("type", k) :: r.members))
    (h : reader ⟨.aside, room⟩ (.record members) = .ok r') : r.Carries r' := by
  obtain ⟨hid', hresult', hfault'⟩ := written hm
  obtain ⟨room, found, hbuild, hfound⟩ := Form.reader_record h rfl
  obtain ⟨f₁, fault, hf₁, hfault, rfl⟩ := Form.seq_ok hbuild
  obtain ⟨f₂, result, hf₂, hresult, rfl⟩ := Form.seq_ok hf₁
  obtain ⟨id, hid, rfl⟩ := Form.map_ok hf₂
  exact .of_parts (text_found ((hfound "id" rfl).trans hid') hid)
    (optional_found (fun _ _ => Fault.carried) Fault.printed_ne_null
      ((hfound "error" rfl).trans hfault') hfault)
    (payload_found ((hfound "result" rfl).trans hresult') hresult)

theorem Resumed.written {r : Resumed}
    (hm : ∀ n, members.lookup (some n) = (r.members.reverse.lookup n).map printed) :
    members.lookup (some "requestId") = some (printed (.str r.requestId)) ∧
    members.lookup (some "status") = some (printed (.str r.status.name)) ∧
    members.lookup (some "result") = r.result.map printed ∧
    members.lookup (some "error") = r.fault.map fun f => printed f.toJson := by
  obtain ⟨id, status, result, fault⟩ := r
  refine ⟨(hm _).trans ?_, (hm _).trans ?_, (hm _).trans ?_, (hm _).trans ?_⟩
  all_goals cases result <;> cases fault <;> rfl

theorem Resumed.carried {r r' : Resumed} (h : reader ⟨.aside, room⟩ (printed r.toJson) = .ok r') :
    r.Carries r' := by
  obtain ⟨members, hd, hlookup⟩ := Json.shows_object r.members
  obtain ⟨hid', hstatus', hresult', hfault'⟩ := written hlookup
  rw [toJson_eq, hd] at h
  obtain ⟨room, found, hbuild, hfound⟩ := Form.reader_record h rfl
  obtain ⟨f₁, fault, hf₁, hfault, rfl⟩ := Form.seq_ok hbuild
  obtain ⟨f₂, result, hf₂, hresult, rfl⟩ := Form.seq_ok hf₁
  obtain ⟨f₃, status, hf₃, hstatus, rfl⟩ := Form.seq_ok hf₂
  obtain ⟨id, hid, rfl⟩ := Form.map_ok hf₃
  refine ⟨?_, .of_parts (text_found ((hfound "requestId" rfl).trans hid') hid)
    (optional_found (fun _ _ => Fault.carried) Fault.printed_ne_null
      ((hfound "error" rfl).trans hfault') hfault)
    (payload_found ((hfound "result" rfl).trans hresult') hresult)⟩
  obtain ⟨d, hd', hs⟩ := Form.required_ok hstatus
  obtain rfl := Option.some.inj (((hfound "status" rfl).trans hstatus').symm.trans hd')
  cases hr : r.status with
  | completed =>
    rw [hr] at hs
    cases hs
    rfl
  | lost =>
    rw [hr] at hs
    cases hs
    rfl

/-! ### Frames -/

namespace Frame

theorem Carries.kind {f g : Frame} (h : f.Carries g) : g.kind = f.kind := by
  unfold Carries at h
  split at h
  · rfl
  · rfl
  · rfl
  · rfl
  · exact h.symm

theorem lookup_kind (f : Frame) :
    (("type", Json.str f.kind) :: f.members).reverse.lookup "type" = some (.str f.kind) := by
  cases f with
  | auth c =>
    obtain ⟨user, org, ticket, token⟩ := c
    cases token <;> rfl
  | heartbeat ts => cases ts <;> rfl
  | response r =>
    obtain ⟨id, result, fault⟩ := r
    cases result <;> cases fault <;> rfl
  | _ => rfl

/-- A frame that is read with a form is one that the form makes. -/
theorem variant_ok {name : String} {form : Form Frame} {g : Frame}
    (h : variant name form ctx (.record members) = .ok g)
    (hs : (form.slots.all fun s => s.others.isEmpty) = true) :
    ∃ ctx found, form.build ctx found = .ok g := by
  obtain ⟨room, found, hbuild, _⟩ := Form.reader_record h hs
  exact ⟨_, found, hbuild⟩

/-- What is read of a frame's text is what the frame carries. -/
theorem carried {f g : Frame} (h : parse f.text = .ok g) : f.Carries g := by
  obtain ⟨x, hx, rfl⟩ : ∃ x, reader.ofText f.text = .ok x ∧ x = g := by
    unfold parse at h
    cases hr : reader.ofText f.text with
    | error e =>
      rw [hr] at h
      cases h
    | ok x =>
      rw [hr] at h
      cases h
      exact ⟨_, rfl, rfl⟩
  rw [text, Json.ofText_print] at hx
  obtain ⟨r, room, rest, hr, hx, hrest⟩ := Reader.tagged_ok f.lookup_kind hx
  cases f with
  | auth c =>
    cases hr
    obtain ⟨c', hc, rfl⟩ := Json.map_ok hx
    exact Credentials.carried hrest hc
  | init w =>
    cases hr
    obtain ⟨w', _, rfl⟩ := Json.map_ok hx
    rfl
  | heartbeat ts =>
    cases hr
    obtain ⟨_, _, hb⟩ := variant_ok hx rfl
    obtain ⟨_, _, rfl⟩ := Form.map_ok hb
    rfl
  | request c =>
    cases hr
    obtain ⟨c', hc, rfl⟩ := Json.map_ok hx
    exact Call.carried hrest hc
  | response r =>
    cases hr
    obtain ⟨r', hr', rfl⟩ := Json.map_ok hx
    exact Reply.carried hrest hr'
  | fireAndForget method payload =>
    cases hr
    obtain ⟨_, _, hb⟩ := variant_ok hx rfl
    obtain ⟨_, _, hb₁, _, rfl⟩ := Form.seq_ok hb
    obtain ⟨_, _, rfl⟩ := Form.map_ok hb₁
    rfl
  | sessionEvent session event data =>
    cases hr
    obtain ⟨_, _, hb⟩ := variant_ok hx rfl
    obtain ⟨_, _, hb₁, _, rfl⟩ := Form.seq_ok hb
    obtain ⟨_, _, hb₂, _, rfl⟩ := Form.seq_ok hb₁
    obtain ⟨_, _, rfl⟩ := Form.map_ok hb₂
    rfl
  | resume ids =>
    cases hr
    obtain ⟨_, _, hb⟩ := variant_ok hx rfl
    obtain ⟨_, _, rfl⟩ := Form.map_ok hb
    rfl
  | resumeResponse results =>
    cases hr
    obtain ⟨room, found, hbuild, hfound⟩ := Form.reader_record hx rfl
    obtain ⟨results', hresults, rfl⟩ := Form.map_ok hbuild
    obtain ⟨d, hd, hlist⟩ := Form.required_ok hresults
    have hd' : found.lookup "results" = some (printed (.arr (results.map Resumed.toJson))) :=
      (hfound "results" rfl).trans ((hrest "results" (by decide)).trans rfl)
    obtain rfl := Option.some.inj (hd'.symm.trans hd)
    exact Reader.list_ok (fun _ _ _ => Resumed.carried) hlist
  | error e =>
    cases hr
    obtain ⟨_, _, hb⟩ := variant_ok hx rfl
    obtain ⟨_, _, hb₁, _, rfl⟩ := Form.seq_ok hb
    obtain ⟨_, _, rfl⟩ := Form.map_ok hb₁
    rfl

end Frame

end Fleet
