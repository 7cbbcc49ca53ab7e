import Fleet.Bridge.Line
import Fleet.Proofs.Frame.RoundTrip
import Fleet.Proofs.Json.Lines
import Fleet.Proofs.Text.Lines

/-!
The stream between a session and its bridge process. What is written on lines is read back item by
item, whatever pieces the bytes come in; a type that is not among the known ones is named.
-/

namespace Fleet.Bridge

open Json (Form Reader Document Named depthLimit)
open Json.Document (printed)

/-! ### One line -/

/-- The line of a tagged record is read as its tag says. -/
theorem decode_line {α : Type} {kinds : List String} {title kind : String}
    {choices : List (String × Reader α)} {members : List (String × Json)} {r : Reader α} {a : α}
    (hkinds : kinds = choices.map Prod.fst)
    (hproper : ∀ m ∈ members, m.2.Proper) (hdepth : (Json.object members).depth ≤ depthLimit)
    (hkind : members.reverse.lookup "type" = some (.str kind)) (hr : choices.lookup kind = some r)
    (hgives : ∀ rest, Named rest → Wrote rest members → r.Gives (.record rest) a) :
    decode kinds (.tagged title "type" choices) (Json.print (Json.object members)) = .ok a := by
  have hv := Json.object_proper hproper
  have hknown : kinds.contains kind = true := by
    obtain ⟨before, after, hsplit, _⟩ := List.lookup_eq_some_iff.mp hr
    simp [hkinds, hsplit]
  have hread : (Reader.tagged title "type" choices).ofJson (Json.object members) = .ok a := by
    rw [Reader.ofJson, ← Json.printed_eq_ofJson _ hv]
    exact Reader.tagged_gives .value title hproper hdepth hkind hr hgives
  simp only [decode, Json.ofText?_print hv hdepth, Json.get?_object, hkind, Option.bind_some,
    Json.text?, hknown, if_true, hread]
  rfl

theorem type_iff {v : Json} {kind : String} : (v.get? "type").bind Json.text? = some kind ↔
    ∃ members, v = .obj members ∧ members.lookup "type" = some (.str kind) := by
  cases v with
  | obj members =>
    cases hlookup : members.lookup "type" with
    | none => simp [Json.get?, hlookup]
    | some w => cases w <;> simp [Json.get?, hlookup, Json.text?]
  | _ => simp [Json.get?]

/-- The type is unknown of just the lines that are objects with another type. -/
theorem decode_unknown_iff {α : Type} {kinds : List String} {r : Reader α} {line kind : String} :
    decode kinds r line = .error (.unknownType kind) ↔
      ∃ members, Json.ofText? line = some (.obj members) ∧
        members.lookup "type" = some (.str kind) ∧ kind ∉ kinds := by
  unfold decode
  cases hv : Json.ofText? line with
  | none => simp
  | some v =>
    cases hk : (v.get? "type").bind Json.text? with
    | none =>
      simp only [hk]
      refine iff_of_false (by simp) ?_
      rintro ⟨members, hobj, hlookup, _⟩
      cases hk.symm.trans (type_iff.mpr ⟨members, Option.some.inj hobj, hlookup⟩)
    | some k =>
      obtain ⟨members, rfl, hlookup⟩ := type_iff.mp hk
      simp only [hk]
      by_cases hknown : k ∈ kinds
      · rw [if_pos (List.contains_iff_mem.mpr hknown)]
        refine iff_of_false ?_ ?_
        · cases r.ofJson (.obj members) <;> simp [Except.mapError]
        · rintro ⟨others, hobj, hother, hunknown⟩
          cases hobj
          cases hlookup.symm.trans hother
          exact hunknown hknown
      · rw [if_neg fun h => hknown (List.contains_iff_mem.mp h)]
        constructor
        · intro h
          cases h
          exact ⟨members, rfl, hlookup, hknown⟩
        · rintro ⟨others, hobj, hother, _⟩
          cases hobj
          cases hlookup.symm.trans hother
          rfl

namespace Command

/-- The values of others that a command passes on. -/
def payloads : Command → List Json
  | .start p => [p.agentConfig, p.mcpConfig]
  | .cpResponse _ result _ => result.toList
  | _ => []

/-- A command whose line is read: its payloads are, and nest no deeper than a reader goes. -/
structure WellFormed (c : Command) : Prop where
  proper : ∀ v ∈ c.payloads, v.Proper
  nested : c.toJson.depth ≤ depthLimit

/-- The command as it is read back: a result that is null is none. -/
def returned : Command → Command
  | .cpResponse id result fault => .cpResponse id (result.filter (· ≠ .null)) fault
  | c => c

variable {c : Command}

theorem WellFormed.members_proper (h : c.WellFormed) :
    ∀ m ∈ ("type", Json.str c.kind) :: c.members, m.2.Proper := by
  refine List.forall_mem_cons.mpr ⟨trivial, ?_⟩
  have hpayloads := h.proper
  cases c with
  | start p =>
    have hskills : (Json.arr (p.skills.map Json.str)).Proper := by
      refine Json.properItems_iff.mpr fun v hv => ?_
      obtain ⟨s, _, rfl⟩ := List.mem_map.mp hv
      trivial
    exact List.forall_mem_cons.mpr ⟨trivial, List.forall_mem_cons.mpr ⟨trivial,
      List.forall_mem_cons.mpr ⟨hpayloads _ (by simp [payloads]),
        List.forall_mem_cons.mpr ⟨hpayloads _ (by simp [payloads]),
          List.forall_mem_cons.mpr ⟨hskills, nofun⟩⟩⟩⟩⟩
  | userMessage message => exact List.forall_mem_cons.mpr ⟨trivial, nofun⟩
  | cancel | stop => exact nofun
  | cpResponse id result fault =>
    refine List.forall_mem_cons.mpr ⟨trivial, List.forall_mem_append.mpr ⟨?_, ?_⟩⟩
    · exact member?_proper fun v hv => hpayloads v (by simp [payloads, hv])
    · exact member?_proper fun f _ => f.proper

theorem lookup_kind (c : Command) :
    (("type", Json.str c.kind) :: c.members).reverse.lookup "type" = some (.str c.kind) := by
  cases c with
  | cpResponse id result fault => cases result <;> cases fault <;> rfl
  | _ => rfl

theorem WellFormed.depth_le (h : c.WellFormed) (name : String) {v : Json}
    (hv : (("type", Json.str c.kind) :: c.members).reverse.lookup name = some v) :
    v.depth ≤ depthLimit :=
  (Json.depth_lt_of_lookup hv).le.trans h.nested

theorem runtime_gives (r : Runtime) : Runtime.reader.Gives (printed (.str r.name)) r := by
  cases r with
  | semigraph => exact Reader.choice_gives rfl
  | openclaw => exact Reader.choice_gives rfl

theorem WellFormed.gives (h : c.WellFormed) : ∃ r, choices.lookup c.kind = some r ∧
    ∀ rest, Named rest → Wrote rest (("type", .str c.kind) :: c.members) →
      r.Gives (.record rest) c.returned := by
  cases hc : c with
  | start p =>
    refine ⟨_, rfl, fun rest hn hm => Form.Gives.reader ?_ hn⟩
    subst hc
    have hsession : rest.lookup (some "sessionId") = some (printed (.str p.sessionId)) :=
      hm _ (by decide)
    have hruntime : rest.lookup (some "runtimeType") = some (printed (.str p.runtime.name)) :=
      hm _ (by decide)
    have hagent : rest.lookup (some "agentConfig") = some (printed p.agentConfig) := hm _ (by decide)
    have hmcp : rest.lookup (some "mcpConfig") = some (printed p.mcpConfig) := hm _ (by decide)
    have hskills : rest.lookup (some "skills") = some (printed (.arr (p.skills.map Json.str))) :=
      hm _ (by decide)
    have hlist : (Reader.list .text).Gives (printed (.arr (p.skills.map Json.str)))
        (p.skills.map id) := Reader.list_gives fun s _ => Reader.text_gives s
    rw [List.map_id] at hlist
    have hreadAgent := Reader.any_gives (h.proper p.agentConfig (by simp [payloads]))
      (h.depth_le "agentConfig" rfl)
    have hreadMcp := Reader.any_gives (h.proper p.mcpConfig (by simp [payloads]))
      (h.depth_le "mcpConfig" rfl)
    have hmk := (Form.required_gives hsession (Reader.text_gives _)).map
      fun session runtime agent mcp skills => start ⟨session, runtime, agent, mcp, skills⟩
    have hfields := hmk.seq (Form.defaulted_gives .semigraph hruntime (runtime_gives _))
    exact ((hfields.seq (Form.defaulted_gives .null hagent hreadAgent)).seq
      (Form.defaulted_gives .null hmcp hreadMcp)).seq (Form.defaulted_gives [] hskills hlist)
  | userMessage message =>
    refine ⟨_, rfl, fun rest hn hm => Form.Gives.reader ?_ hn⟩
    have hmessage : rest.lookup (some "message") = some (printed (.str message)) := hm _ (by decide)
    exact (Form.required_gives hmessage (Reader.text_gives _)).map _
  | cancel => exact ⟨_, rfl, fun _ _ _ _ => rfl⟩
  | stop => exact ⟨_, rfl, fun _ _ _ _ => rfl⟩
  | cpResponse id result fault =>
    refine ⟨_, rfl, fun rest hn hm => Form.Gives.reader ?_ hn⟩
    subst hc
    have hid : rest.lookup (some "id") = some (printed (.str id)) := by
      refine (hm _ (by decide)).trans ?_
      cases result <;> cases fault <;> rfl
    have hresult : rest.lookup (some "result") = result.map printed := by
      refine (hm _ (by decide)).trans ?_
      cases result <;> cases fault <;> rfl
    have hfault : rest.lookup (some "error") = fault.map fun f => printed f.toJson := by
      refine (hm _ (by decide)).trans ?_
      cases result <;> cases fault <;> rfl
    have hpayload : ∀ v, result = some v → v.Proper ∧ v.depth ≤ depthLimit := by
      rintro v rfl
      refine ⟨h.proper v (by simp [payloads]), h.depth_le "result" ?_⟩
      cases fault <;> rfl
    exact (((Form.required_gives hid (Reader.text_gives _)).map cpResponse).seq
      (Form.payload_gives hresult hpayload)).seq (Fault.optional_gives hfault)

theorem WellFormed.decode_eq (h : c.WellFormed) : decode (Json.print c.toJson) = .ok c.returned := by
  obtain ⟨r, hr, hgives⟩ := h.gives
  exact decode_line rfl h.members_proper h.nested c.lookup_kind hr hgives

end Command

namespace Message

/-- The values of others that a message passes on. -/
def payloads : Message → List Json
  | .cpRequest _ _ params => [params]
  | .cpFireAndForget _ payload => [payload]
  | .toolStarted _ _ input => [input]
  | .toolFinished _ _ output _ => [output]
  | _ => []

/-- A message whose line is read: its payload is, and nests no deeper than a reader goes. -/
structure WellFormed (m : Message) : Prop where
  proper : ∀ v ∈ m.payloads, v.Proper
  nested : m.toJson.depth ≤ depthLimit

variable {m : Message}

theorem WellFormed.members_proper (h : m.WellFormed) :
    ∀ x ∈ ("type", Json.str m.kind) :: m.members, x.2.Proper := by
  have hpayloads := h.proper
  have hlast {name : String} {v : Json} (hv : v ∈ m.payloads) : ∀ x ∈ [(name, v)], x.2.Proper :=
    List.forall_mem_singleton.mpr (hpayloads v hv)
  refine List.forall_mem_cons.mpr ⟨trivial, ?_⟩
  cases m with
  | cpRequest id method params =>
    exact List.forall_mem_cons.mpr ⟨trivial, List.forall_mem_cons.mpr ⟨trivial,
      hlast List.mem_cons_self⟩⟩
  | cpFireAndForget method payload =>
    exact List.forall_mem_cons.mpr ⟨trivial, hlast List.mem_cons_self⟩
  | reasoning content | assistantMessage content => exact List.forall_mem_singleton.mpr trivial
  | toolStarted id name input =>
    exact List.forall_mem_cons.mpr ⟨trivial, List.forall_mem_cons.mpr ⟨trivial,
      hlast List.mem_cons_self⟩⟩
  | toolFinished id name output isError =>
    exact List.forall_mem_cons.mpr ⟨trivial, List.forall_mem_cons.mpr ⟨trivial,
      List.forall_mem_cons.mpr ⟨hpayloads output List.mem_cons_self,
        List.forall_mem_singleton.mpr trivial⟩⟩⟩
  | done cancelled => exact List.forall_mem_singleton.mpr trivial
  | error f => exact List.forall_mem_cons.mpr ⟨trivial, List.forall_mem_singleton.mpr trivial⟩

theorem lookup_kind (m : Message) :
    (("type", Json.str m.kind) :: m.members).reverse.lookup "type" = some (.str m.kind) := by
  cases m <;> rfl

theorem WellFormed.any_gives (h : m.WellFormed) (name : String) {v : Json} (hv : v ∈ m.payloads)
    (hname : (("type", Json.str m.kind) :: m.members).reverse.lookup name = some v) :
    Reader.any.Gives (printed v) v :=
  Reader.any_gives (h.proper v hv) ((Json.depth_lt_of_lookup hname).le.trans h.nested)

theorem boolean_gives (b : Bool) : Reader.boolean.Gives (printed (.bool b)) b := fun _ => rfl

theorem WellFormed.gives (h : m.WellFormed) : ∃ r, choices.lookup m.kind = some r ∧
    ∀ rest, Named rest → Wrote rest (("type", .str m.kind) :: m.members) →
      r.Gives (.record rest) m := by
  cases hm : m with
  | cpRequest id method params =>
    refine ⟨_, rfl, fun rest hn hw => Form.Gives.reader ?_ hn⟩
    subst hm
    have hid : rest.lookup (some "id") = some (printed (.str id)) := hw _ (by decide)
    have hmethod : rest.lookup (some "method") = some (printed (.str method)) := hw _ (by decide)
    have hparams : rest.lookup (some "params") = some (printed params) := hw _ (by decide)
    have hmk := (Form.required_gives hid (Reader.text_gives _)).map cpRequest
    exact (hmk.seq (Form.required_gives hmethod (Reader.text_gives _))).seq
      (Form.defaulted_gives .null hparams (h.any_gives "params" List.mem_cons_self rfl))
  | cpFireAndForget method payload =>
    refine ⟨_, rfl, fun rest hn hw => Form.Gives.reader ?_ hn⟩
    subst hm
    have hmethod : rest.lookup (some "method") = some (printed (.str method)) := hw _ (by decide)
    have hpayload : rest.lookup (some "payload") = some (printed payload) := hw _ (by decide)
    exact ((Form.required_gives hmethod (Reader.text_gives _)).map cpFireAndForget).seq
      (Form.defaulted_gives .null hpayload (h.any_gives "payload" List.mem_cons_self rfl))
  | reasoning content =>
    refine ⟨_, rfl, fun rest hn hw => Form.Gives.reader ?_ hn⟩
    have hcontent : rest.lookup (some "content") = some (printed (.str content)) := hw _ (by decide)
    exact (Form.required_gives hcontent (Reader.text_gives _)).map reasoning
  | assistantMessage content =>
    refine ⟨_, rfl, fun rest hn hw => Form.Gives.reader ?_ hn⟩
    have hcontent : rest.lookup (some "content") = some (printed (.str content)) := hw _ (by decide)
    exact (Form.required_gives hcontent (Reader.text_gives _)).map assistantMessage
  | toolStarted id name input =>
    refine ⟨_, rfl, fun rest hn hw => Form.Gives.reader ?_ hn⟩
    subst hm
    have hid : rest.lookup (some "toolCallId") = some (printed (.str id)) := hw _ (by decide)
    have hname : rest.lookup (some "name") = some (printed (.str name)) := hw _ (by decide)
    have hinput : rest.lookup (some "input") = some (printed input) := hw _ (by decide)
    have hmk := (Form.required_gives hid (Reader.text_gives _)).map toolStarted
    exact (hmk.seq (Form.required_gives hname (Reader.text_gives _))).seq
      (Form.defaulted_gives .null hinput (h.any_gives "input" List.mem_cons_self rfl))
  | toolFinished id name output isError =>
    refine ⟨_, rfl, fun rest hn hw => Form.Gives.reader ?_ hn⟩
    subst hm
    have hid : rest.lookup (some "toolCallId") = some (printed (.str id)) := hw _ (by decide)
    have hname : rest.lookup (some "name") = some (printed (.str name)) := hw _ (by decide)
    have houtput : rest.lookup (some "output") = some (printed output) := hw _ (by decide)
    have hfailed : rest.lookup (some "isError") = some (printed (.bool isError)) := hw _ (by decide)
    have hmk := (Form.required_gives hid (Reader.text_gives _)).map toolFinished
    have hfields := hmk.seq (Form.required_gives hname (Reader.text_gives _))
    exact (hfields.seq (Form.defaulted_gives .null houtput
      (h.any_gives "output" List.mem_cons_self rfl))).seq
      (Form.defaulted_gives false hfailed (boolean_gives _))
  | done cancelled =>
    refine ⟨_, rfl, fun rest hn hw => Form.Gives.reader ?_ hn⟩
    have hcancelled : rest.lookup (some "cancelled") = some (printed (.bool cancelled)) :=
      hw _ (by decide)
    exact (Form.defaulted_gives false hcancelled (boolean_gives _)).map done
  | error f =>
    refine ⟨_, rfl, fun rest hn hw => Form.Gives.reader ?_ hn⟩
    have hcode : rest.lookup (some "code") = some (printed (.str f.code)) := hw _ (by decide)
    have hmessage : rest.lookup (some "message") = some (printed (.str f.message)) :=
      hw _ (by decide)
    exact ((Form.required_gives hcode (Reader.text_gives _)).map
      fun code message => error ⟨code, message⟩).seq
      (Form.required_gives hmessage (Reader.text_gives _))

theorem WellFormed.decode_eq (h : m.WellFormed) : decode (Json.print m.toJson) = .ok m := by
  obtain ⟨r, hr, hgives⟩ := h.gives
  exact decode_line rfl h.members_proper h.nested m.lookup_kind hr hgives

end Message

/-! ### Streams -/

/-- The texts of the lines that bytes bring in pieces, and what is left after the last newline. -/
def received (pieces : List (List UInt8)) : List (Option String) × Text.LineReader :=
  let (lines, left) := Text.LineReader.feedAll {} pieces
  (lines.map Text.decode?, left)

/-- Of items that are written on lines, there is one line for each, and each line is decoded as what
the item is given back as. -/
def ReadBack {α : Type} (items : List α) (line : α → String)
    (decode : String → Except LineError α) (returned : α → α) : Prop :=
  ∀ pieces, pieces.flatten = Text.encode (String.join (items.map line)) →
    ∃ lines : List String, lines.length = items.length ∧ received pieces = (lines.map some, {}) ∧
      lines.map decode = items.map fun a => .ok (returned a)

/-- Lines that are objects of no known type are told apart by that type. -/
def NamesUnknown {α : Type} (kinds : List String) (decode : String → Except LineError α) : Prop :=
  ∀ line kind, decode line = .error (.unknownType kind) ↔
    ∃ members, Json.ofText? line = some (.obj members) ∧
      members.lookup "type" = some (.str kind) ∧ kind ∉ kinds

/-- What is read back one by one on lines is read back as a stream. -/
theorem readBack_of_lines {α : Type} {items : List α} {value : α → Json}
    {decode : String → Except LineError α} {returned : α → α}
    (hproper : ∀ a ∈ items, (value a).Proper)
    (hdecode : ∀ a ∈ items, decode (Json.print (value a)) = .ok (returned a)) :
    ReadBack items (fun a => Json.print (value a) ++ "\n") decode returned := by
  intro pieces hpieces
  let lines := items.map fun a => Json.print (value a)
  have hclear : ∀ l ∈ lines.map Text.encode, (10 : UInt8) ∉ l ∧ l.getLast? ≠ some 13 := by
    intro l hl
    obtain ⟨line, hline, rfl⟩ := List.mem_map.mp hl
    obtain ⟨a, ha, rfl⟩ := List.mem_map.mp hline
    have hcontrol (b : UInt8) (hb : b.toNat < 32) : b ∉ Text.encode (Json.print (value a)) := by
      intro hmem
      obtain ⟨c, hc, hcode⟩ := Text.exists_of_low_mem_encode (by omega) hmem
      have hprinted : 32 ≤ c.toNat :=
        Json.clear_chars (value a) (hproper a ha) c (by simpa [Json.print] using hc)
      omega
    exact ⟨hcontrol 10 (by decide), fun h => hcontrol 13 (by decide) (List.mem_of_getLast? h)⟩
  have hbytes : pieces.flatten = (lines.map Text.encode).flatMap fun l => l ++ [10] := by
    rw [hpieces, Text.encode_join, List.flatMap_map, List.flatMap_map, List.flatMap_map]
    exact List.flatMap_congr fun a _ => (Text.encode_append _ _).trans (by rw [Text.encode_newline])
  refine ⟨lines, List.length_map .., ?_, ?_⟩
  · simp only [received, Text.LineReader.feedAll_eq, hbytes, Text.LineReader.feed_lines hclear,
      List.map_map, Function.comp_def, Text.decode?_encode]
  · rw [List.map_map]
    exact List.map_congr_left hdecode

/-- Commands and messages that are read go through their streams one by one, in order, but for
results that are null, which come back as none; and lines of no known type are named. -/
theorem streams_are_read_back :
    (∀ cs : List Command, (∀ c ∈ cs, c.WellFormed) →
      ReadBack cs Command.line Command.decode Command.returned) ∧
    (∀ ms : List Message, (∀ m ∈ ms, m.WellFormed) → ReadBack ms Message.line Message.decode id) ∧
    NamesUnknown Command.kinds Command.decode ∧ NamesUnknown Message.kinds Message.decode := by
  refine ⟨fun cs h => ?_, fun ms h => ?_, fun _ _ => decode_unknown_iff,
    fun _ _ => decode_unknown_iff⟩
  · exact readBack_of_lines (fun c hc => Json.object_proper (h c hc).members_proper)
      fun c hc => (h c hc).decode_eq
  · exact readBack_of_lines (fun m hm => Json.object_proper (h m hm).members_proper)
      fun m hm => (h m hm).decode_eq

/-- Texts with line ends and control characters go through, a null result does not, and a type that
no message has is named. -/
theorem streams_with_line_ends_are_read_back :
    let cs : List Command := [.userMessage "one\ntwo \"three\"\r\x00", .cancel,
      .cpResponse "a\nb" (some (.obj [("count", .int 18446744073709551615)])) none,
      .cpResponse "c" (some .null) (some ⟨"CODE", "\n"⟩)]
    let ms : List Message := [.toolFinished "t" "\n" (.arr [.int (-9223372036854775808), .null]) true,
      .done false]
    (∀ c ∈ cs, c.WellFormed) ∧ (∀ m ∈ ms, m.WellFormed) ∧
    cs.map Command.returned = cs.dropLast ++ [.cpResponse "c" none (some ⟨"CODE", "\n"⟩)] ∧
    ReadBack cs Command.line Command.decode Command.returned ∧
    ReadBack ms Message.line Message.decode id ∧
    Command.decode "\x7b\"type\":\"teleport\"\x7d" = .error (.unknownType "teleport") ∧
    Message.decode "\x7b\"type\":\"start\"\x7d" = .error (.unknownType "start") := by
  intro cs ms
  have hcs : ∀ c ∈ cs, c.WellFormed := by
    simp only [cs, List.forall_mem_cons]
    refine ⟨⟨nofun, by decide +kernel⟩, ⟨nofun, by decide +kernel⟩,
      ⟨List.forall_mem_singleton.mpr ?_, by decide +kernel⟩,
      ⟨List.forall_mem_singleton.mpr trivial, by decide +kernel⟩, nofun⟩
    exact ⟨⟨(by decide : Number.Exact 18446744073709551615), trivial⟩, by decide⟩
  have hms : ∀ m ∈ ms, m.WellFormed := by
    simp only [ms, List.forall_mem_cons]
    refine ⟨⟨List.forall_mem_singleton.mpr ?_, by decide +kernel⟩, ⟨nofun, by decide +kernel⟩, nofun⟩
    exact ⟨(by decide : Number.Exact (-9223372036854775808)), trivial, trivial⟩
  obtain ⟨hcommands, hmessages, hcommand, hmessage⟩ := streams_are_read_back
  exact ⟨hcs, hms, by decide, hcommands cs hcs, hmessages ms hms,
    (hcommand _ _).mpr ⟨[("type", .str "teleport")], by decide +kernel, rfl, by decide⟩,
    (hmessage _ _).mpr ⟨[("type", .str "start")], by decide +kernel, rfl, by decide⟩⟩

end Fleet.Bridge
