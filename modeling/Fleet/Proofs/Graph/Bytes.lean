import Fleet.Graph.Checkpoint
import Fleet.Proofs.Json.Reading
import Fleet.Proofs.Text.Utf8
import Fleet.Proofs.Time.Reading

/-!
Checkpoints as bytes. The bytes of a checkpoint are read as the checkpoint, whatever texts it holds; and what is
read from any bytes counts its steps in 64 bits.
-/

namespace Fleet

open Json (Context Document Form Reader depthLimit)
open Json.Document (printed)

variable {ctx inner : Context} {d : Document} {room : Nat}

/-! ### What is written is read -/

theorem Json.enter_stream (h : 0 < room) : Context.enter ⟨.stream, room⟩ = .ok ⟨.stream, room - 1⟩ := by
  unfold Context.enter
  rw [if_neg (fun hno => Nat.ne_of_gt h hno.2)]

theorem ChatMessage.read (m : ChatMessage) (hroom : ctx.enter = .ok inner) :
    reader ctx (printed m.toJson) = .ok m := by
  refine Form.reader_object hroom rfl fun members hlookup => ?_
  have hrole : members.lookup (some "role") = some (printed (.str m.role)) := hlookup "role"
  have hcontent : members.lookup (some "content") = some (printed (.str m.content)) := hlookup "content"
  exact ((Form.required_givesIn hrole (Reader.text_in _ _)).map ChatMessage.mk).seq
    (Form.required_givesIn hcontent (Reader.text_in _ _))

theorem Instant.read (ctx : Context) {t : Instant} (h : t.Stamped) : reader ctx (printed t.toJson) = .ok t := by
  simp only [toJson, printed, reader, ofText_text h]
  rfl

namespace Graph

/-- Messages nest two deep in a list of them. -/
theorem State.read {s : State} (hs : s.step < bitBound 64) (hroom : 3 ≤ room) :
    reader ⟨.stream, room⟩ (printed s.toJson) = .ok s := by
  have henter := Json.enter_stream (show 0 < room by omega)
  have hlist := Json.enter_stream (show 0 < room - 1 by omega)
  have hitem := Json.enter_stream (show 0 < room - 1 - 1 by omega)
  have hmessages : (Reader.list ChatMessage.reader) ⟨.stream, room - 1⟩
      (printed (.arr (s.messages.map ChatMessage.toJson))) = .ok (s.messages.map id) :=
    Reader.list_in hlist fun m _ => m.read hitem
  have hmemory : (Reader.list .text) ⟨.stream, room - 1⟩ (printed (.arr (s.memory.map Json.str))) =
      .ok (s.memory.map id) :=
    Reader.list_in hlist fun t _ => Reader.text_in _ t
  rw [List.map_id] at hmessages hmemory
  refine Form.reader_object henter rfl fun members hlookup => ?_
  have hfirst : members.lookup (some "messages") = some (printed (.arr (s.messages.map ChatMessage.toJson))) :=
    hlookup "messages"
  have hstep : members.lookup (some "step") = some (printed (.nat s.step)) := hlookup "step"
  have hlast : members.lookup (some "memory") = some (printed (.arr (s.memory.map Json.str))) := hlookup "memory"
  exact (((Form.required_givesIn hfirst hmessages).map State.mk).seq
    (Form.defaulted_givesIn 0 hstep (Reader.nat64_in _ hs))).seq (Form.defaulted_givesIn [] hlast hmemory)

namespace Checkpoint

variable {c : Checkpoint} {bytes : List UInt8}

/-- Numbers have 64 bits, and the time is one that can be written. -/
structure WellFormed (c : Checkpoint) : Prop where
  index : c.index < bitBound 64
  step : c.state.step < bitBound 64
  createdAt : c.createdAt.Stamped

theorem WellFormed.read (h : c.WellFormed) : reader ⟨.stream, depthLimit⟩ (printed c.toJson) = .ok c := by
  have henter : Context.enter ⟨.stream, depthLimit⟩ = .ok ⟨.stream, depthLimit - 1⟩ :=
    Json.enter_stream (by decide)
  have hstatus : RunStatus.reader ⟨.stream, depthLimit - 1⟩ (printed (.str c.status.name)) = .ok c.status := by
    cases c.status <;> exact Reader.choice_in _ rfl
  refine Form.reader_object henter ?_ fun members hlookup => ?_
  · cases c.error <;> rfl
  · have hsession : members.lookup (some "sessionId") = some (printed (.str c.sessionId)) :=
      (hlookup _).trans (by cases c.error <;> rfl)
    have hindex : members.lookup (some "index") = some (printed (.nat c.index)) :=
      (hlookup _).trans (by cases c.error <;> rfl)
    have hname : members.lookup (some "status") = some (printed (.str c.status.name)) :=
      (hlookup _).trans (by cases c.error <;> rfl)
    have hstate : members.lookup (some "state") = some (printed c.state.toJson) :=
      (hlookup _).trans (by cases c.error <;> rfl)
    have herror : members.lookup (some "error") = c.error.map fun e => printed (.str e) :=
      (hlookup _).trans (by cases c.error <;> rfl)
    have hcreated : members.lookup (some "createdAt") = some (printed c.createdAt.toJson) :=
      (hlookup _).trans (by cases c.error <;> rfl)
    have hstart := ((Form.required_givesIn hsession (Reader.text_in ⟨.stream, depthLimit - 1⟩ _)).map
      Checkpoint.mk).seq (Form.required_givesIn hindex (Reader.nat64_in _ h.index))
    have hmiddle := (hstart.seq (Form.required_givesIn hname hstatus)).seq
      (Form.required_givesIn hstate (State.read h.step (by decide)))
    exact (hmiddle.seq (Form.optional_givesIn herror fun e _ => ⟨Reader.text_in _ e, nofun⟩)).seq
      (Form.required_givesIn hcreated (Instant.read _ h.createdAt))

/-- The bytes of a checkpoint are read as the checkpoint. -/
theorem WellFormed.ofBytes_bytes (h : c.WellFormed) : reader.ofBytes c.bytes = .ok c := by
  have htext : reader.ofBytes c.bytes = reader.ofText (Json.print c.toJson) := by
    rw [Reader.ofBytes, bytes, Text.characters_encode]
    rfl
  rw [htext, Json.ofText_print, h.read]

end Checkpoint

/-! ### What is read counts in 64 bits -/

theorem State.step_lt {s : State} (h : reader ctx d = .ok s) : s.step < bitBound 64 := by
  obtain ⟨inner, found, hbuild⟩ := Form.reader_ok h
  obtain ⟨f, memory, hf, -, rfl⟩ := Form.seq_ok hbuild
  obtain ⟨g, step, hg, hstep, rfl⟩ := Form.seq_ok hf
  obtain ⟨messages, -, rfl⟩ := Form.map_ok hg
  rcases Form.defaulted_ok hstep with ⟨e, -, he⟩ | ⟨-, rfl⟩
  · exact Reader.nat64_lt he
  · exact Nat.pos_of_ne_zero (by simp)

theorem Checkpoint.step_lt {c : Checkpoint} {bytes : List UInt8} (h : reader.ofBytes bytes = .ok c) :
    c.state.step < bitBound 64 := by
  obtain ⟨inner, found, hbuild⟩ := Form.reader_ok (Reader.whole_ok h)
  obtain ⟨f, createdAt, hf, -, rfl⟩ := Form.seq_ok hbuild
  obtain ⟨g, error, hg, -, rfl⟩ := Form.seq_ok hf
  obtain ⟨k, state, hk, hstate, rfl⟩ := Form.seq_ok hg
  obtain ⟨l, status, hl, -, rfl⟩ := Form.seq_ok hk
  obtain ⟨m, index, hm, -, rfl⟩ := Form.seq_ok hl
  obtain ⟨sessionId, -, rfl⟩ := Form.map_ok hm
  obtain ⟨e, -, he⟩ := Form.required_ok hstate
  exact State.step_lt he

end Graph

end Fleet
