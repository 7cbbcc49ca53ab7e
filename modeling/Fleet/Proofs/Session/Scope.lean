import Fleet.Proofs.Bridge.Cancels
import Fleet.Proofs.Graph.Cancels

/-!
How far cancels reach in both runtimes: to the runs and turns whose messages were accepted before them, and
among these also to those that still wait, which then do nothing any more.
-/

namespace Fleet

open Happening (Cancelled InScope)

namespace Graph

theorem runs_in_scope {nodes : List Node} (hnodes : .cancel ∉ nodes) (id : String) (state : State)
    (disk : Disk) (workspace : Path) (incidents : List Incident) :
    let v := Vigil.play workspace incidents { session := { id, nodes, state }, disk }
    InScope v.log ∧
    (∀ r ∈ v.session.runs, v.session.isCancelled r = true ↔ Cancelled v.log r.id) ∧
    ∀ x, (∀ r, v.session.mover x = some r → r ∈ v.session.runs ∧ ¬ Cancelled v.log r.id) →
      v.session.advance v.disk workspace x = (v.session.unspent.advance v.disk workspace x).map
        fun (t, e, sent) => ({ t with spent := v.session.spent }, e, sent) := by
  intro v
  have hkept : Kept v := (Kept.start id nodes state disk hnodes).play incidents
  refine ⟨hkept.books.scope, fun r hr => hkept.cancelled_iff hr, fun x hx => ?_⟩
  refine Session.advance_unspent (fun r stage hactive => (hkept.stands r stage hactive).rest) fun r hr => ?_
  obtain ⟨hruns, hfree⟩ := hx r hr
  rw [Bool.eq_false_iff]
  exact fun hcancelled => hfree ((hkept.cancelled_iff hruns).mp hcancelled)

end Graph

namespace Bridge

theorem turns_in_scope (runner : String) (timeout : Nat) (p : StartPayload) (beats : List Beat) :
    let v := (Vigil.start runner timeout p).play beats
    InScope v.log ∧
    (∀ x ∈ v.watch.turns, v.watch.core.isCancelled x.2 = true ↔ Cancelled v.log x.1) ∧
    ((∀ n ∈ v.watch.active, ¬ Cancelled v.log n) →
      v.watch.core.mayWake = v.watch.core.unspent.mayWake ∧
      ∀ mv : Move, mv.isOutside = false → v.watch.core.move mv =
        (v.watch.core.unspent.move mv).map fun (d, out) => ({ d with token := v.watch.core.token }, out)) := by
  intro v
  obtain ⟨tasks, holder, hkept⟩ := (Kept.start runner timeout p).play beats
  refine ⟨hkept.books.scope, fun x hx => hkept.cancelled_iff hx, fun hfree => ?_⟩
  have hgoes : ∀ t stage, v.watch.core.active = some (t, stage) → v.watch.core.isCancelled t = false := by
    intro t stage hactive
    obtain ⟨n, rfl, hn⟩ := hkept.holder_eq hactive
    have hiff := hkept.cancelled_iff (x := (n, t)) (by simp [hkept.turns_eq])
    rw [Bool.eq_false_iff]
    exact fun hcancelled => hfree n hn (hiff.mp hcancelled)
  exact ⟨Core.mayWake_unspent hgoes, fun mv hmv => Core.move_unspent hmv hgoes⟩

end Bridge

/-- Whatever messages, cancels and stops come to a session that was started, and whenever its runs take their
steps: a run of a graph or a turn of a bridge ends as cancelled only if a cancel was issued since its message
was accepted. One that waits when a cancel is issued comes to no node and to no runtime, and ends in no other
way. One whose message was accepted since goes on as if nothing had ever been cancelled. -/
theorem cancels_keep_their_scope (nodes : List Graph.Node) (hnodes : .cancel ∉ nodes) :
    (∀ (id : String) (state : Graph.State) (disk : Disk) (workspace : Path) (incidents : List Graph.Incident),
      let v := Graph.Vigil.play workspace incidents { session := { id, nodes, state }, disk }
      InScope v.log ∧
      (∀ r ∈ v.session.runs, v.session.isCancelled r = true ↔ Cancelled v.log r.id) ∧
      ∀ x, (∀ r, v.session.mover x = some r → r ∈ v.session.runs ∧ ¬ Cancelled v.log r.id) →
        v.session.advance v.disk workspace x = (v.session.unspent.advance v.disk workspace x).map
          fun (t, e, sent) => ({ t with spent := v.session.spent }, e, sent)) ∧
    ∀ (runner : String) (timeout : Nat) (p : Bridge.StartPayload) (beats : List Bridge.Beat),
      let v := (Bridge.Vigil.start runner timeout p).play beats
      InScope v.log ∧
      (∀ x ∈ v.watch.turns, v.watch.core.isCancelled x.2 = true ↔ Cancelled v.log x.1) ∧
      ((∀ n ∈ v.watch.active, ¬ Cancelled v.log n) →
        v.watch.core.mayWake = v.watch.core.unspent.mayWake ∧
        ∀ mv : Bridge.Move, mv.isOutside = false → v.watch.core.move mv =
          (v.watch.core.unspent.move mv).map
            fun (d, out) => ({ d with token := v.watch.core.token }, out)) :=
  ⟨Graph.runs_in_scope hnodes, Bridge.turns_in_scope⟩

/-- Of three messages the first is worked on and the second waits when the cancel comes; the third comes after
it. The graph's machine has no room for checkpoints. -/
theorem cancel_between_messages :
    let happened : List Happening := [.accepted 0, .entered 0, .worked 0, .accepted 1, .cancelled,
      .ended 0 true, .accepted 2, .entered 1, .ended 1 true, .entered 2, .worked 2, .worked 2, .worked 2, .ended 2 false]
    let disk : Disk := { entries := [(["w"], .file [])] }
    let run (n token : Nat) (message : String) : Graph.Run := ⟨n, token, message⟩
    let v := Graph.Vigil.play ["w"] [.knock "a", .accept 0, .step (.enter (run 0 0 "a")), .step (.walk "x"),
      .knock "b", .accept 0, .cancel, .step .giveUp, .step (.walk "x"), .step (.save ⟨0, 0⟩), .step .tell,
      .knock "c", .accept 0, .step (.enter (run 1 0 "b")), .step (.save ⟨1, 0⟩), .step .tell,
      .step (.enter (run 2 1 "c")), .step (.walk "y"), .step (.answer (.ok .null)), .step (.walk ""),
      .step (.walk ""), .step (.save ⟨2, 0⟩), .step .tell]
      { session := { id := "s" }, disk }
    let line (s : String) : Bridge.Beat := .move (.line (Text.encode s))
    let say (s : String) : Bridge.Beat := .move (.say (.assistantMessage s))
    let w := (Bridge.Vigil.start "mock" 5 { sessionId := "s" }).play [
      line "\x7b\"type\":\"user_message\",\"message\":\"a\"\x7d", .move (.enter 0), .move .search,
      .move (.tick 5), .move .expire, .wake, line "\x7b\"type\":\"user_message\",\"message\":\"b\"\x7d",
      line "\x7b\"type\":\"cancel\"\x7d", .pause, .wake, .move .quit,
      line "\x7b\"type\":\"user_message\",\"message\":\"c\"\x7d", .move (.enter 0), .move .search, .move .quit,
      .move (.enter 0), .move .search, .move (.tick 5), .move .expire, .wake, say "1", say "2",
      .move (.finish (.ok "2"))]
    .cancel ∉ Graph.standard ∧ InScope v.log ∧ v.log = happened ∧ InScope w.log ∧ w.log = happened := by
  intro happened disk run v line say w
  have hnodes : .cancel ∉ Graph.standard := by decide
  obtain ⟨hgraph, hbridge⟩ := cancels_keep_their_scope Graph.standard hnodes
  exact ⟨hnodes, (hgraph "s" {} disk ["w"] _).1, by decide +kernel, (hbridge "mock" 5 _ _).1, by decide +kernel⟩

end Fleet
