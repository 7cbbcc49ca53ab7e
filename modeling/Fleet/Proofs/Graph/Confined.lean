import Fleet.Proofs.Disk.Confined
import Fleet.Proofs.Graph.Steps

/-!
The files that a session works on. A start and every checkpoint of a run keep to the session's own directory.
-/

namespace Fleet.Graph

namespace Checkpoint

variable {d e : Disk} {root : Path} {c : Checkpoint}

theorem root_directory (root : Path) : root <+: directory root := List.prefix_append root _

theorem root_file (root : Path) (i : Nat) : root <+: file root i :=
  (root_directory root).trans (List.prefix_append _ _)

theorem root_draft (root : Path) (i : Nat) : root <+: draft root i :=
  (root_directory root).trans (List.prefix_append _ _)

/-! ### What is read -/

theorem indices_seen (d : Disk) (root : Path) : indices (d.seenFrom root) root = indices d root := by
  rw [indices, indices, Disk.list_seen (root_directory root)]

theorem load_seen (d : Disk) (root : Path) (i : Nat) : load (d.seenFrom root) root i = load d root i := by
  rw [load, load, Disk.read_seen (root_file root i)]

theorem latest_seen (d : Disk) (root : Path) : latest (d.seenFrom root) root = latest d root := by
  simp only [latest, indices_seen, load_seen]

/-! ### What is written -/

theorem place_seen (d : Disk) (root : Path) (c : Checkpoint) :
    place (d.seenFrom root) root c = ((place d root c).1, (place d root c).2.seenFrom root) := by
  have hdraft : root <+: (draft root c.index).dropLast := by
    rw [draft, List.dropLast_concat]
    exact root_directory root
  have hfile : root <+: (file root c.index).dropLast := by
    rw [file, List.dropLast_concat]
    exact root_directory root
  rw [place, place, Disk.write_seen hdraft]
  cases d.write (draft root c.index) c.bytes with
  | error f => rfl
  | ok written =>
    have hrename := Disk.rename_seen (d := written) (root_draft root c.index) hfile
    simp only [Except.map, hrename]
    cases written.rename (draft root c.index) (file root c.index) with
    | error f => rfl
    | ok placed => rfl

theorem place_within (d : Disk) (root : Path) (c : Checkpoint) : d.Within root (place d root c).2 := by
  unfold place
  split
  · exact .refl root d
  · rename_i written hwrite
    have hwritten := Disk.within_write (by simp [draft]) (root_draft root c.index) hwrite
    split
    · exact hwritten
    · rename_i placed hrename
      exact hwritten.trans
        (Disk.within_rename (by simp [file]) (root_draft root c.index) (root_file root c.index) hrename)

theorem prune_seen (d : Disk) (root : Path) (found : List Nat) :
    prune (d.seenFrom root) root found = (prune d root found).seenFrom root := by
  unfold prune
  induction surplus found generalizing d with
  | nil => rfl
  | cons i rest ih =>
    rw [List.foldl_cons, List.foldl_cons, ← ih, Disk.remove_seen (root_file root i)]
    cases d.remove (file root i) <;> rfl

theorem prune_within (d : Disk) (root : Path) (found : List Nat) : d.Within root (prune d root found) :=
  removals_keep (P := d.Within root) (surplus found)
    (fun _ i _ h => h.trans (Disk.within_drop (root_file root i))) (.refl root d)

theorem append_seen (d : Disk) (root : Path) (session : String) (status : RunStatus) (s : State)
    (error : Option String) (now : Instant) :
    append (d.seenFrom root) root session status s error now =
      ((append d root session status s error now).1,
        (append d root session status s error now).2.seenFrom root) := by
  rw [append, append, Disk.makeAll_seen (root_directory root)]
  cases d.makeAll (directory root) with
  | error f => rfl
  | ok made =>
    simp only [Except.map, indices_seen]
    cases indices made root with
    | error cause => rfl
    | ok found =>
      simp only [place_seen]
      generalize place made root _ = placed
      obtain ⟨outcome, placed⟩ := placed
      cases outcome with
      | error f => rfl
      | ok u => simp only [prune_seen]

theorem append_within (d : Disk) (root : Path) (session : String) (status : RunStatus) (s : State)
    (error : Option String) (now : Instant) :
    d.Within root (append d root session status s error now).2 := by
  unfold append
  split
  · exact .refl root d
  · rename_i made hmade
    have hmade := Disk.within_makeAll hmade (root_directory root)
    split
    · exact hmade
    · rename_i found hfound
      dsimp only
      have hplaced := place_within made root ⟨session, nextIndex found, status, s, error, now⟩
      split
      · rename_i f placed hplace
        rw [hplace] at hplaced
        exact hmade.trans hplaced
      · rename_i placed hplace
        rw [hplace] at hplaced
        exact (hmade.trans hplaced).trans (prune_within placed root _)

end Checkpoint

namespace Session

variable {s t : Session} {d e : Disk} {workspace : Path} {p : StartSession} {x : Step} {sent : List Sent}

theorem opening_seen (d : Disk) (root : Path) (p : StartSession) :
    opening (d.seenFrom root) root p = opening d root p := by
  rw [opening, opening, Checkpoint.latest_seen]

theorem start_seen (s : Session) (d : Disk) (workspace : Path) (p : StartSession) :
    s.start (d.seenFrom (sessionRoot workspace s.id)) workspace p =
      ((s.start d workspace p).1, (s.start d workspace p).2.seenFrom (sessionRoot workspace s.id)) := by
  unfold start
  cases checkSessionId s.id with
  | error cause => rfl
  | ok u =>
    dsimp only
    rw [Disk.makeAll_seen (List.prefix_refl _)]
    cases d.makeAll (sessionRoot workspace s.id) with
    | error f => rfl
    | ok made =>
      simp only [Except.map, opening_seen]

theorem start_within (s : Session) (d : Disk) (workspace : Path) (p : StartSession) :
    d.Within (sessionRoot workspace s.id) (s.start d workspace p).2 := by
  unfold start
  split
  · exact .refl _ d
  · dsimp only
    split
    · exact .refl _ d
    · rename_i made hmade
      exact Disk.within_makeAll hmade (List.prefix_refl _)

theorem save_seen (s : Session) (d : Disk) (workspace : Path) (now : Instant) :
    s.save (d.seenFrom (sessionRoot workspace s.id)) workspace now =
      (s.save d workspace now).map fun (t, e) => (t, e.seenFrom (sessionRoot workspace s.id)) := by
  unfold save
  split
  · simp only [Checkpoint.append_seen, Option.map_some]
  · rfl

/-- A step of a run looks at nothing but its session's directory. -/
theorem advance_seen (s : Session) (d : Disk) (workspace : Path) (x : Step) :
    s.advance (d.seenFrom (sessionRoot workspace s.id)) workspace x =
      (s.advance d workspace x).map fun (t, e, sent) => (t, e.seenFrom (sessionRoot workspace s.id), sent) := by
  cases x with
  | save now =>
    simp only [advance, save_seen, Option.map_map]
    rfl
  | _ => simp only [advance, Option.map_map]; rfl

/-- A step of a run changes nothing outside its session's directory. -/
theorem advance_within (h : s.advance d workspace x = some (t, e, sent)) :
    d.Within (sessionRoot workspace s.id) e := by
  cases advanced h with
  | saved active appended =>
    have hdisk : (Checkpoint.append d _ _ _ _ _ _).2 = e := congrArg Prod.snd appended
    exact hdisk ▸ Checkpoint.append_within d _ _ _ _ _ _
  | _ => exact .refl _ d

end Session

end Fleet.Graph
