import Fleet.Graph.Session
import Fleet.Proofs.Graph.Bytes
import Fleet.Proofs.Graph.Files

/-!
What stands in the files of a session's checkpoints. A checkpoint that was added can be read, and what a session
takes up is the checkpoint with the largest index whose file can be read.
-/

namespace Fleet

namespace Disk

variable {d e : Disk} {p q : Path} {x : Entry} {name : String} {content : List UInt8}

/-! ### Places -/

theorem look_drop (hq : q ≠ []) (p : Path) : entry? (d.drop p) q = if q = p then none else d.entry? q := by
  obtain ⟨entries⟩ := d
  obtain ⟨first, rest, rfl⟩ := List.exists_cons_of_ne_nil hq
  change (entries.filter fun e => e.1 ≠ p).lookup (first :: rest) = if first :: rest = p then none else
    entries.lookup (first :: rest)
  generalize first :: rest = q
  induction entries with
  | nil => simp
  | cons y rest ih =>
    obtain ⟨r, f⟩ := y
    by_cases hr : r = p
    · subst hr
      rw [List.filter_cons_of_neg (by simp), ih, List.lookup_cons]
      by_cases hq : q = r
      · simp [hq]
      · simp [hq, beq_false_of_ne hq]
    · rw [List.filter_cons_of_pos (by simpa using hr), List.lookup_cons, List.lookup_cons, ih]
      by_cases hq : q = r
      · simp [hq, hr]
      · simp [beq_false_of_ne hq]

theorem mem_paths_of_entry (hp : p ≠ []) (h : d.entry? p = some x) : p ∈ d.paths := by
  obtain ⟨first, rest, rfl⟩ := List.exists_cons_of_ne_nil hp
  have hlook : d.entries.lookup (first :: rest) = some x := h
  obtain ⟨before, after, hsplit, -⟩ := List.lookup_eq_some_iff.mp hlook
  exact List.mem_map.mpr ⟨(first :: rest, x), by simp [hsplit], rfl⟩

/-- One gets to a directory where all directories on the way are there. -/
theorem follow_directory (here : Path) (rest : List String) : d.follow here rest = .ok .directory ↔
    ∀ front, front <+: rest → d.entry? (here ++ front) = some .directory := by
  induction rest generalizing here with
  | nil =>
    simp only [List.prefix_nil, forall_eq, List.append_nil, follow]
    cases d.entry? here with
    | none => simp
    | some x => simp
  | cons name rest ih =>
    have hfirst (h : ∀ front, front <+: name :: rest → d.entry? (here ++ front) = some .directory) :
        d.entry? here = some .directory := by simpa using h [] (List.nil_prefix)
    unfold follow
    split
    · rename_i hthere
      rw [ih]
      constructor
      · intro h front hfront
        cases front with
        | nil => simpa using hthere
        | cons a front =>
          obtain ⟨rfl, hrest⟩ := List.cons_prefix_cons.mp hfront
          simpa using h front hrest
      · intro h front hfront
        simpa using h (name :: front) (List.cons_prefix_cons.mpr ⟨rfl, hfront⟩)
    · rename_i f hthere
      refine ⟨fun h => ?_, fun h => ?_⟩
      · cases h
      · cases hthere.symm.trans (hfirst h)
    · rename_i hthere
      refine ⟨fun h => ?_, fun h => ?_⟩
      · cases h
      · cases hthere.symm.trans (hfirst h)

theorem find_directory : d.find p = .ok .directory ↔ ∀ q, q <+: p → d.entry? q = some .directory := by
  unfold find
  simpa using follow_directory (d := d) [] p

theorem find_of_prefix (h : d.find p = .ok .directory) (hq : q <+: p) : d.find q = .ok .directory :=
  find_directory.mpr fun r hr => find_directory.mp h r (hr.trans hq)

/-- What is set or dropped elsewhere than on the way leaves the way open. -/
theorem find_set (hp : p ≠ []) (h : ¬ p <+: q) (hfind : d.find q = .ok .directory) :
    (d.set p x).find q = .ok .directory := by
  rw [find_directory] at hfind ⊢
  intro r hr
  have hne : r ≠ p := by
    rintro rfl
    exact h hr
  rw [look_set hp, if_neg hne, hfind r hr]

theorem find_drop (h : ¬ p <+: q) (hfind : d.find q = .ok .directory) : (d.drop p).find q = .ok .directory := by
  rw [find_directory] at hfind ⊢
  intro r hr
  by_cases hnil : r = []
  · rw [hnil]
    rfl
  · have hne : r ≠ p := by
      rintro rfl
      exact h hr
    rw [look_drop hnil, if_neg hne, hfind r hr]

theorem follow_concat {here : Path} {rest : List String} (h : d.follow here rest = .ok .directory) (name : String) :
    d.follow here (rest ++ [name]) = match d.entry? (here ++ rest ++ [name]) with
      | some x => .ok x
      | none => .error .notFound := by
  induction rest generalizing here with
  | nil =>
    have hthere := (follow_directory here []).mp h [] List.nil_prefix
    rw [List.append_nil] at hthere
    have hstep : d.follow here [name] = d.follow (here ++ [name]) [] := by
      simp only [follow, hthere]
    rw [List.nil_append, List.append_nil]
    exact hstep
  | cons first rest ih =>
    have hthere := (follow_directory here (first :: rest)).mp h [] List.nil_prefix
    rw [List.append_nil] at hthere
    rw [follow, hthere] at h
    rw [List.cons_append, follow, hthere]
    simpa using ih h

/-- What one gets in a directory is what stands there. -/
theorem find_concat (h : d.find p = .ok .directory) (name : String) :
    d.find (p ++ [name]) = match d.entry? (p ++ [name]) with
      | some x => .ok x
      | none => .error .notFound := by
  unfold find at h ⊢
  simpa using follow_concat h name

theorem read_concat (h : d.find p = .ok .directory) : d.read (p ++ [name]) = .ok content ↔
    d.entry? (p ++ [name]) = some (.file content) := by
  unfold read
  rw [find_concat h]
  cases d.entry? (p ++ [name]) with
  | none => simp
  | some x => cases x <;> simp

theorem makeFrom_self {here : Path} {rest : List String} (h : d.follow here rest = .ok .directory) :
    makeFrom here rest d = .ok d := by
  induction rest generalizing here with
  | nil =>
    have hthere := (follow_directory here []).mp h [] List.nil_prefix
    rw [List.append_nil] at hthere
    rw [makeFrom, hthere]
  | cons name rest ih =>
    have hthere := (follow_directory here (name :: rest)).mp h [] List.nil_prefix
    rw [List.append_nil] at hthere
    rw [follow, hthere] at h
    rw [makeFrom, hthere]
    exact ih h

/-- A directory that is there is not made again. -/
theorem makeAll_self (h : d.find p = .ok .directory) : d.makeAll p = .ok d := makeFrom_self h

end Disk

namespace Graph.Checkpoint

variable {d e : Disk} {root : Path} {i j : Nat} {c : Checkpoint}

/-! ### Files of checkpoints -/

/-- No file of a session's directory is on the way to it. -/
theorem not_on_the_way (root : Path) (name : String) : ¬ directory root ++ [name] <+: directory root := by
  intro h
  have := h.length_le
  rw [List.length_append, List.length_singleton] at this
  omega

theorem load_ok : load d root i = .ok c ↔
    ∃ content, d.read (file root i) = .ok content ∧ reader.ofBytes content = .ok c := by
  unfold load
  cases d.read (file root i) with
  | error f => exact ⟨nofun, nofun⟩
  | ok content =>
    have hbind : (do
        let content ← (Except.ok content : Except Disk.Failure (List UInt8)).mapError Disk.Failure.toError
        (reader.ofBytes content).mapError Error.serialization : Except Error Checkpoint) =
        (reader.ofBytes content).mapError .serialization := rfl
    rw [hbind]
    simp only [Except.ok.injEq, exists_eq_left']
    cases reader.ofBytes content <;> simp [Except.mapError]

/-- What stands in the file with this index. -/
theorem load_iff (there : d.find (directory root) = .ok .directory) : load d root i = .ok c ↔
    ∃ content, d.entry? (file root i) = some (.file content) ∧ reader.ofBytes content = .ok c := by
  have hread (content : List UInt8) : d.read (file root i) = .ok content ↔
      d.entry? (file root i) = some (.file content) := Disk.read_concat there
  simp only [load_ok, hread]

theorem mem_numbers_of_load (there : d.find (directory root) = .ok .directory) (hi : i < bitBound 64)
    (h : load d root i = .ok c) : i ∈ numbers d root := by
  obtain ⟨content, hentry, -⟩ := (load_iff there).mp h
  exact mem_numbers.mpr ⟨fileName i, Disk.mem_paths_of_entry (by simp [directory]) hentry, indexOf?_fileName hi⟩

/-! ### A checkpoint is added -/

/-- The file of a checkpoint that was placed has its bytes. -/
theorem place_contents (there : d.find (directory root) = .ok .directory) (h : place d root c = (.ok (), e)) :
    e.find (directory root) = .ok .directory ∧ e.entry? (file root c.index) = some (.file c.bytes) := by
  unfold place at h
  split at h
  · cases h
  · rename_i d' hwrite
    split at h
    · cases h
    · rename_i e' hrename
      cases h
      have hdraft : draft root c.index ≠ [] := by simp [draft]
      have hfile : file root c.index ≠ [] := by simp [file]
      have hwritten := Disk.write_eq hwrite
      have there' : d'.find (directory root) = .ok .directory :=
        hwritten ▸ Disk.find_set hdraft (not_on_the_way root _) there
      obtain ⟨content, hread, rfl⟩ := Disk.rename_eq hrename
      have hcontent : content = c.bytes := by
        have hentry := (Disk.read_concat there').mp hread
        have hset : d'.entry? (draft root c.index) = some (.file c.bytes) := by
          rw [hwritten, Disk.look_set hdraft, if_pos rfl]
        cases hset.symm.trans hentry
        rfl
      refine ⟨Disk.find_set hfile (not_on_the_way root _) (Disk.find_drop (not_on_the_way root _) there'), ?_⟩
      rw [Disk.look_set hfile, if_pos rfl, hcontent]

/-- Removing other checkpoints leaves a checkpoint's file. -/
theorem removals_contents {gone : List Nat} {content : List UInt8} (hi : i < bitBound 64)
    (hgone : ∀ j ∈ gone, j < bitBound 64 ∧ j ≠ i)
    (h : d.find (directory root) = .ok .directory ∧ d.entry? (file root i) = some (.file content)) :
    let e := gone.foldl (fun d i => ((d.remove (file root i)).toOption).getD d) d
    e.find (directory root) = .ok .directory ∧ e.entry? (file root i) = some (.file content) := by
  refine removals_keep (P := fun e => e.find (directory root) = .ok .directory ∧
    e.entry? (file root i) = some (.file content)) gone ?_ h
  rintro e j hj ⟨there, hentry⟩
  obtain ⟨hlt, hne⟩ := hgone j hj
  refine ⟨Disk.find_drop (not_on_the_way root _) there, ?_⟩
  rw [Disk.look_drop (by simp [file]), if_neg fun hsame => hne (file_injective hi hlt hsame).symm, hentry]

/-- A checkpoint that was added, and has not the number of an older one, stands in its file. -/
theorem append_contents {session : String} {status : RunStatus} {s : State} {error : Option String}
    {now : Instant} (h : append d root session status s error now = (.ok c, e))
    (hlt : newest d root + 1 < bitBound 64) :
    e.find (directory root) = .ok .directory ∧ e.entry? (file root c.index) = some (.file c.bytes) := by
  obtain ⟨hc, made, placed, hmade, hplace, rfl⟩ := append_steps h
  have hindex : c.index = newest d root + 1 := by rw [hc, Nat.mod_eq_of_lt hlt]
  exact removals_contents (hindex ▸ hlt) (fun j hj => surplus_older hmade (by omega) hj)
    (place_contents (Disk.makeAll_ok hmade).1 hplace)

/-! ### The checkpoint that is taken up -/

/-- The checkpoint with the largest index whose file can be read. -/
structure Newest (d : Disk) (root : Path) (i : Nat) (c : Checkpoint) : Prop where
  fits : i < bitBound 64
  read : load d root i = .ok c
  last : ∀ j c', j < bitBound 64 → load d root j = .ok c' → j ≤ i

theorem Newest.unique {c' : Checkpoint} (h : Newest d root i c) (h' : Newest d root j c') : c' = c := by
  have hij : i = j := Nat.le_antisymm (h'.last i c h.fits h.read) (h.last j c' h'.fits h'.read)
  have hread := h'.read
  rw [← hij, h.read] at hread
  exact (Except.ok.inj hread).symm

/-- Where no file can be read there is no checkpoint to take up. -/
def Unreadable (d : Disk) (root : Path) : Prop := ∀ i c, i < bitBound 64 → load d root i ≠ .ok c

/-- The search from the largest number down ends at the newest checkpoint that can be read. -/
theorem latest_spec (there : d.find (directory root) = .ok .directory) :
    (∃ i c, latest d root = .ok (some c) ∧ Newest d root i c) ∨ latest d root = .ok none ∧ Unreadable d root := by
  have hlatest : latest d root = .ok (((numbers d root).mergeSort fun a b => decide (a ≤ b)).reverse.findSome?
      fun i => (load d root i).toOption) := by
    rw [latest, indices_eq there]
    rfl
  have hsorted : (((numbers d root).mergeSort fun a b => decide (a ≤ b)).reverse).Pairwise (· ≥ ·) :=
    List.pairwise_reverse.mpr (sorted_numbers d root)
  have hmem (i : Nat) : i ∈ ((numbers d root).mergeSort fun a b => decide (a ≤ b)).reverse ↔ i ∈ numbers d root := by
    rw [List.mem_reverse, List.mem_mergeSort]
  rw [hlatest]
  generalize ((numbers d root).mergeSort fun a b => decide (a ≤ b)).reverse = found at hsorted hmem
  have hload {i : Nat} {c : Checkpoint} : (load d root i).toOption = some c ↔ load d root i = .ok c := by
    cases load d root i <;> simp [Except.toOption]
  cases hfound : found.findSome? fun i => (load d root i).toOption with
  | none =>
    refine .inr ⟨rfl, fun i c hi hc => ?_⟩
    have hno := List.findSome?_eq_none_iff.mp hfound i ((hmem i).mpr (mem_numbers_of_load there hi hc))
    rw [hload.mpr hc] at hno
    cases hno
  | some c =>
    obtain ⟨before, i, after, hsplit, hi, hbefore⟩ := List.findSome?_eq_some_iff.mp hfound
    refine .inl ⟨i, c, rfl, ?_, hload.mp hi, fun j c' hj hc' => ?_⟩
    · exact lt_of_mem_numbers ((hmem i).mp (by simp [hsplit]))
    · have hj := (hmem j).mpr (mem_numbers_of_load there hj hc')
      rw [hsplit] at hj hsorted
      rcases List.mem_append.mp hj with hj | hj
      · have hno := hbefore j hj
        rw [hload.mpr hc'] at hno
        cases hno
      · rcases List.mem_cons.mp hj with rfl | hj
        · exact Nat.le_refl _
        · exact (List.pairwise_cons.mp (List.pairwise_append.mp hsorted).2.1).1 j hj

theorem latest_eq (there : d.find (directory root) = .ok .directory) (h : Newest d root i c) :
    latest d root = .ok (some c) := by
  rcases latest_spec there with ⟨j, c', hlatest, h'⟩ | ⟨-, hno⟩
  · rw [hlatest, h.unique h']
  · exact absurd h.read (hno i c h.fits)

/-- A well-formed checkpoint that was added and has not the number of an older one is the newest that can be
read. -/
theorem append_newest {session : String} {status : RunStatus} {s : State} {error : Option String}
    {now : Instant} (h : append d root session status s error now = (.ok c, e))
    (hlt : newest d root + 1 < bitBound 64) (hc : c.WellFormed) : Newest e root c.index c := by
  obtain ⟨there, hentry⟩ := append_contents h hlt
  have hnewest := (append_ok h).2 hlt
  have hindex : c.index = newest d root + 1 := by rw [(append_ok h).1, Nat.mod_eq_of_lt hlt]
  refine ⟨hc.index, (load_iff there).mpr ⟨c.bytes, hentry, hc.ofBytes_bytes⟩, fun j c' hj hread => ?_⟩
  rw [hindex, ← hnewest]
  exact le_newest (mem_numbers_of_load there hj hread)

end Graph.Checkpoint

end Fleet
