import Fleet.Proofs.Graph.Contents

/-!
Work that keeps to one directory. It changes only what stands there or below, apart from directories on the way
that were missing, and it does the same on a disk of which it is shown nothing else.
-/

namespace Fleet.Disk

variable {d e : Disk} {root p q : Path} {x : Entry} {content : List UInt8}

/-! ### What is changed -/

/-- From one disk to the other only what stands in a directory or below it has changed, and directories on the
way there were made that were missing. -/
def Within (root : Path) (d e : Disk) : Prop :=
  ∀ p, e.entry? p = d.entry? p ∨ root <+: p ∨
    p <+: root ∧ d.entry? p = none ∧ e.entry? p = some .directory

theorem Within.refl (root : Path) (d : Disk) : Within root d d := fun _ => .inl rfl

theorem Within.trans {f : Disk} (h : Within root d e) (h' : Within root e f) : Within root d f := by
  intro p
  rcases h p, h' p with ⟨hsame | hbelow | ⟨hway, hnone, hmade⟩, hsame' | hbelow' | ⟨hway', hnone', hmade'⟩⟩
  · exact .inl (hsame'.trans hsame)
  · exact .inr (.inl hbelow')
  · exact .inr (.inr ⟨hway', hsame ▸ hnone', hmade'⟩)
  · exact .inr (.inl hbelow)
  · exact .inr (.inl hbelow)
  · exact .inr (.inl hbelow)
  · exact .inr (.inr ⟨hway, hnone, hsame'.trans hmade⟩)
  · exact .inr (.inl hbelow')
  · exact .inr (.inr ⟨hway, hnone, hmade'⟩)

theorem within_set (hne : p ≠ []) (h : root <+: p) (x : Entry) : Within root d (d.set p x) := by
  intro q
  rw [look_set hne]
  by_cases hq : q = p
  · exact .inr (.inl (hq ▸ h))
  · exact .inl (if_neg hq)

theorem within_drop (h : root <+: p) : Within root d (d.drop p) := by
  intro q
  by_cases hnil : q = []
  · exact .inl (by rw [hnil]; rfl)
  · rw [look_drop hnil]
    by_cases hq : q = p
    · exact .inr (.inl (hq ▸ h))
    · exact .inl (if_neg hq)

/-- A directory that is missing is made on the way to the place, or below it. -/
theorem within_directory (hnone : d.entry? p = none) (h : p <+: root ∨ root <+: p) :
    Within root d (d.set p .directory) := by
  have hne : p ≠ [] := by
    rintro rfl
    cases hnone
  rcases h with h | h
  · intro q
    rw [look_set hne]
    by_cases hq : q = p
    · exact .inr (.inr ⟨hq ▸ h, hq ▸ hnone, if_pos hq⟩)
    · exact .inl (if_neg hq)
  · exact within_set hne h .directory

theorem within_makeFrom {rest : List String} {here : Path} (h : makeFrom here rest d = .ok e)
    (hroot : root <+: here ++ rest) : Within root d e := by
  have hway {q : Path} (hq : q <+: here ++ rest) : q <+: root ∨ root <+: q :=
    List.prefix_or_prefix_of_prefix hq hroot
  induction rest generalizing here d with
  | nil =>
    unfold makeFrom at h
    split at h
    · cases h
      exact .refl root _
    · cases h
    · rename_i hnone
      cases h
      exact within_directory hnone (hway (List.prefix_append here []))
  | cons name rest ih =>
    have hnext : here ++ name :: rest = here ++ [name] ++ rest := List.append_cons here name rest
    unfold makeFrom at h
    split at h
    · cases h
    · exact ih h (hnext ▸ hroot) (hnext ▸ hway)
    · rename_i hnone
      have hhere := hway (List.prefix_append here (name :: rest))
      exact (within_directory hnone hhere).trans (ih h (hnext ▸ hroot) (hnext ▸ hway))

theorem within_makeAll (h : d.makeAll p = .ok e) (hroot : root <+: p) : Within root d e :=
  within_makeFrom h hroot

theorem within_write (hne : p ≠ []) (hroot : root <+: p) (h : d.write p content = .ok e) : Within root d e := by
  rw [write_eq h]
  exact within_set hne hroot _

theorem within_rename (hne : q ≠ []) (hp : root <+: p) (hq : root <+: q) (h : d.rename p q = .ok e) :
    Within root d e := by
  obtain ⟨content, -, rfl⟩ := rename_eq h
  exact (within_drop hp).trans (within_set hne hq _)

/-! ### What is seen -/

/-- A file without what is in it. -/
def Entry.shell : Entry → Entry
  | directory => directory
  | file _ => file []

/-- What is seen of an entry from a directory: all of it in the directory and below, what kind of thing it is on
the way there, and nothing elsewhere. -/
def visible (root : Path) (y : Path × Entry) : Option (Path × Entry) :=
  if root <+: y.1 then some y else if y.1 <+: root then some (y.1, y.2.shell) else none

def seenFrom (d : Disk) (root : Path) : Disk := ⟨d.entries.filterMap (visible root)⟩

theorem visible_path {y z : Path × Entry} (h : visible root y = some z) : z.1 = y.1 := by
  unfold visible at h
  split at h
  · cases h
    rfl
  · split at h
    · cases h
      rfl
    · cases h

theorem lookup_visible (root : Path) (entries : List (Path × Entry)) (p : Path) :
    (entries.filterMap (visible root)).lookup p = if root <+: p then entries.lookup p
      else if p <+: root then (entries.lookup p).map Entry.shell else none := by
  induction entries with
  | nil => simp
  | cons y rest ih =>
    obtain ⟨q, x⟩ := y
    by_cases hpq : p = q
    · subst hpq
      by_cases hbelow : root <+: p
      · simp [visible, hbelow]
      · by_cases habove : p <+: root
        · simp [visible, hbelow, habove]
        · simp [visible, hbelow, habove, ih]
    · have hlookup (y : Entry) (ys : List (Path × Entry)) : ((q, y) :: ys).lookup p = ys.lookup p := by
        rw [List.lookup_cons, beq_false_of_ne hpq]
      rw [hlookup, ← ih]
      by_cases hbelow : root <+: q
      · simp [visible, hbelow, hlookup]
      · by_cases habove : q <+: root
        · simp [visible, hbelow, habove, hlookup]
        · simp [visible, hbelow, habove]

theorem seen_below (h : root <+: p) : Disk.entry? (d.seenFrom root) p = d.entry? p := by
  cases p with
  | nil => rfl
  | cons name rest => exact (lookup_visible root d.entries (name :: rest)).trans (if_pos h)

/-- On the way to a directory it is seen whether one gets on. -/
theorem seen_above (h : p <+: root) (hnot : ¬ root <+: p) :
    Disk.entry? (d.seenFrom root) p = (d.entry? p).map Entry.shell := by
  cases p with
  | nil => rfl
  | cons name rest =>
    have hlookup := lookup_visible root d.entries (name :: rest)
    rw [if_neg hnot, if_pos h] at hlookup
    exact hlookup

theorem follow_seen {here : Path} {rest : List String} (h : root <+: here ++ rest) :
    (d.seenFrom root).follow here rest = d.follow here rest := by
  induction rest generalizing here with
  | nil =>
    rw [List.append_nil] at h
    rw [follow, follow, seen_below h]
  | cons name rest ih =>
    have hnext : root <+: here ++ [name] ++ rest := List.append_cons here name rest ▸ h
    have hrest := ih hnext
    rw [follow, follow, hrest]
    by_cases hbelow : root <+: here
    · rw [seen_below hbelow]
    · have habove : here <+: root :=
        (List.prefix_or_prefix_of_prefix (List.prefix_append here _) h).resolve_right hbelow
      rw [seen_above habove hbelow]
      cases d.entry? here with
      | none => rfl
      | some y => cases y <;> rfl

theorem find_seen (h : root <+: p) : (d.seenFrom root).find p = d.find p := follow_seen h

theorem names_seen (h : root <+: p) : (d.seenFrom root).names p = d.names p := by
  unfold names seenFrom
  rw [List.filterMap_filterMap]
  apply List.filterMap_congr
  rintro ⟨q, x⟩ -
  cases hname : nameIn p q with
  | none =>
    unfold visible
    split
    · exact hname
    · split
      · exact hname
      · rfl
  | some name =>
    have hbelow : root <+: q := nameIn_eq_some.mp hname ▸ h.trans (List.prefix_append p [name])
    rw [visible, if_pos hbelow]
    exact hname

theorem list_seen (h : root <+: p) : (d.seenFrom root).list p = d.list p := by
  have hnames := names_seen (d := d) h
  unfold names at hnames
  rw [list, list, find_seen h, hnames]

theorem read_seen (h : root <+: p) : (d.seenFrom root).read p = d.read p := by rw [read, read, find_seen h]

theorem checkParent_seen (h : root <+: p.dropLast) : (d.seenFrom root).checkParent p = d.checkParent p := by
  rw [checkParent, checkParent, find_seen h]

/-! ### What is done is seen -/

theorem seen_setAt {y : Entry} (h : visible root (p, x) = some (p, y)) (entries : List (Path × Entry)) :
    (setAt p x entries).filterMap (visible root) = setAt p y (entries.filterMap (visible root)) := by
  have hself (z : Entry) : ∃ z', visible root (p, z) = some (p, z') := by
    unfold visible at h ⊢
    split at h
    · exact ⟨z, if_pos ‹_›⟩
    · split at h
      · exact ⟨z.shell, by rw [if_neg ‹_›, if_pos ‹_›]⟩
      · cases h
  induction entries with
  | nil =>
    rw [setAt, List.filterMap_cons_some h]
    rfl
  | cons z rest ih =>
    obtain ⟨q, z⟩ := z
    by_cases hq : q = p
    · subst hq
      obtain ⟨z', hz⟩ := hself z
      rw [List.filterMap_cons_some hz, setAt, if_pos rfl, setAt, if_pos rfl, List.filterMap_cons_some h]
    · rw [setAt, if_neg hq]
      cases hz : visible root (q, z) with
      | none => rw [List.filterMap_cons_none hz, List.filterMap_cons_none hz, ih]
      | some w =>
        obtain ⟨w, z'⟩ := w
        obtain rfl : w = q := visible_path hz
        rw [List.filterMap_cons_some hz, List.filterMap_cons_some hz, ih, setAt, if_neg hq]

theorem seen_set (h : root <+: p) (x : Entry) : (d.set p x).seenFrom root = (d.seenFrom root).set p x :=
  congrArg Disk.mk (seen_setAt (if_pos h) d.entries)

/-- A directory has nothing that could be hidden. -/
theorem seen_set_directory (h : p <+: root ∨ root <+: p) :
    (d.set p .directory).seenFrom root = (d.seenFrom root).set p .directory := by
  refine congrArg Disk.mk (seen_setAt ?_ d.entries)
  unfold visible
  by_cases hbelow : root <+: p
  · exact if_pos hbelow
  · rw [if_neg hbelow, if_pos (h.resolve_right hbelow)]
    rfl

theorem seen_drop (p : Path) : (d.drop p).seenFrom root = (d.seenFrom root).drop p := by
  unfold drop seenFrom
  rw [List.filterMap_filter, List.filter_filterMap]
  congr 1
  apply List.filterMap_congr
  intro y _
  cases hy : visible root y with
  | none => simp
  | some z => by_cases hp : y.1 = p <;> simp [Option.filter, visible_path hy, hp]

theorem makeFrom_seen {rest : List String} {here : Path} (h : root <+: here ++ rest) :
    makeFrom here rest (d.seenFrom root) = (makeFrom here rest d).map (seenFrom · root) := by
  have hway {q : Path} (hq : q <+: here ++ rest) : q <+: root ∨ root <+: q :=
    List.prefix_or_prefix_of_prefix hq h
  induction rest generalizing here d with
  | nil =>
    rw [List.append_nil] at h
    rw [makeFrom, makeFrom, seen_below h]
    cases d.entry? here with
    | none => exact congrArg Except.ok (seen_set h .directory).symm
    | some y => cases y <;> rfl
  | cons name rest ih =>
    have hnext : here ++ name :: rest = here ++ [name] ++ rest := List.append_cons here name rest
    have hhere := hway (List.prefix_append here (name :: rest))
    have hrest (d : Disk) := ih (d := d) (hnext ▸ h) (hnext ▸ hway)
    have hkind : Disk.entry? (d.seenFrom root) here = d.entry? here ∨
        Disk.entry? (d.seenFrom root) here = (d.entry? here).map Entry.shell := by
      by_cases hbelow : root <+: here
      · exact .inl (seen_below hbelow)
      · exact .inr (seen_above (hhere.resolve_right hbelow) hbelow)
    rw [makeFrom, makeFrom]
    cases hentry : d.entry? here with
    | none =>
      have hnone : Disk.entry? (d.seenFrom root) here = none := by simpa [hentry] using hkind
      simp only [hnone, ← seen_set_directory hhere, hrest]
    | some y =>
      cases y with
      | directory =>
        have hthere : Disk.entry? (d.seenFrom root) here = some .directory := by
          simpa [hentry, Entry.shell] using hkind
        simp only [hthere, hrest]
      | file content =>
        obtain ⟨content', hfile⟩ : ∃ c, Disk.entry? (d.seenFrom root) here = some (.file c) := by
          rcases hkind with hsame | hshell
          · exact ⟨content, hsame.trans hentry⟩
          · exact ⟨[], by rw [hshell, hentry]; rfl⟩
        simp only [hfile]
        rfl

theorem makeAll_seen (h : root <+: p) : (d.seenFrom root).makeAll p = (d.makeAll p).map (seenFrom · root) :=
  makeFrom_seen h

theorem write_seen (h : root <+: p.dropLast) :
    (d.seenFrom root).write p content = (d.write p content).map (seenFrom · root) := by
  have hp : root <+: p := h.trans (List.dropLast_prefix p)
  rw [write, write, checkParent_seen h, seen_below hp]
  cases d.checkParent p with
  | error f => rfl
  | ok u =>
    dsimp only [bind, Except.bind]
    cases d.entry? p with
    | none => exact congrArg Except.ok (seen_set hp _).symm
    | some y =>
      cases y with
      | directory => rfl
      | file c => exact congrArg Except.ok (seen_set hp _).symm

theorem rename_seen (hp : root <+: p) (hq : root <+: q.dropLast) :
    (d.seenFrom root).rename p q = (d.rename p q).map (seenFrom · root) := by
  have hq' : root <+: q := hq.trans (List.dropLast_prefix q)
  rw [rename, rename, read_seen hp, checkParent_seen hq, seen_below hq']
  cases d.read p with
  | error f => rfl
  | ok content =>
    dsimp only [bind, Except.bind]
    cases d.checkParent q with
    | error f => rfl
    | ok u =>
      have hmoved : ((d.seenFrom root).drop p).set q (.file content) =
          ((d.drop p).set q (.file content)).seenFrom root := by rw [seen_set hq', seen_drop]
      dsimp only
      cases d.entry? q with
      | none => exact congrArg Except.ok hmoved
      | some y =>
        cases y with
        | directory => rfl
        | file c => exact congrArg Except.ok hmoved

theorem remove_seen (h : root <+: p) : (d.seenFrom root).remove p = (d.remove p).map (seenFrom · root) := by
  rw [remove, remove, find_seen h]
  cases d.find p with
  | error f => rfl
  | ok y =>
    cases y with
    | directory => rfl
    | file content => exact congrArg Except.ok (seen_drop p).symm

end Fleet.Disk
