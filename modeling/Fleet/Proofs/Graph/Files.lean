import Fleet.Graph.Checkpoint
import Fleet.Proofs.Json.Scanning

/-!
The files of a session's checkpoints. A new checkpoint has the number after the largest that stands in
its directory, and then is the one with the largest number, since only older ones are removed.
-/

namespace Fleet

namespace Disk

variable {d e : Disk} {dir p q : Path} {name : String} {content : List UInt8}

/-- The paths at which something stands. -/
def paths (d : Disk) : List Path := d.entries.map Prod.fst

/-- The names of what lies directly in a directory. -/
def names (d : Disk) (dir : Path) : List String := d.entries.filterMap fun e => nameIn dir e.1

theorem nameIn_eq_some : nameIn dir p = some name ↔ p = dir ++ [name] := by
  unfold nameIn
  constructor
  · intro h
    split at h
    · rename_i hdir
      obtain ⟨front, rfl⟩ := List.getLast?_eq_some_iff.mp h
      rw [List.dropLast_concat] at hdir
      rw [hdir]
    · cases h
  · rintro rfl
    rw [List.dropLast_concat, if_pos rfl, List.getLast?_concat]

theorem mem_names : name ∈ d.names dir ↔ dir ++ [name] ∈ d.paths := by
  unfold names paths
  rw [List.mem_filterMap, List.mem_map]
  constructor
  · rintro ⟨x, hx, hname⟩
    exact ⟨x, hx, nameIn_eq_some.mp hname⟩
  · rintro ⟨x, hx, hpath⟩
    exact ⟨x, hx, nameIn_eq_some.mpr hpath⟩

theorem lookup_setAt (p : Path) (x : Entry) (xs : List (Path × Entry)) (q : Path) :
    (setAt p x xs).lookup q = if q = p then some x else xs.lookup q := by
  induction xs with
  | nil =>
    by_cases hq : q = p
    · simp [setAt, hq]
    · simp [setAt, hq, List.lookup_cons, beq_false_of_ne hq]
  | cons y rest ih =>
    obtain ⟨r, f⟩ := y
    unfold setAt
    by_cases hr : r = p
    · subst hr
      by_cases hq : q = r
      · simp [hq]
      · simp [hq, List.lookup_cons, beq_false_of_ne hq]
    · rw [if_neg hr, List.lookup_cons, List.lookup_cons, ih]
      by_cases hq : q = r
      · subst hq
        simp [hr]
      · simp [beq_false_of_ne hq]

theorem look_set (hp : p ≠ []) (x : Entry) (q : Path) :
    entry? (d.set p x) q = if q = p then some x else d.entry? q := by
  cases q with
  | nil =>
    rw [if_neg (Ne.symm hp)]
    rfl
  | cons name rest => exact lookup_setAt p x d.entries (name :: rest)

theorem mem_paths_set {x : Entry} : q ∈ (d.set p x).paths ↔ q = p ∨ q ∈ d.paths := by
  obtain ⟨entries⟩ := d
  unfold paths set
  induction entries with
  | nil => simp [setAt]
  | cons y rest ih =>
    obtain ⟨r, f⟩ := y
    dsimp only at ih ⊢
    unfold setAt
    by_cases hr : r = p
    · subst hr
      simp
    · rw [if_neg hr, List.map_cons, List.mem_cons, ih, List.map_cons, List.mem_cons]
      exact or_left_comm

theorem mem_paths_drop : q ∈ (d.drop p).paths ↔ q ∈ d.paths ∧ q ≠ p := by
  unfold paths drop
  rw [List.mem_map, List.mem_map]
  constructor
  · rintro ⟨x, hx, rfl⟩
    obtain ⟨hin, hne⟩ := List.mem_filter.mp hx
    exact ⟨⟨x, hin, rfl⟩, of_decide_eq_true hne⟩
  · rintro ⟨⟨x, hin, rfl⟩, hne⟩
    exact ⟨x, List.mem_filter.mpr ⟨hin, decide_eq_true hne⟩, rfl⟩

/-! ### What operations that succeed leave -/

/-- A directory that was not there is made. -/
theorem set_directory {here : Path} (hnone : d.entry? here = none) :
    entry? (d.set here .directory) here = some .directory ∧
      (∀ q, ¬here <+: q → entry? (d.set here .directory) q = d.entry? q) ∧
      ∀ q, here.length < q.length → (q ∈ (d.set here .directory).paths ↔ q ∈ d.paths) := by
  have hhere : here ≠ [] := by
    rintro rfl
    cases hnone
  refine ⟨?_, fun q hq => ?_, fun q hq => ?_⟩
  · rw [look_set hhere, if_pos rfl]
  · rw [look_set hhere, if_neg]
    rintro rfl
    exact hq (List.prefix_refl _)
  · rw [mem_paths_set, or_iff_right]
    rintro rfl
    exact Nat.lt_irrefl _ hq

/-- The directories along a path are there after it was made, and nothing else has come or gone. -/
theorem makeFrom_ok {rest : List String} {here : Path} (h : makeFrom here rest d = .ok e) :
    e.follow here rest = .ok .directory ∧ (∀ q, ¬here <+: q → e.entry? q = d.entry? q) ∧
      ∀ q, (here ++ rest).length < q.length → (q ∈ e.paths ↔ q ∈ d.paths) := by
  induction rest generalizing here d with
  | nil =>
    unfold makeFrom at h
    split at h
    · rename_i hthere
      cases h
      refine ⟨?_, fun _ _ => rfl, fun _ _ => Iff.rfl⟩
      rw [follow, hthere]
    · cases h
    · rename_i hnone
      cases h
      obtain ⟨hself, hothers, hpaths⟩ := set_directory hnone
      refine ⟨?_, hothers, ?_⟩
      · rw [follow, hself]
      · intro q hq
        exact hpaths q (by simpa using hq)
  | cons name rest ih =>
    -- what is made below leaves the directory itself alone
    have hbelow : ¬here ++ [name] <+: here := by
      intro hprefix
      have := hprefix.length_le
      rw [List.length_append, List.length_singleton] at this
      omega
    have hlonger {q : Path} (hq : ¬here <+: q) : ¬here ++ [name] <+: q :=
      fun hprefix => hq ((List.prefix_append here [name]).trans hprefix)
    have hlength : (here ++ name :: rest).length = (here ++ [name] ++ rest).length := by
      rw [List.append_assoc, List.singleton_append]
    unfold makeFrom at h
    split at h
    · cases h
    · rename_i hthere
      obtain ⟨hfollow, hothers, hpaths⟩ := ih h
      refine ⟨?_, fun q hq => hothers q (hlonger hq), hlength ▸ hpaths⟩
      rw [follow, hothers here hbelow, hthere]
      exact hfollow
    · rename_i hnone
      obtain ⟨hself, hset, hold⟩ := set_directory hnone
      obtain ⟨hfollow, hothers, hpaths⟩ := ih h
      refine ⟨?_, fun q hq => (hothers q (hlonger hq)).trans (hset q hq), fun q hq => ?_⟩
      · rw [follow, hothers here hbelow, hself]
        exact hfollow
      · rw [hlength] at hq
        refine (hpaths q hq).trans (hold q ?_)
        simp only [List.length_append] at hq
        omega

theorem makeAll_ok (h : d.makeAll p = .ok e) :
    e.find p = .ok .directory ∧ ∀ name, name ∈ e.names p ↔ name ∈ d.names p := by
  obtain ⟨hfind, -, hpaths⟩ := makeFrom_ok h
  refine ⟨hfind, fun name => ?_⟩
  rw [mem_names, mem_names]
  apply hpaths
  simp

theorem write_eq (h : d.write p content = .ok e) : e = d.set p (.file content) := by
  unfold write at h
  cases hparent : d.checkParent p with
  | error f =>
    rw [hparent] at h
    cases h
  | ok u =>
    rw [hparent] at h
    dsimp only [bind, Except.bind] at h
    split at h
    · cases h
    · cases h
      rfl

theorem write_ok (h : d.write p content = .ok e) : ∀ q, q ∈ e.paths ↔ q = p ∨ q ∈ d.paths := by
  intro q
  rw [write_eq h, mem_paths_set]

theorem rename_eq (h : d.rename p q = .ok e) :
    ∃ content, d.read p = .ok content ∧ e = (d.drop p).set q (.file content) := by
  unfold rename at h
  cases hread : d.read p with
  | error f =>
    rw [hread] at h
    cases h
  | ok content =>
    cases hparent : d.checkParent q with
    | error f =>
      rw [hread, hparent] at h
      cases h
    | ok u =>
      rw [hread, hparent] at h
      refine ⟨content, rfl, ?_⟩
      dsimp only [bind, Except.bind] at h
      split at h
      · cases h
      · cases h
        rfl

theorem rename_ok (h : d.rename p q = .ok e) :
    ∀ r, r ∈ e.paths ↔ r = q ∨ r ∈ d.paths ∧ r ≠ p := by
  obtain ⟨content, -, rfl⟩ := rename_eq h
  intro r
  rw [mem_paths_set, mem_paths_drop]

theorem remove_eq (h : d.remove p = .ok e) : e = d.drop p := by
  unfold remove at h
  cases hfind : d.find p with
  | error f =>
    rw [hfind] at h
    cases h
  | ok found =>
    rw [hfind] at h
    cases found with
    | directory => cases h
    | file content =>
      cases h
      rfl

end Disk

namespace Graph.Checkpoint

variable {d e : Disk} {root : Path} {i j : Nat}

/-! ### Names of checkpoints -/

theorem number_pad (i : Nat) : number (pad (Nat.toDigits 10 i)) = i := by
  change Nat.ofDigitChars 10 (pad (Nat.toDigits 10 i)) 0 = i
  unfold pad
  rw [Nat.ofDigitChars_append, Nat.ofDigitChars_replicate_zero, Nat.mul_zero,
    Nat.ofDigitChars_ten_toDigits]

theorem toList_fileName (i : Nat) :
    (fileName i).toList = pad (Nat.toDigits 10 i) ++ ".json".toList := by
  unfold fileName
  rw [String.toList_append, String.toList_ofList]

theorem pad_digits (i : Nat) : ∀ c ∈ pad (Nat.toDigits 10 i), c.isDigit = true := by
  intro c hc
  rcases List.mem_append.mp hc with hc | hc
  · rw [List.eq_of_mem_replicate hc]
    rfl
  · exact Json.Document.isDigit_toDigits i c hc

theorem indexOf?_fileName (hi : i < bitBound 64) : indexOf? (fileName i) = some i := by
  have hlength : (pad (Nat.toDigits 10 i) ++ ".json".toList).length - 5 =
      (pad (Nat.toDigits 10 i)).length := by
    rw [List.length_append]
    exact Nat.add_sub_cancel _ 5
  have hlong : 8 ≤ (pad (Nat.toDigits 10 i)).length := by
    unfold pad
    rw [List.length_append, List.length_replicate]
    omega
  have hdigits : (pad (Nat.toDigits 10 i)).all Char.isDigit = true := List.all_eq_true.mpr (pad_digits i)
  unfold indexOf?
  dsimp only
  rw [toList_fileName, hlength, List.drop_left, List.take_left, if_pos ⟨rfl, hlong, hdigits⟩,
    number_pad, if_pos hi]

/-- A draft does not count as a checkpoint. -/
theorem indexOf?_draft (i : Nat) : indexOf? (fileName i ++ ".tmp") = none := by
  have hlist : (fileName i ++ ".tmp").toList =
      pad (Nat.toDigits 10 i) ++ ".jso".toList ++ "n.tmp".toList := by
    rw [String.toList_append, toList_fileName, List.append_assoc, List.append_assoc]
    rfl
  have hlength : (fileName i ++ ".tmp").toList.length - 5 =
      (pad (Nat.toDigits 10 i) ++ ".jso".toList).length := by
    rw [hlist, List.length_append]
    exact Nat.add_sub_cancel _ 5
  unfold indexOf?
  dsimp only
  rw [hlength, hlist, List.drop_left, if_neg]
  rintro ⟨hsuffix, -⟩
  revert hsuffix
  decide

/-! ### The largest number -/

/-- The numbers of the checkpoints in a session's directory. -/
def numbers (d : Disk) (root : Path) : List Nat := (d.names (directory root)).filterMap indexOf?

/-- The largest number of a checkpoint of a session, zero if there is none. -/
def newest (d : Disk) (root : Path) : Nat := (numbers d root).max?.getD 0

theorem mem_numbers : i ∈ numbers d root ↔
    ∃ name, directory root ++ [name] ∈ d.paths ∧ indexOf? name = some i := by
  unfold numbers
  rw [List.mem_filterMap]
  simp only [Disk.mem_names]

theorem lt_of_mem_numbers (hi : i ∈ numbers d root) : i < bitBound 64 := by
  obtain ⟨name, -, hindex⟩ := mem_numbers.mp hi
  unfold indexOf? at hindex
  dsimp only at hindex
  split at hindex
  · split at hindex
    · rename_i hlt
      cases hindex
      exact hlt
    · cases hindex
  · cases hindex

theorem le_newest (hi : i ∈ numbers d root) : i ≤ newest d root := by
  unfold newest
  cases hmax : (numbers d root).max? with
  | none =>
    rw [List.max?_eq_none_iff.mp hmax] at hi
    cases hi
  | some m => exact (List.max?_eq_some_iff.mp hmax).2 i hi

/-- The largest number is one of a checkpoint, if there are any. -/
theorem newest_mem (h : numbers d root ≠ []) : newest d root ∈ numbers d root := by
  unfold newest
  cases hmax : (numbers d root).max? with
  | none => exact absurd (List.max?_eq_none_iff.mp hmax) h
  | some m => exact (List.max?_eq_some_iff.mp hmax).1

theorem newest_lt (d : Disk) (root : Path) : newest d root < bitBound 64 := by
  by_cases h : numbers d root = []
  · simp [newest, h]
  · exact lt_of_mem_numbers (newest_mem h)

theorem newest_eq (hi : i ∈ numbers d root) (hle : ∀ j ∈ numbers d root, j ≤ i) :
    newest d root = i := by
  unfold newest
  rw [List.max?_eq_some_iff.mpr ⟨hi, hle⟩]
  rfl

theorem newest_congr (h : ∀ i, i ∈ numbers e root ↔ i ∈ numbers d root) :
    newest e root = newest d root := by
  unfold newest
  cases hmax : (numbers d root).max? with
  | none =>
    have hnone : numbers e root = [] := by
      refine List.eq_nil_iff_forall_not_mem.mpr fun i hi => ?_
      rw [h, List.max?_eq_none_iff.mp hmax] at hi
      cases hi
    rw [hnone]
    rfl
  | some m =>
    obtain ⟨hm, hle⟩ := List.max?_eq_some_iff.mp hmax
    rw [List.max?_eq_some_iff.mpr ⟨(h m).mpr hm, fun i hi => hle i ((h i).mp hi)⟩]

theorem sorted_numbers (d : Disk) (root : Path) :
    ((numbers d root).mergeSort fun a b => decide (a ≤ b)).Pairwise (· ≤ ·) := by
  have hsorted : ((numbers d root).mergeSort fun a b => decide (a ≤ b)).Pairwise
      fun a b => decide (a ≤ b) = true :=
    List.pairwise_mergeSort (by simpa using fun a b c => Nat.le_trans) (by simpa using Nat.le_total) _
  exact hsorted.imp of_decide_eq_true

/-- The last of the numbers in order is the largest. -/
theorem nextIndex_sorted (d : Disk) (root : Path) :
    nextIndex ((numbers d root).mergeSort fun a b => decide (a ≤ b)) =
      (newest d root + 1) % bitBound 64 := by
  unfold nextIndex newest
  have hsorted := sorted_numbers d root
  have hmem : ∀ i, i ∈ (numbers d root).mergeSort (fun a b => decide (a ≤ b)) ↔
      i ∈ numbers d root := fun i => List.mem_mergeSort
  generalize (numbers d root).mergeSort (fun a b => decide (a ≤ b)) = found at hsorted hmem
  cases hlast : found.getLast? with
  | none =>
    rw [List.getLast?_eq_none_iff.mp hlast] at hmem
    have hnone : numbers d root = [] :=
      List.eq_nil_iff_forall_not_mem.mpr fun i hi => List.not_mem_nil ((hmem i).mpr hi)
    rw [hnone]
    rfl
  | some last =>
    obtain ⟨front, rfl⟩ := List.getLast?_eq_some_iff.mp hlast
    have hmax : (numbers d root).max? = some last := by
      refine List.max?_eq_some_iff.mpr ⟨(hmem last).mp (by simp), fun i hi => ?_⟩
      rcases List.mem_append.mp ((hmem i).mpr hi) with hi | hi
      · exact (List.pairwise_append.mp hsorted).2.2 i hi last (by simp)
      · exact Nat.le_of_eq (List.mem_singleton.mp hi)
    rw [hmax]
    rfl

/-! ### A checkpoint is added -/

theorem place_ok {c : Checkpoint} (h : place d root c = (.ok (), e)) (q : Path) :
    q ∈ e.paths ↔ q = file root c.index ∨ q ∈ d.paths ∧ q ≠ draft root c.index := by
  unfold place at h
  split at h
  · cases h
  · rename_i d' hwrite
    split at h
    · cases h
    · rename_i e' hrename
      cases h
      rw [Disk.rename_ok hrename, Disk.write_ok hwrite]
      constructor
      · rintro (hfile | ⟨hdraft | hold, hne⟩)
        · exact .inl hfile
        · exact absurd hdraft hne
        · exact .inr ⟨hold, hne⟩
      · rintro (hfile | ⟨hold, hne⟩)
        · exact .inl hfile
        · exact .inr ⟨.inr hold, hne⟩

theorem mem_numbers_place {c : Checkpoint} (h : place d root c = (.ok (), e))
    (hc : c.index < bitBound 64) : i ∈ numbers e root ↔ i = c.index ∨ i ∈ numbers d root := by
  rw [mem_numbers, mem_numbers]
  constructor
  · rintro ⟨name, hpath, hindex⟩
    rcases (place_ok h _).mp hpath with hfile | ⟨hold, -⟩
    · obtain rfl : name = fileName c.index := by simpa [file] using hfile
      exact .inl (Option.some.inj (hindex.symm.trans (indexOf?_fileName hc)))
    · exact .inr ⟨name, hold, hindex⟩
  · rintro (rfl | ⟨name, hold, hindex⟩)
    · exact ⟨fileName c.index, (place_ok h _).mpr (.inl rfl), indexOf?_fileName hc⟩
    · refine ⟨name, (place_ok h _).mpr (.inr ⟨hold, ?_⟩), hindex⟩
      intro hdraft
      obtain rfl : name = fileName c.index ++ ".tmp" := by simpa [draft] using hdraft
      rw [indexOf?_draft] at hindex
      cases hindex

/-- What holds whichever of these files are dropped holds after they were removed. -/
theorem removals_keep {P : Disk → Prop} (gone : List Nat)
    (drop : ∀ d i, i ∈ gone → P d → P (d.drop (file root i))) (h : P d) :
    P (gone.foldl (fun d i => ((d.remove (file root i)).toOption).getD d) d) := by
  induction gone generalizing d with
  | nil => exact h
  | cons i rest ih =>
    refine ih (fun d j hj => drop d j (List.mem_cons_of_mem i hj)) ?_
    dsimp only
    cases hremove : d.remove (file root i) with
    | error f => exact h
    | ok e =>
      rw [show (Except.ok e : Except Disk.Failure Disk).toOption.getD d = e from rfl, Disk.remove_eq hremove]
      exact drop d i List.mem_cons_self h

/-- Removing checkpoints takes away their files and nothing else. -/
theorem removals (root : Path) (gone : List Nat) (d : Disk) (q : Path) :
    let e := gone.foldl (fun d i => ((d.remove (file root i)).toOption).getD d) d
    (q ∈ e.paths → q ∈ d.paths) ∧ (q ∈ d.paths → (∀ i ∈ gone, q ≠ file root i) → q ∈ e.paths) := by
  refine removals_keep (d := d) (P := fun e => (q ∈ e.paths → q ∈ d.paths) ∧
    (q ∈ d.paths → (∀ i ∈ gone, q ≠ file root i) → q ∈ e.paths)) gone ?_ ⟨id, fun hq _ => hq⟩
  rintro e i hi ⟨hfewer, hkept⟩
  rw [Disk.mem_paths_drop]
  exact ⟨fun hq => hfewer hq.1, fun hq hne => ⟨hkept hq hne, hne i hi⟩⟩

/-- The checkpoints that are removed after one was added are older ones. -/
theorem mem_surplus {found : List Nat} (hj : j ∈ surplus (found ++ [i])) : j ∈ found := by
  unfold surplus retention at hj
  have hle : (found ++ [i]).length - 10 ≤ found.length := by
    rw [List.length_append, List.length_singleton]
    omega
  rw [List.take_append_of_le_length hle] at hj
  exact List.mem_of_mem_take hj

theorem file_injective (hi : i < bitBound 64) (hj : j < bitBound 64)
    (h : file root i = file root j) : i = j := by
  have hname : fileName i = fileName j := by simpa [file] using h
  have hindex := indexOf?_fileName hi
  rw [hname, indexOf?_fileName hj] at hindex
  exact (Option.some.inj hindex).symm

/-- Making a session's directory brings and takes no checkpoints. -/
theorem numbers_makeAll (h : d.makeAll (directory root) = .ok e) : ∀ i, i ∈ numbers e root ↔ i ∈ numbers d root := by
  obtain ⟨-, hnames⟩ := Disk.makeAll_ok h
  intro i
  rw [mem_numbers, mem_numbers]
  simp only [← Disk.mem_names, hnames]

theorem indices_eq (there : d.find (directory root) = .ok .directory) :
    indices d root = .ok ((numbers d root).mergeSort fun a b => decide (a ≤ b)) := by
  unfold indices Disk.list
  rw [there]
  rfl

/-- The number after the largest is above all numbers, unless the largest number that there can be is taken. -/
theorem above_iff (d : Disk) (root : Path) :
    (∀ i ∈ numbers d root, i < (newest d root + 1) % bitBound 64) ↔ bitBound 64 - 1 ∉ numbers d root := by
  have hlt := newest_lt d root
  constructor
  · intro h hlast
    have hnewest := le_newest hlast
    have hover : newest d root + 1 = bitBound 64 := by omega
    have hbelow := h _ hlast
    rw [hover, Nat.mod_self] at hbelow
    exact Nat.not_lt_zero _ hbelow
  · intro h i hi
    have hmem := newest_mem (List.ne_nil_of_mem hi)
    have hne : newest d root ≠ bitBound 64 - 1 := fun heq => h (heq ▸ hmem)
    have hle := le_newest hi
    rw [Nat.mod_eq_of_lt (by omega)]
    omega

/-- The numbers start over only after the largest that there can be. -/
theorem lt_of_index_pos (h : 0 < (newest d root + 1) % bitBound 64) : newest d root + 1 < bitBound 64 := by
  have hlt := newest_lt d root
  rcases Nat.lt_or_eq_of_le (Nat.succ_le_of_lt hlt) with hnext | hnext
  · exact hnext
  · rw [Nat.succ_eq_add_one] at hnext
    rw [hnext, Nat.mod_self] at h
    exact absurd h (Nat.lt_irrefl 0)

/-- What is done for a session's next checkpoint, which has the number after the largest. -/
theorem append_steps {session : String} {status : RunStatus} {s : State} {error : Option String}
    {now : Instant} {c : Checkpoint} (h : append d root session status s error now = (.ok c, e)) :
    c = ⟨session, (newest d root + 1) % bitBound 64, status, s, error, now⟩ ∧
      ∃ made placed, d.makeAll (directory root) = .ok made ∧ place made root c = (.ok (), placed) ∧
        e = prune placed root ((numbers made root).mergeSort (fun a b => decide (a ≤ b)) ++ [c.index]) := by
  unfold append at h
  split at h
  · cases h
  · rename_i made hmade
    have hnewest : newest made root = newest d root := newest_congr (numbers_makeAll hmade)
    rw [indices_eq (Disk.makeAll_ok hmade).1] at h
    dsimp only at h
    rw [nextIndex_sorted, hnewest] at h
    split at h
    · cases h
    · rename_i placed hplace
      cases h
      exact ⟨rfl, made, placed, hmade, hplace, rfl⟩

/-- The checkpoints that are removed after the next one was added are not that one, if its number is new. -/
theorem surplus_older (hmade : d.makeAll (directory root) = .ok e) (hi : newest d root < i) (hj : j ∈ surplus
    ((numbers e root).mergeSort (fun a b => decide (a ≤ b)) ++ [i])) : j < bitBound 64 ∧ j ≠ i := by
  have hj : j ∈ numbers e root := List.mem_mergeSort.mp (mem_surplus hj)
  have hold := le_newest ((numbers_makeAll hmade j).mp hj)
  exact ⟨lt_of_mem_numbers hj, by omega⟩

/-- A session's next checkpoint has the number after the largest, and is then the largest itself. -/
theorem append_ok {session : String} {status : RunStatus} {s : State} {error : Option String}
    {now : Instant} {c : Checkpoint} (h : append d root session status s error now = (.ok c, e)) :
    c = ⟨session, (newest d root + 1) % bitBound 64, status, s, error, now⟩ ∧
      (newest d root + 1 < bitBound 64 → newest e root = newest d root + 1) := by
  obtain ⟨hc, made, placed, hmade, hplace, rfl⟩ := append_steps h
  refine ⟨hc, fun hlt => ?_⟩
  have hindex : c.index = newest d root + 1 := by rw [hc, Nat.mod_eq_of_lt hlt]
  have hremovals := removals root
    (surplus ((numbers made root).mergeSort (fun a b => decide (a ≤ b)) ++ [c.index])) placed
  rw [← hindex] at hlt ⊢
  apply newest_eq
  · refine mem_numbers.mpr ⟨fileName c.index, ?_, indexOf?_fileName hlt⟩
    refine (hremovals _).2 ((place_ok hplace _).mpr (.inl rfl)) fun i hi heq => ?_
    obtain ⟨hsmall, hne⟩ := surplus_older hmade (by omega) hi
    exact hne (file_injective hlt hsmall heq).symm
  · intro i hi
    obtain ⟨name, hpath, hnumber⟩ := mem_numbers.mp hi
    have hplaced := mem_numbers.mpr ⟨name, (hremovals _).1 hpath, hnumber⟩
    rcases (mem_numbers_place hplace hlt).mp hplaced with heq | hold
    · exact Nat.le_of_eq heq
    · have := le_newest ((numbers_makeAll hmade i).mp hold)
      omega

end Graph.Checkpoint

end Fleet
