import Fleet.Proofs.Graph.Contents
import Mathlib.Data.List.DropRight
import Mathlib.Data.List.Sort
import Mathlib.Logic.Relation

/-!
A session's next checkpoint, saved step by step. Wherever one stops, the newest checkpoint that can be read is the
one that was it before, or the new one; and when all is done the ten with the largest numbers are there.
-/

namespace Fleet

namespace Disk

variable {d e : Disk} {dir p : Path} {x : Entry}

theorem entry_eq_none (hp : p ≠ []) : d.entry? p = none ↔ p ∉ d.paths := by
  obtain ⟨first, rest, rfl⟩ := List.exists_cons_of_ne_nil hp
  obtain ⟨entries⟩ := d
  change entries.lookup (first :: rest) = none ↔ first :: rest ∉ entries.map Prod.fst
  generalize first :: rest = q
  induction entries with
  | nil => simp
  | cons y rest ih =>
    obtain ⟨r, f⟩ := y
    by_cases hq : q = r
    · simp [hq]
    · rw [List.lookup_cons, beq_false_of_ne hq, List.map_cons, List.mem_cons, or_iff_right hq]
      exact ih

/-- Only a file can be removed. -/
theorem remove_error_iff (there : d.find dir = .ok .directory) (name : String) :
    (∃ f, d.remove (dir ++ [name]) = .error f) ↔ ∀ content, d.entry? (dir ++ [name]) ≠ some (.file content) := by
  unfold remove
  rw [find_concat there]
  cases d.entry? (dir ++ [name]) with
  | none => exact ⟨fun _ => nofun, fun _ => ⟨_, rfl⟩⟩
  | some x =>
    cases x with
    | directory => exact ⟨fun _ => nofun, fun _ => ⟨_, rfl⟩⟩
    | file content => exact ⟨nofun, fun h => absurd rfl (h content)⟩

/-! ### Nothing stands twice -/

theorem nodup_set (h : d.paths.Nodup) : (d.set p x).paths.Nodup := by
  obtain ⟨entries⟩ := d
  unfold paths set at *
  induction entries with
  | nil => simp [setAt]
  | cons y rest ih =>
    obtain ⟨r, f⟩ := y
    rw [List.map_cons, List.nodup_cons] at h
    dsimp only at ih ⊢
    unfold setAt
    by_cases hr : r = p
    · rw [if_pos hr]
      exact List.nodup_cons.mpr (hr ▸ h)
    · have hmem : r ∈ (setAt p x rest).map Prod.fst ↔ r = p ∨ r ∈ rest.map Prod.fst :=
        mem_paths_set (d := ⟨rest⟩)
      rw [if_neg hr, List.map_cons, List.nodup_cons, hmem, or_iff_right hr]
      exact ⟨h.1, ih h.2⟩

theorem nodup_drop (h : d.paths.Nodup) : (d.drop p).paths.Nodup :=
  h.sublist (List.filter_sublist.map _)

theorem nodup_makeFrom {rest : List String} {here : Path} (h : d.paths.Nodup)
    (hmade : makeFrom here rest d = .ok e) : e.paths.Nodup := by
  induction rest generalizing here d with
  | nil =>
    unfold makeFrom at hmade
    split at hmade
    · cases hmade
      exact h
    · cases hmade
    · cases hmade
      exact nodup_set h
  | cons name rest ih =>
    unfold makeFrom at hmade
    split at hmade
    · cases hmade
    · exact ih h hmade
    · exact ih (nodup_set h) hmade

theorem nodup_names (h : d.paths.Nodup) : (d.names dir).Nodup := by
  have hnames : d.names dir = d.paths.filterMap (nameIn dir) := by
    unfold names paths
    rw [List.filterMap_map]
    rfl
  rw [hnames]
  refine List.Nodup.filterMap (fun p q name hp hq => ?_) h
  rw [nameIn_eq_some.mp hp, nameIn_eq_some.mp hq]

end Disk

namespace Graph.Checkpoint

variable {d e : Disk} {root : Path} {i n : Nat} {c : Checkpoint} {found left missed : List Nat} {name : String}
  {x : Disk.Entry}

/-! ### Directories in order -/

/-- In a session's directory nothing stands twice, nor while the directory is not there, and what is numbered like
a checkpoint has the name of one. -/
structure Orderly (d : Disk) (root : Path) : Prop where
  once : d.paths.Nodup
  there : ∀ name, directory root ++ [name] ∈ d.paths → d.find (directory root) = .ok .directory
  canonical : ∀ name i, directory root ++ [name] ∈ d.paths → indexOf? name = some i → name = fileName i

namespace Orderly

theorem mem_numbers_iff (h : Orderly d root) : i ∈ numbers d root ↔ i < bitBound 64 ∧ file root i ∈ d.paths := by
  constructor
  · intro hi
    refine ⟨lt_of_mem_numbers hi, ?_⟩
    obtain ⟨name, hpath, hindex⟩ := mem_numbers.mp hi
    obtain rfl := h.canonical name i hpath hindex
    exact hpath
  · rintro ⟨hi, hpath⟩
    exact mem_numbers.mpr ⟨fileName i, hpath, indexOf?_fileName hi⟩

theorem nodup_numbers (h : Orderly d root) : (numbers d root).Nodup := by
  refine List.pairwise_filterMap.mpr ((Disk.nodup_names h.once).imp_of_mem fun {a b} ha hb hne => ?_)
  rintro i hi j hj rfl
  rw [h.canonical a i (Disk.mem_names.mp ha) hi, h.canonical b i (Disk.mem_names.mp hb) hj] at hne
  exact hne rfl

/-- What is in order and has the same members are the indices. -/
theorem indices_of (h : Orderly d root) (there : d.find (directory root) = .ok .directory)
    (hsorted : found.Pairwise (· < ·)) (hmem : ∀ i, i ∈ found ↔ i ∈ numbers d root) :
    indices d root = .ok found := by
  have hnodup : found.Nodup := hsorted.imp Nat.ne_of_lt
  have hperm : ((numbers d root).mergeSort fun a b => decide (a ≤ b)).Perm found :=
    (List.mergeSort_perm _ _).trans ((List.perm_ext_iff_of_nodup h.nodup_numbers hnodup).mpr fun i => (hmem i).symm)
  rw [indices_eq there]
  exact congrArg Except.ok (hperm.eq_of_pairwise' (sorted_numbers d root) (hsorted.imp Nat.le_of_lt))

/-- The indices are the numbers of the checkpoints in order, each once. -/
theorem of_indices (h : Orderly d root) (hfound : indices d root = .ok found) :
    found.Pairwise (· < ·) ∧ (∀ i, i ∈ found ↔ i ∈ numbers d root) ∧
      (found ≠ [] → d.find (directory root) = .ok .directory) := by
  by_cases there : d.find (directory root) = .ok .directory
  · obtain rfl := Except.ok.inj ((indices_eq there).symm.trans hfound)
    refine ⟨?_, fun i => List.mem_mergeSort, fun _ => there⟩
    have hnodup : ((numbers d root).mergeSort fun a b => decide (a ≤ b)).Nodup :=
      (List.mergeSort_perm _ _).nodup_iff.mpr h.nodup_numbers
    exact ((sorted_numbers d root).and hnodup).imp fun hle => Nat.lt_of_le_of_ne hle.1 hle.2
  · have hnone : found = [] := by
      unfold indices Disk.list at hfound
      split at hfound
      · rename_i names hlist
        split at hlist
        · rename_i hfind
          exact absurd hfind there
        · cases hlist
        · cases hlist
      · exact (Except.ok.inj hfound).symm
      · cases hfound
    subst hnone
    refine ⟨.nil, fun i => ⟨nofun, fun hi => ?_⟩, fun hne => absurd rfl hne⟩
    obtain ⟨name, hpath, -⟩ := mem_numbers.mp hi
    exact absurd (h.there name hpath) there

theorem set (h : Orderly d root) (there : d.find (directory root) = .ok .directory)
    (hname : ∀ i, indexOf? name = some i → name = fileName i) :
    Orderly (d.set (directory root ++ [name]) x) root where
  once := Disk.nodup_set h.once
  there _ _ := Disk.find_set (by simp) (not_on_the_way root name) there
  canonical other i hpath hindex := by
    rcases Disk.mem_paths_set.mp hpath with hsame | hold
    · obtain rfl : other = name := by simpa using hsame
      exact hname i hindex
    · exact h.canonical other i hold hindex

theorem drop (h : Orderly d root) (name : String) : Orderly (d.drop (directory root ++ [name])) root where
  once := Disk.nodup_drop h.once
  there other hpath :=
    Disk.find_drop (not_on_the_way root name) (h.there other (Disk.mem_paths_drop.mp hpath).1)
  canonical other i hpath hindex := h.canonical other i (Disk.mem_paths_drop.mp hpath).1 hindex

theorem made (h : Orderly d root) (hmade : d.makeAll (directory root) = .ok e) : Orderly e root where
  once := Disk.nodup_makeFrom h.once hmade
  there _ _ := (Disk.makeAll_ok hmade).1
  canonical name i hpath hindex :=
    h.canonical name i (Disk.mem_names.mp (((Disk.makeAll_ok hmade).2 name).mp (Disk.mem_names.mpr hpath))) hindex

end Orderly

/-! ### Steps -/

/-- How far the next checkpoint has come, with the indices that were found, or with those that are yet to be
removed and those that could not be. -/
inductive Stage where
  | begun
  | drafting (found : List Nat)
  | drafted (found : List Nat)
  | pruning (left missed : List Nat)

/-- The checkpoint that comes after those that were found. -/
def next (c : Checkpoint) (found : List Nat) : Checkpoint := { c with index := nextIndex found }

/-- One step of saving a checkpoint. A draft may be written in part, with whatever bytes came of it so far; and what
should be removed may stay. -/
inductive Goes (root : Path) (c : Checkpoint) : Stage × Disk → Stage × Disk → Prop
  | make {d e : Disk} {found : List Nat} : d.makeAll (directory root) = .ok e → indices e root = .ok found →
    Goes root c (.begun, d) (.drafting found, e)
  | part {d e : Disk} {found : List Nat} {content : List UInt8} :
    d.write (draft root (nextIndex found)) content = .ok e → Goes root c (.drafting found, d) (.drafting found, e)
  | write {d e : Disk} {found : List Nat} : d.write (draft root (nextIndex found)) (c.next found).bytes = .ok e →
    Goes root c (.drafting found, d) (.drafted found, e)
  | move {d e : Disk} {found : List Nat} :
    d.rename (draft root (nextIndex found)) (file root (nextIndex found)) = .ok e →
    Goes root c (.drafted found, d) (.pruning (surplus (found ++ [nextIndex found])) [], e)
  | remove {d e : Disk} {i : Nat} {left missed : List Nat} : d.remove (file root i) = .ok e →
    Goes root c (.pruning (i :: left) missed, d) (.pruning left missed, e)
  | keep {d : Disk} {i : Nat} {left missed : List Nat} :
    Goes root c (.pruning (i :: left) missed, d) (.pruning left (missed ++ [i]), d)

/-- Any number of steps. -/
def Reaches (root : Path) (c : Checkpoint) : Stage × Disk → Stage × Disk → Prop :=
  Relation.ReflTransGen (Goes root c)

/-! ### What there is on the way -/

/-- The checkpoints stand as they did. -/
structure Stands (d e : Disk) (root : Path) : Prop where
  orderly : Orderly e root
  there : e.find (directory root) = .ok .directory
  same : ∀ i, i < bitBound 64 → e.entry? (file root i) = d.entry? (file root i)

/-- The new checkpoint stands beside those that were found, less some of the surplus. -/
structure Stored (e : Disk) (root : Path) (c : Checkpoint) (found gone missed : List Nat) : Prop where
  orderly : Orderly e root
  there : e.find (directory root) = .ok .directory
  fresh : e.entry? (file root c.index) = some (.file c.bytes)
  fewer : ∀ i ∈ numbers e root, i ∈ found ++ [c.index]
  kept : ∀ i ∈ found ++ [c.index], i ∉ gone → i ∈ numbers e root
  missed : ∀ i ∈ gone, i ∈ numbers e root → i ∈ missed

def Holds (d : Disk) (root : Path) (c : Checkpoint) (found : List Nat) : Stage × Disk → Prop
  | (.begun, e) => e = d
  | (.drafting found', e) => found' = found ∧ Stands d e root
  | (.drafted found', e) => found' = found ∧ Stands d e root ∧
      e.entry? (draft root c.index) = some (.file c.bytes)
  | (.pruning left missed, e) =>
    ∃ gone, surplus (found ++ [c.index]) = gone ++ left ∧ Stored e root c found gone missed

theorem file_ne_nil (root : Path) (i : Nat) : file root i ≠ [] := by simp [file]

theorem draft_ne_nil (root : Path) (i : Nat) : draft root i ≠ [] := by simp [draft]

theorem file_ne_draft (root : Path) (hi : i < bitBound 64) (n : Nat) : file root i ≠ draft root n := by
  intro h
  have hname : fileName i = fileName n ++ ".tmp" := by simpa [file, draft] using h
  have hindex := indexOf?_fileName hi
  rw [hname, indexOf?_draft] at hindex
  cases hindex

theorem Orderly.mem_numbers_entry (h : Orderly d root) :
    i ∈ numbers d root ↔ i < bitBound 64 ∧ d.entry? (file root i) ≠ none := by
  rw [h.mem_numbers_iff, ne_eq, Disk.entry_eq_none (file_ne_nil root i), not_not]

theorem Stands.mem_numbers (h : Stands d e root) (hd : Orderly d root) (i : Nat) :
    i ∈ numbers e root ↔ i ∈ numbers d root := by
  rw [h.orderly.mem_numbers_entry, hd.mem_numbers_entry]
  refine and_congr_right fun hi => ?_
  rw [h.same i hi]

/-- What is found is the same as before. -/
theorem Stands.listed (h : Stands d e root) (hd : Orderly d root) (hfound : indices d root = .ok found) :
    indices e root = .ok found := by
  obtain ⟨hsorted, hmem, -⟩ := hd.of_indices hfound
  exact h.orderly.indices_of h.there hsorted fun i => (hmem i).trans (h.mem_numbers hd i).symm

theorem Stands.made (hd : Orderly d root) (hmade : d.makeAll (directory root) = .ok e) : Stands d e root where
  orderly := hd.made hmade
  there := (Disk.makeAll_ok hmade).1
  same i hi := by
    by_cases there : d.find (directory root) = .ok .directory
    · rw [Except.ok.inj ((Disk.makeAll_self there).symm.trans hmade)]
    · -- the directory was not there, so neither was anything in it
      have hnone : file root i ∉ d.paths := fun hpath => there (hd.there _ hpath)
      have hnone' : file root i ∉ e.paths := fun hpath =>
        hnone (Disk.mem_names.mp (((Disk.makeAll_ok hmade).2 _).mp (Disk.mem_names.mpr hpath)))
      rw [(Disk.entry_eq_none (file_ne_nil root i)).mpr hnone, (Disk.entry_eq_none (file_ne_nil root i)).mpr hnone']

theorem Stands.drafted (h : Stands d e root) (n : Nat) (content : List UInt8) :
    Stands d (e.set (draft root n) (.file content)) root where
  orderly := h.orderly.set h.there fun i hi => by
    rw [indexOf?_draft] at hi
    cases hi
  there := Disk.find_set (draft_ne_nil root n) (not_on_the_way root _) h.there
  same i hi := by rw [Disk.look_set (draft_ne_nil root n), if_neg (file_ne_draft root hi n), h.same i hi]

/-- The checkpoint that stood in the draft is moved to its place. -/
theorem Stored.of_moved {c : Checkpoint} (h : Stands d e root) (hd : Orderly d root)
    (hmem : ∀ i, i ∈ found ↔ i ∈ numbers d root) (hc : c.index < bitBound 64)
    (hdraft : e.entry? (draft root c.index) = some (.file c.bytes)) {moved : Disk}
    (hmove : e.rename (draft root c.index) (file root c.index) = .ok moved) : Stored moved root c found [] [] := by
  obtain ⟨content, hread, rfl⟩ := Disk.rename_eq hmove
  obtain rfl : content = c.bytes := by
    have hentry := (Disk.read_concat h.there).mp hread
    cases hdraft.symm.trans hentry
    rfl
  have there' := Disk.find_drop (not_on_the_way root (fileName c.index ++ ".tmp")) h.there
  have horderly : Orderly ((e.drop (draft root c.index)).set (file root c.index) (.file c.bytes)) root :=
    (h.orderly.drop _).set there' fun i hi => by rw [Option.some.inj ((indexOf?_fileName hc).symm.trans hi)]
  have hnumbers (i : Nat) :
      i ∈ numbers ((e.drop (draft root c.index)).set (file root c.index) (.file c.bytes)) root ↔
        i ∈ found ++ [c.index] := by
    rw [horderly.mem_numbers_iff, Disk.mem_paths_set, Disk.mem_paths_drop, List.mem_append, List.mem_singleton,
      hmem, ← h.mem_numbers hd, h.orderly.mem_numbers_iff]
    constructor
    · rintro ⟨hi, hsame | hold⟩
      · exact .inr (file_injective hi hc hsame)
      · exact .inl ⟨hi, hold.1⟩
    · rintro (⟨hi, hold⟩ | rfl)
      · exact ⟨hi, .inr ⟨hold, file_ne_draft root hi _⟩⟩
      · exact ⟨hc, .inl rfl⟩
  exact {
    orderly := horderly
    there := Disk.find_set (file_ne_nil root _) (not_on_the_way root _) there'
    fresh := by rw [Disk.look_set (file_ne_nil root _), if_pos rfl]
    fewer := fun i hi => (hnumbers i).mp hi
    kept := fun i hi _ => (hnumbers i).mpr hi
    missed := nofun }

theorem Stored.removed {c : Checkpoint} {gone : List Nat} (h : Stored e root c found gone missed)
    (hi : i < bitBound 64) (hne : i ≠ c.index) (hc : c.index < bitBound 64) :
    Stored (e.drop (file root i)) root c found (gone ++ [i]) missed := by
  have horderly : Orderly (e.drop (file root i)) root := h.orderly.drop _
  have hnumbers (j : Nat) : j ∈ numbers (e.drop (file root i)) root ↔ j ∈ numbers e root ∧ j ≠ i := by
    rw [horderly.mem_numbers_iff, h.orderly.mem_numbers_iff, Disk.mem_paths_drop, and_assoc]
    refine and_congr_right fun hj => and_congr_right fun _ => not_congr ⟨file_injective hj hi, fun h => h ▸ rfl⟩
  exact {
    orderly := horderly
    there := Disk.find_drop (not_on_the_way root _) h.there
    fresh := by
      rw [Disk.look_drop (file_ne_nil root _), if_neg fun hsame => hne (file_injective hc hi hsame).symm, h.fresh]
    fewer := fun j hj => h.fewer j ((hnumbers j).mp hj).1
    kept := fun j hj hgone => by
      rw [List.mem_append, List.mem_singleton, not_or] at hgone
      exact (hnumbers j).mpr ⟨h.kept j hj hgone.1, hgone.2⟩
    missed := fun j hj hthere => by
      obtain ⟨hold, hother⟩ := (hnumbers j).mp hthere
      exact h.missed j ((List.mem_append.mp hj).resolve_right fun h => hother (List.mem_singleton.mp h)) hold }

theorem Stored.stayed {c : Checkpoint} {gone : List Nat} (h : Stored e root c found gone missed) (i : Nat) :
    Stored e root c found (gone ++ [i]) (missed ++ [i]) where
  orderly := h.orderly
  there := h.there
  fresh := h.fresh
  fewer := h.fewer
  kept j hj hgone := h.kept j hj fun h => hgone (List.mem_append_left _ h)
  missed j hj hthere := by
    rcases List.mem_append.mp hj with hj | hj
    · exact List.mem_append_left _ (h.missed j hj hthere)
    · exact List.mem_append_right _ hj

theorem nextIndex_lt (found : List Nat) : nextIndex found < bitBound 64 := by
  unfold nextIndex
  cases found.getLast? with
  | none => decide
  | some last => exact Nat.mod_lt _ (by decide)

/-! ### What is read on the way -/

theorem latest_of_indices (hfound : indices d root = .ok found) :
    latest d root = .ok (found.reverse.findSome? fun i => (load d root i).toOption) := by
  rw [latest, hfound]
  rfl

/-- The newest checkpoint is read as long as it can be. -/
theorem latest_of_load {last : Nat} {old : Checkpoint} (hfound : indices d root = .ok found)
    (hlast : found.getLast? = some last) (hload : load d root last = .ok old) : latest d root = .ok (some old) := by
  obtain ⟨front, rfl⟩ := List.getLast?_eq_some_iff.mp hlast
  rw [latest_of_indices hfound, List.reverse_concat, List.findSome?_cons, hload]
  rfl

theorem Stands.latest_same (h : Stands d e root) (hd : Orderly d root) (hfound : indices d root = .ok found) :
    latest e root = latest d root := by
  have hfound' := h.listed hd hfound
  by_cases hnone : found = []
  · rw [latest_of_indices hfound, latest_of_indices hfound', hnone]
    rfl
  · have there := (hd.of_indices hfound).2.2 hnone
    have hload (i : Nat) (c : Checkpoint) (hi : i < bitBound 64) : load e root i = .ok c ↔ load d root i = .ok c := by
      rw [load_iff there, load_iff h.there, h.same i hi]
    rcases latest_spec there with ⟨i, c, hlatest, hnewest⟩ | ⟨hlatest, hno⟩
    · rw [hlatest]
      exact latest_eq h.there ⟨hnewest.fits, (hload i c hnewest.fits).mpr hnewest.read,
        fun j c' hj hread => hnewest.last j c' hj ((hload j c' hj).mp hread)⟩
    · rw [hlatest]
      rcases latest_spec h.there with ⟨i, c, -, hnewest⟩ | ⟨hlatest', -⟩
      · exact absurd ((hload i c hnewest.fits).mp hnewest.read) (hno i c hnewest.fits)
      · exact hlatest'

theorem Stored.latest_new {c : Checkpoint} {gone : List Nat} (h : Stored e root c found gone missed)
    (hc : c.WellFormed) (holder : ∀ i ∈ found, i < c.index) : latest e root = .ok (some c) := by
  have hself := (load_iff h.there).mpr ⟨c.bytes, h.fresh, hc.ofBytes_bytes⟩
  refine latest_eq h.there ⟨hc.index, hself, fun j c' hj hread => ?_⟩
  rcases List.mem_append.mp (h.fewer j (mem_numbers_of_load h.there hj hread)) with hold | hself
  · exact Nat.le_of_lt (holder j hold)
  · exact Nat.le_of_eq (List.mem_singleton.mp hself)

/-- A directory in order, with what is found there, and a number left for the next checkpoint. -/
structure Ready (d : Disk) (root : Path) (found : List Nat) : Prop where
  orderly : Orderly d root
  listed : indices d root = .ok found
  room : bitBound 64 - 1 ∉ found

namespace Ready

variable (h : Ready d root found)
include h

theorem nextIndex_eq : nextIndex found = (found.getLast?.map (· + 1)).getD 1 := by
  unfold nextIndex
  cases hlast : found.getLast? with
  | none => rfl
  | some last =>
    have hin : last ∈ found := List.mem_of_getLast? hlast
    have hlt := lt_of_mem_numbers (((h.orderly.of_indices h.listed).2.1 last).mp hin)
    have hne : last ≠ bitBound 64 - 1 := fun heq => h.room (heq ▸ hin)
    exact Nat.mod_eq_of_lt (by omega)

theorem sorted : (found ++ [nextIndex found]).Pairwise (· < ·) := by
  have hsorted := (h.orderly.of_indices h.listed).1
  refine List.pairwise_append.mpr ⟨hsorted, List.pairwise_singleton _ _, fun i hi j hj => ?_⟩
  rw [List.mem_singleton.mp hj, h.nextIndex_eq]
  cases hlast : found.getLast? with
  | none =>
    rw [List.getLast?_eq_none_iff.mp hlast] at hi
    cases hi
  | some last =>
    obtain ⟨front, rfl⟩ := List.getLast?_eq_some_iff.mp hlast
    change i < last + 1
    rcases List.mem_append.mp hi with hi | hi
    · exact Nat.lt_succ_of_lt ((List.pairwise_append.mp hsorted).2.2 i hi last (List.mem_singleton_self _))
    · exact Nat.lt_succ_of_le (Nat.le_of_eq (List.mem_singleton.mp hi))

theorem lt_next (hi : i ∈ found) : i < nextIndex found :=
  (List.pairwise_append.mp h.sorted).2.2 i hi _ (List.mem_singleton_self _)

/-- Those that are removed are older checkpoints. -/
theorem of_surplus (hi : i ∈ surplus (found ++ [nextIndex found])) :
    i < bitBound 64 ∧ i ≠ nextIndex found := by
  have hin := mem_surplus hi
  exact ⟨lt_of_mem_numbers (((h.orderly.of_indices h.listed).2.1 i).mp hin), Nat.ne_of_lt (h.lt_next hin)⟩

/-- A step keeps what there is on the way. -/
theorem goes {a b : Stage × Disk} (hgo : Goes root c a b) (ha : Holds d root (c.next found) found a) :
    Holds d root (c.next found) found b := by
  cases hgo with
  | make hmade hfound =>
    obtain rfl := ha
    have hstands := Stands.made h.orderly hmade
    have hlisted := hstands.listed h.orderly h.listed
    exact ⟨Except.ok.inj (hfound.symm.trans hlisted), hstands⟩
  | part hwrite =>
    obtain ⟨rfl, hstands⟩ := ha
    rw [Disk.write_eq hwrite]
    exact ⟨rfl, hstands.drafted _ _⟩
  | write hwrite =>
    obtain ⟨rfl, hstands⟩ := ha
    rw [Disk.write_eq hwrite]
    exact ⟨rfl, hstands.drafted _ _, by rw [Disk.look_set (draft_ne_nil root _), next, if_pos rfl]⟩
  | move hmove =>
    obtain ⟨rfl, hstands, hdraft⟩ := ha
    exact ⟨[], rfl, .of_moved hstands h.orderly (h.orderly.of_indices h.listed).2.1 (nextIndex_lt _) hdraft hmove⟩
  | remove hremove =>
    obtain ⟨gone, hsurplus, hstored⟩ := ha
    obtain ⟨hi, hne⟩ := h.of_surplus (hsurplus ▸ List.mem_append_right gone List.mem_cons_self)
    rw [Disk.remove_eq hremove]
    exact ⟨gone ++ [_], by rw [hsurplus, List.append_assoc]; rfl, hstored.removed hi hne (nextIndex_lt found)⟩
  | keep =>
    obtain ⟨gone, hsurplus, hstored⟩ := ha
    exact ⟨gone ++ [_], by rw [hsurplus, List.append_assoc]; rfl, hstored.stayed _⟩

theorem reaches {b : Stage × Disk} (hrun : Reaches root c (.begun, d) b) : Holds d root (c.next found) found b := by
  induction hrun with
  | refl => rfl
  | tail _ hgo ih => exact h.goes hgo ih

/-- Each one that could not be removed was left, so without them only the last ten are there. -/
theorem indices_done (hdone : Stored e root (c.next found) found (surplus (found ++ [nextIndex found])) []) :
    indices e root = .ok ((found ++ [nextIndex found]).rtake retention) := by
  have hsplit := List.take_append_drop ((found ++ [nextIndex found]).length - retention) (found ++ [nextIndex found])
  have hsorted := h.sorted
  rw [← hsplit] at hsorted
  refine hdone.orderly.indices_of hdone.there (List.pairwise_append.mp hsorted).2.1 fun i => ?_
  constructor
  · intro hi
    refine hdone.kept i (List.mem_of_mem_drop hi) fun hgone => ?_
    exact Nat.lt_irrefl i ((List.pairwise_append.mp hsorted).2.2 i hgone i hi)
  · intro hi
    have hall : i ∈ found ++ [nextIndex found] := hdone.fewer i hi
    rw [← hsplit] at hall
    refine (List.mem_append.mp hall).resolve_left fun hgone => ?_
    cases hdone.missed i hgone hi

theorem orderly_stopped {b : Stage × Disk} (hb : Holds d root (c.next found) found b) : Orderly b.2 root := by
  obtain ⟨stage, e⟩ := b
  cases stage with
  | begun =>
    obtain rfl := hb
    exact h.orderly
  | drafting => exact hb.2.orderly
  | drafted => exact hb.2.1.orderly
  | pruning =>
    obtain ⟨gone, -, hstored⟩ := hb
    exact hstored.orderly

/-- At every stop the newest checkpoint is the same as before, or the new one. -/
theorem latest_stopped (hc : (c.next found).WellFormed) {b : Stage × Disk}
    (hb : Holds d root (c.next found) found b) :
    latest b.2 root = latest d root ∨ latest b.2 root = .ok (some (c.next found)) := by
  obtain ⟨stage, e⟩ := b
  cases stage with
  | begun =>
    obtain rfl := hb
    exact .inl rfl
  | drafting => exact .inl (hb.2.latest_same h.orderly h.listed)
  | drafted => exact .inl (hb.2.1.latest_same h.orderly h.listed)
  | pruning =>
    obtain ⟨gone, -, hstored⟩ := hb
    exact .inr (hstored.latest_new hc fun i hi => h.lt_next hi)

end Ready

/-! ### A whole run -/

/-- What cannot be removed cannot be removed after others were, either. -/
theorem removals_unremovable (there : d.find (directory root) = .ok .directory) (gone : List Nat)
    (h : ∃ f, d.remove (file root i) = .error f) :
    ∃ f, (gone.foldl (fun d i => ((d.remove (file root i)).toOption).getD d) d).remove (file root i) = .error f := by
  have hdrop (e : Disk) (j : Nat) (_ : j ∈ gone) (he : e.find (directory root) = .ok .directory ∧
      ∀ content, e.entry? (file root i) ≠ some (.file content)) :
      (e.drop (file root j)).find (directory root) = .ok .directory ∧
        ∀ content, Disk.entry? (e.drop (file root j)) (file root i) ≠ some (.file content) := by
    refine ⟨Disk.find_drop (not_on_the_way root _) he.1, fun content hcontent => ?_⟩
    rw [Disk.look_drop (file_ne_nil root i)] at hcontent
    split at hcontent
    · cases hcontent
    · exact he.2 content hcontent
  have hkept := removals_keep gone hdrop ⟨there, (Disk.remove_error_iff there _).mp h⟩
  exact (Disk.remove_error_iff hkept.1 _).mpr hkept.2

/-- What is removed one after the other is removed in steps, and what is missed cannot be removed. -/
theorem prune_reaches (there : d.find (directory root) = .ok .directory) (left missed : List Nat) :
    let e := left.foldl (fun d i => ((d.remove (file root i)).toOption).getD d) d
    ∃ more, Reaches root c (.pruning left missed, d) (.pruning [] (missed ++ more), e) ∧
      ∀ i ∈ more, i ∈ left ∧ ∃ f, e.remove (file root i) = .error f := by
  induction left generalizing d missed with
  | nil => exact ⟨[], by rw [List.append_nil]; exact .refl, nofun⟩
  | cons i left ih =>
    dsimp only [List.foldl_cons]
    cases hremove : d.remove (file root i) with
    | ok e =>
      have there' : e.find (directory root) = .ok .directory :=
        Disk.remove_eq hremove ▸ Disk.find_drop (not_on_the_way root _) there
      obtain ⟨more, hrun, hmore⟩ := ih there' missed
      exact ⟨more, .head (.remove hremove) hrun, fun j hj => (hmore j hj).imp_left (List.mem_cons_of_mem i)⟩
    | error f =>
      obtain ⟨more, hrun, hmore⟩ := ih there (missed ++ [i])
      rw [List.append_assoc] at hrun
      refine ⟨i :: more, .head .keep hrun, fun j hj => ?_⟩
      rcases List.mem_cons.mp hj with rfl | hj
      · exact ⟨List.mem_cons_self, removals_unremovable there left ⟨f, hremove⟩⟩
      · exact (hmore j hj).imp_left (List.mem_cons_of_mem i)

theorem append_reaches (h : Ready d root found) (c : Checkpoint) :
    let result := append d root c.sessionId c.status c.state c.error c.createdAt
    ∃ stage, Reaches root c (.begun, d) (stage, result.2) ∧ ∀ c', result.1 = .ok c' → c' = c.next found ∧
      ∃ missed, stage = .pruning [] missed ∧ ∀ i ∈ missed, i ∈ surplus (found ++ [nextIndex found]) ∧
        ∃ f, result.2.remove (file root i) = .error f := by
  unfold append
  cases hmade : d.makeAll (directory root) with
  | error f => exact ⟨.begun, .refl, nofun⟩
  | ok made =>
    have hstands := Stands.made h.orderly hmade
    have hlisted := hstands.listed h.orderly h.listed
    have hmake : Goes root c (.begun, d) (.drafting found, made) := .make hmade hlisted
    simp only [hlisted]
    unfold place
    cases hwrite : made.write (draft root (nextIndex found)) (c.next found).bytes with
    | error f =>
      rw [next] at hwrite
      simp only [hwrite]
      exact ⟨_, .single hmake, nofun⟩
    | ok written =>
      have hdraft : Goes root c (.drafting found, made) (.drafted found, written) := .write hwrite
      rw [next] at hwrite
      simp only [hwrite]
      cases hmove : written.rename (draft root (nextIndex found)) (file root (nextIndex found)) with
      | error f => exact ⟨_, .tail (.single hmake) hdraft, nofun⟩
      | ok moved =>
        have hmoving : Goes root c (.drafted found, written) _ := .move hmove
        have hstored : Holds d root (c.next found) found _ :=
          h.reaches (.tail (.tail (.single hmake) hdraft) hmoving)
        obtain ⟨_, -, hstored⟩ := hstored
        obtain ⟨missed, hrun, hmissed⟩ :=
          prune_reaches (c := c) hstored.there (surplus (found ++ [nextIndex found])) []
        refine ⟨_, .trans (.tail (.tail (.single hmake) hdraft) hmoving) hrun, fun c' hc' => ?_⟩
        exact ⟨(Except.ok.inj hc').symm, missed, rfl, hmissed⟩

/-- While a session's next checkpoint is saved, one may stop at any step: then the newest checkpoint that can be
read is the one it was before, or the new one, and the directory is in order for the next try. If nothing that should
be removed was missed, the ten largest of the indices and the new one remain. -/
theorem stopping_keeps_the_newest (h : Orderly d root) (hfound : indices d root = .ok found)
    (hroom : bitBound 64 - 1 ∉ found) (hstep : c.state.step < bitBound 64) (hstamped : c.createdAt.Stamped) :
    let all := found ++ [(found.getLast?.map (· + 1)).getD 1]
    let new := { c with index := (found.getLast?.map (· + 1)).getD 1 }
    let result := append d root c.sessionId c.status c.state c.error c.createdAt
    (∀ stage e, Reaches root c (.begun, d) (stage, e) → Orderly e root ∧
      (latest e root = latest d root ∨ latest e root = .ok (some new)) ∧
      ∀ last old, found.getLast? = some last → load d root last = .ok old →
        latest e root = .ok (some old) ∨ latest e root = .ok (some new)) ∧
    (∀ e, Reaches root c (.begun, d) (.pruning [] [], e) → indices e root = .ok (all.rtake 10)) ∧
    all.Pairwise (· < ·) ∧
    ∃ stage, Reaches root c (.begun, d) (stage, result.2) ∧ ∀ c', result.1 = .ok c' → c' = new ∧
      ∃ missed, stage = .pruning [] missed ∧ ∀ i ∈ missed, i ∈ all.take (all.length - 10) ∧
        ∃ f, result.2.remove (file root i) = .error f := by
  have hready : Ready d root found := ⟨h, hfound, hroom⟩
  have hwell : (c.next found).WellFormed := ⟨nextIndex_lt found, hstep, hstamped⟩
  intro all new result
  have hnew : c.next found = new := by
    unfold next
    rw [hready.nextIndex_eq]
  have hall : found ++ [nextIndex found] = all := by rw [hready.nextIndex_eq]
  refine ⟨fun stage e hrun => ?_, fun e hrun => ?_, hall ▸ hready.sorted, hall ▸ hnew ▸ append_reaches hready c⟩
  · have hholds := hready.reaches hrun
    have hlatest := hready.latest_stopped hwell hholds
    rw [hnew] at hlatest
    refine ⟨hready.orderly_stopped hholds, hlatest, fun last old hlast hload => ?_⟩
    rwa [latest_of_load hfound hlast hload] at hlatest
  · obtain ⟨gone, hgone, hstored⟩ := hready.reaches hrun
    rw [List.append_nil] at hgone
    subst hgone
    rw [← hall]
    exact hready.indices_done hstored

/-- Beside a file that cannot be read stands a checkpoint that can, and the next one is saved, with a stop or
without. -/
theorem saved_beside_a_broken_file :
    let root : Path := ["s"]
    let old : Checkpoint := ⟨"s", 3, .completed, { messages := [.user "old"] }, none, ⟨0, 0⟩⟩
    let new := { old with index := 4 }
    let d : Disk := ⟨[(root, .directory), (directory root, .directory), (file root 2, .file [123]),
      (file root 3, .file old.bytes)]⟩
    let result := append d root old.sessionId old.status old.state old.error old.createdAt
    Orderly d root ∧ indices d root = .ok [2, 3] ∧ latest d root = .ok (some old) ∧
      (∀ stage e, Reaches root old (.begun, d) (stage, e) →
        latest e root = .ok (some old) ∨ latest e root = .ok (some new)) ∧
      result.1 = .ok new ∧ indices result.2 root = .ok [2, 3, 4] := by
  intro root old new d result
  have hnames (name : String) (h : directory root ++ [name] ∈ d.paths) : name = fileName 2 ∨ name = fileName 3 := by
    simpa [d, root, Disk.paths, file, directory] using h
  have horderly : Orderly d root := by
    refine ⟨by decide +kernel, fun _ _ => by decide +kernel, fun name i hpath hindex => ?_⟩
    rcases hnames name hpath with rfl | rfl
    · rw [Option.some.inj ((indexOf?_fileName (by decide)).symm.trans hindex)]
    · rw [Option.some.inj ((indexOf?_fileName (by decide)).symm.trans hindex)]
  have there : d.find (directory root) = .ok .directory := by decide +kernel
  have hfound : indices d root = .ok [2, 3] := by
    refine horderly.indices_of there (by decide) fun i => ?_
    have hnumbers : numbers d root = [2, 3] := by decide +kernel
    rw [hnumbers]
  have hstamped : old.createdAt.Stamped := by decide +kernel
  have hwell : old.WellFormed := ⟨by decide, by decide, hstamped⟩
  have hload : load d root 3 = .ok old := (load_iff there).mpr ⟨old.bytes, rfl, hwell.ofBytes_bytes⟩
  have hlatest := latest_of_load hfound rfl hload
  obtain ⟨hstops, hdone, -, stage, hrun, hended⟩ := stopping_keeps_the_newest (c := old) horderly hfound (by decide)
    (by decide) hstamped
  have hresult : result.1 = .ok new := by
    have hmade : d.makeAll (directory root) = .ok d := Disk.makeAll_self there
    have hplaced : (place d root new).1 = .ok () := by decide +kernel
    have hnext : Checkpoint.mk old.sessionId (nextIndex [2, 3]) old.status old.state old.error old.createdAt = new :=
      rfl
    change (append d root _ _ _ _ _).1 = _
    unfold append
    simp only [hmade, hfound, hnext]
    generalize place d root new = placed at hplaced
    obtain ⟨outcome, e⟩ := placed
    obtain rfl : outcome = .ok () := hplaced
    rfl
  -- there is nothing to be removed, so nothing is missed
  obtain ⟨-, missed, rfl, hmissed⟩ := hended new hresult
  obtain rfl : missed = [] := List.eq_nil_iff_forall_not_mem.mpr fun i hi => by
    cases (hmissed i hi).1
  refine ⟨horderly, hfound, hlatest, fun stage e hrun => (hstops stage e hrun).2.2 3 old rfl hload, hresult, ?_⟩
  rw [hdone _ hrun]
  rfl

end Graph.Checkpoint

end Fleet
