import Fleet.Proofs.Graph.Contents

/-!
The names of checkpoints and their indices. The name of an index gives the index, and a name that gives an index is
that index's own, unless it has zeros in front that the index does not need: then no index leads to the file, and
it is neither read nor removed.
-/

namespace Fleet.Graph.Checkpoint

variable {d : Disk} {root : Path} {name : String} {i j : Nat} {cs ds : List Char} {c : Char}
  {content : List UInt8}

/-! ### Numbers -/

theorem number_cons (c : Char) (cs : List Char) :
    number (c :: cs) = 10 ^ cs.length * (c.toNat - 48) + number cs := by
  have hinit : number (c :: cs) = Nat.ofDigitChars 10 cs (10 * 0 + (c.toNat - 48)) := rfl
  rw [hinit, Nat.ofDigitChars_eq_ofDigitChars_zero, Nat.mul_zero, Nat.zero_add]
  rfl

theorem digit_bounds (h : c.isDigit = true) : 48 ≤ c.toNat ∧ c.toNat ≤ 57 := by
  simp only [Char.isDigit, Bool.and_eq_true, decide_eq_true_eq] at h
  exact h

theorem number_lt (hcs : ∀ c ∈ cs, c.isDigit = true) : number cs < 10 ^ cs.length := by
  induction cs with
  | nil => decide
  | cons c cs ih =>
    have hrest := ih fun x hx => hcs x (List.mem_cons_of_mem c hx)
    have hc := digit_bounds (hcs c List.mem_cons_self)
    calc number (c :: cs) = 10 ^ cs.length * (c.toNat - 48) + number cs := number_cons c cs
      _ < 10 ^ cs.length * (c.toNat - 48) + 10 ^ cs.length := Nat.add_lt_add_left hrest _
      _ = 10 ^ cs.length * (c.toNat - 48 + 1) := (Nat.mul_succ _ _).symm
      _ ≤ 10 ^ cs.length * 10 := Nat.mul_le_mul_left _ (by omega)

/-- Of two numbers with as many digits the first digits count most. -/
theorem number_injective (hcs : ∀ c ∈ cs, c.isDigit = true) (hds : ∀ c ∈ ds, c.isDigit = true)
    (hlength : cs.length = ds.length) (h : number cs = number ds) : cs = ds := by
  induction cs generalizing ds with
  | nil => exact (List.length_eq_zero_iff.mp hlength.symm).symm
  | cons c cs ih =>
    cases ds with
    | nil => cases hlength
    | cons x ds =>
      have htails : cs.length = ds.length := Nat.succ.inj hlength
      have hc := digit_bounds (hcs c List.mem_cons_self)
      have hx := digit_bounds (hds x List.mem_cons_self)
      have hcs' := fun y hy => hcs y (List.mem_cons_of_mem c hy)
      have hds' := fun y hy => hds y (List.mem_cons_of_mem x hy)
      rw [number_cons, number_cons, htails] at h
      have hlow := htails ▸ number_lt hcs'
      have hhigh := congrArg (· / 10 ^ ds.length) h
      simp only [Nat.mul_add_div (Nat.pow_pos (show 0 < 10 by decide)), Nat.div_eq_of_lt hlow,
        Nat.div_eq_of_lt (number_lt hds'), Nat.add_zero] at hhigh
      obtain rfl : c = x := Char.toNat_inj.mp (by omega)
      rw [ih hcs' hds' htails (Nat.add_left_cancel h)]

theorem length_pad (cs : List Char) : (pad cs).length = max 8 cs.length := by
  unfold pad
  rw [List.length_append, List.length_replicate]
  omega

/-- Digits are those that are written for their number if there are as many of them. -/
theorem pad_number_of_length (hcs : ∀ c ∈ cs, c.isDigit = true)
    (h : max 8 (Nat.toDigits 10 (number cs)).length = cs.length) :
    pad (Nat.toDigits 10 (number cs)) = cs :=
  number_injective (pad_digits _) hcs ((length_pad _).trans h) (number_pad _)

/-- Eight digits or more are those that are written for their number, unless there are more and a zero comes
first. -/
theorem pad_number_iff (hcs : ∀ c ∈ cs, c.isDigit = true) (hlong : 8 ≤ cs.length) :
    pad (Nat.toDigits 10 (number cs)) = cs ↔ ¬ (8 < cs.length ∧ cs.head? = some '0') := by
  have hfits {k : Nat} (hk : 0 < k) :
      (Nat.toDigits 10 (number cs)).length ≤ k ↔ number cs < 10 ^ k :=
    Nat.length_toDigits_le_iff (by decide) hk
  have hat_most := (hfits (by omega)).mpr (number_lt hcs)
  constructor
  · rintro h ⟨hmore, hzero⟩
    obtain ⟨rest, rfl⟩ : ∃ rest, cs = '0' :: rest := List.head?_eq_some_iff.mp hzero
    have hrest := number_lt fun x hx => hcs x (List.mem_cons_of_mem '0' hx)
    have hsame : number ('0' :: rest) = number rest := by simp [number_cons]
    rw [List.length_cons] at hmore
    have hshort := (hfits (k := rest.length) (by omega)).mpr (hsame ▸ hrest)
    have hlength := congrArg List.length h
    rw [length_pad, List.length_cons] at hlength
    omega
  · intro hnot
    apply pad_number_of_length hcs
    rcases Nat.eq_or_lt_of_le hlong with height | hmore
    · omega
    · obtain ⟨c, rest, rfl⟩ := List.exists_cons_of_length_pos (Nat.zero_lt_of_lt hmore)
      have hc := digit_bounds (hcs c List.mem_cons_self)
      have hne : c ≠ '0' := by
        rintro rfl
        exact hnot ⟨hmore, rfl⟩
      have hfirst : 1 ≤ c.toNat - 48 := by
        have : c.toNat ≠ '0'.toNat := fun h => hne (Char.toNat_inj.mp h)
        have : '0'.toNat = 48 := rfl
        omega
      have hlarge : 10 ^ rest.length ≤ number (c :: rest) := by
        rw [number_cons]
        exact Nat.le_trans (Nat.le_mul_of_pos_right _ hfirst) (Nat.le_add_right _ _)
      rw [List.length_cons] at hmore hat_most ⊢
      have hlong := mt (hfits (k := rest.length) (by omega)).mp (Nat.not_lt.mpr hlarge)
      omega

/-! ### Names -/

/-- A name with zeros in front that its index does not need. -/
def Overlong (name : String) : Prop := 13 < name.toList.length ∧ name.toList.head? = some '0'

instance (name : String) : Decidable (Overlong name) :=
  inferInstanceAs (Decidable (_ ∧ _))

/-- A name gives an index through its digits. -/
theorem indexOf?_eq_some (h : indexOf? name = some i) : i < bitBound 64 ∧
    ∃ stem, name.toList = stem ++ ".json".toList ∧ 8 ≤ stem.length ∧ (∀ c ∈ stem, c.isDigit = true) ∧
      number stem = i := by
  unfold indexOf? at h
  dsimp only at h
  split at h
  · rename_i hname
    split at h
    · rename_i hlt
      cases h
      obtain ⟨hsuffix, hlong, hdigits⟩ := hname
      refine ⟨hlt, _, ?_, hlong, List.all_eq_true.mp hdigits, rfl⟩
      rw [← hsuffix, List.take_append_drop]
    · cases h
  · cases h

theorem fileName_injective (h : fileName i = fileName j) : i = j := by
  have hpad : pad (Nat.toDigits 10 i) = pad (Nat.toDigits 10 j) := by
    have hlist := congrArg String.toList h
    rw [toList_fileName, toList_fileName] at hlist
    exact List.append_cancel_right hlist
  rw [← number_pad i, hpad, number_pad]

/-- A name that gives an index is that index's own name just when it has no zeros too many. -/
theorem eq_fileName_iff (h : indexOf? name = some i) : name = fileName i ↔ ¬ Overlong name := by
  obtain ⟨-, stem, hname, hlong, hdigits, rfl⟩ := indexOf?_eq_some h
  have hover : Overlong name ↔ 8 < stem.length ∧ stem.head? = some '0' := by
    obtain ⟨c, rest, rfl⟩ := List.exists_cons_of_length_pos (Nat.lt_of_lt_of_le (by decide) hlong)
    have hlength : (".json".toList).length = 5 := rfl
    rw [Overlong, hname, List.length_append, hlength]
    exact and_congr (by omega) Iff.rfl
  rw [hover, ← pad_number_iff hdigits hlong, ← String.toList_inj, toList_fileName, hname,
    List.append_left_inj]
  exact eq_comm

/-- A name with zeros too many is the name of no index. -/
theorem ne_fileName_of_overlong (h : indexOf? name = some i) (hover : Overlong name) (j : Nat) :
    name ≠ fileName j := by
  rintro rfl
  obtain ⟨-, stem, hname, -, -, rfl⟩ := indexOf?_eq_some h
  rw [toList_fileName] at hname
  rw [← List.append_cancel_right hname, number_pad] at h
  exact (eq_fileName_iff h).mp rfl hover

/-! ### Files -/

/-- A file whose index is one of those that are removed goes. -/
theorem removals_reach {gone : List Nat} (there : d.find (directory root) = .ok .directory)
    (hfile : d.entry? (file root i) = some (.file content)) (hi : i ∈ gone) :
    Disk.entry? (gone.foldl (fun d i => ((d.remove (file root i)).toOption).getD d) d) (file root i) = none := by
  have hnil (j : Nat) : file root j ≠ [] := by simp [file]
  induction gone generalizing d with
  | nil => cases hi
  | cons j rest ih =>
    rw [List.foldl_cons]
    by_cases hj : j = i
    · subst hj
      have hremove : d.remove (file root j) = .ok (d.drop (file root j)) := by
        have hfound : d.find (file root j) = .ok (.file content) := by
          rw [file, Disk.find_concat there, ← file, hfile]
        rw [Disk.remove, hfound]
        rfl
      have hgone : Disk.entry? (d.drop (file root j)) (file root j) = none := by
        rw [Disk.look_drop (hnil j), if_pos rfl]
      rw [hremove]
      refine removals_keep (P := fun e => e.entry? (file root j) = none) rest (fun e k _ he => ?_) hgone
      rw [Disk.look_drop (hnil j)]
      split
      · rfl
      · exact he
    · have hrest := (List.mem_cons.mp hi).resolve_left (Ne.symm hj)
      have hne : file root i ≠ file root j := fun hsame =>
        hj (fileName_injective (by simpa [file] using hsame.symm))
      cases hremove : d.remove (file root j) with
      | error f => exact ih there hfile hrest
      | ok e =>
        rw [show (Except.ok e : Except Disk.Failure Disk).toOption.getD d = e from rfl, Disk.remove_eq hremove]
        refine ih (Disk.find_drop (not_on_the_way root _) there) ?_ hrest
        rw [Disk.look_drop (hnil i), if_neg hne, hfile]

/-- What is in a session's directory under the name of no index stays there. -/
theorem prune_spares (hname : ∀ j, name ≠ fileName j) (found : List Nat) :
    Disk.entry? (prune d root found) (directory root ++ [name]) = d.entry? (directory root ++ [name]) := by
  refine removals_keep (P := fun e => e.entry? (directory root ++ [name]) =
    d.entry? (directory root ++ [name])) (surplus found) (fun e j _ he => ?_) rfl
  have hne : directory root ++ [name] ≠ file root j := fun hsame =>
    hname j (by simpa [file] using hsame)
  rw [Disk.look_drop (by simp), if_neg hne, he]

/-- A file that is reported under an index is the one that is read and removed under it, and has the index's own
name, just when its name has no zeros too many; else it is never removed, and the index may lead nowhere. -/
theorem reported_file_is_reached_iff (name : String) (i : Nat) :
    (i < bitBound 64 → indexOf? (fileName i) = some i) ∧
    (∀ j, fileName i = fileName j → i = j) ∧
    (indexOf? name = some i → (name = fileName i ↔ ¬ Overlong name) ∧
      ∀ d root content, d.find (directory root) = .ok .directory →
        d.entry? (directory root ++ [name]) = some (.file content) →
        (∃ found, indices d root = .ok found ∧ i ∈ found) ∧
        (¬ Overlong name → d.read (file root i) = .ok content ∧
          ∀ found, i ∈ surplus found → Disk.entry? (prune d root found) (directory root ++ [name]) = none) ∧
        (Overlong name →
          (d.entry? (file root i) = none → load d root i = .error Disk.Failure.notFound.toError) ∧
          ∀ found, Disk.entry? (prune d root found) (directory root ++ [name]) = some (.file content))) := by
  refine ⟨indexOf?_fileName, fun j => fileName_injective, fun h => ⟨eq_fileName_iff h, ?_⟩⟩
  intro d root content there hentry
  refine ⟨⟨_, indices_eq there, List.mem_mergeSort.mpr ?_⟩, fun hnot => ?_,
    fun hover => ⟨fun hnone => ?_, fun found => ?_⟩⟩
  · exact mem_numbers.mpr ⟨name, Disk.mem_paths_of_entry (by simp) hentry, h⟩
  · obtain rfl := (eq_fileName_iff h).mpr hnot
    exact ⟨(Disk.read_concat there).mpr hentry, fun found hi => removals_reach there hentry hi⟩
  · have hread : d.read (file root i) = .error .notFound := by
      rw [Disk.read, file, Disk.find_concat there, ← file, hnone]
    rw [load, hread]
    rfl
  · rw [prune_spares (ne_fileName_of_overlong h hover), hentry]

/-- A session's directory with an empty file of this name. -/
def shelf (name : String) : Disk :=
  ⟨[(["s"], .directory), (["s", "checkpoints"], .directory), (["s", "checkpoints", name], .file [])]⟩

/-- An index of nine digits needs them all. -/
theorem file_of_nine_digits_is_reached :
    let d := shelf "100000000.json"
    indexOf? "100000000.json" = some 100000000 ∧ ¬ Overlong "100000000.json" ∧
      d.read (file ["s"] 100000000) = .ok [] ∧
      100000000 ∈ surplus (List.range' 100000000 11) ∧
      Disk.entry? (prune d ["s"] (List.range' 100000000 11)) (directory ["s"] ++ ["100000000.json"]) = none := by
  intro d
  have hindex : indexOf? "100000000.json" = some 100000000 := by decide +kernel
  have hneeded : ¬ Overlong "100000000.json" := by decide
  have hsurplus : 100000000 ∈ surplus (List.range' 100000000 11) := by decide
  obtain ⟨-, hreached⟩ := (reported_file_is_reached_iff "100000000.json" 100000000).2.2 hindex
  obtain ⟨-, hfile, -⟩ := hreached d ["s"] [] (by decide) (by decide)
  obtain ⟨hread, hpruned⟩ := hfile hneeded
  exact ⟨hindex, hneeded, hread, hsurplus, hpruned _ hsurplus⟩

/-- A ninth digit in front hides a file: its index is reported and leads nowhere. -/
theorem file_with_nine_digits_is_not_reached :
    let d := shelf "000000012.json"
    indexOf? "000000012.json" = some 12 ∧ fileName 12 ≠ "000000012.json" ∧
      indices d ["s"] = .ok [12] ∧ load d ["s"] 12 = .error Disk.Failure.notFound.toError := by
  decide +kernel

end Fleet.Graph.Checkpoint
