import Fleet.Control.Router
import Fleet.Graph.Session
import Fleet.Proofs.Graph.Files

/-!
Texts as names on a disk. A text that is joined to a path may lead to the root, up, or down by several names; the
texts that are taken as names of sessions and of skills, and the names of checkpoints, lead down by exactly one.
-/

namespace Fleet

/-- Goes on by one part of a text: nothing and a point stay, two points lead up, and a name leads down. -/
def Path.part (p : Path) (cs : List Char) : Path :=
  if cs = [] ∨ cs = ['.'] then p else if cs = ['.', '.'] then p.dropLast else p ++ [String.ofList cs]

/-- Where a text leads from a path. Its parts stand between bars, and a bar in front leads to the root. -/
def Path.join (p : Path) (text : String) : Path :=
  (text.toList.splitOn '/').foldl Path.part (if text.toList.head? = some '/' then [] else p)

/-- A text that is the name of one thing in a directory. -/
def IsPlain (text : String) : Prop :=
  text.toList ≠ [] ∧ text.toList ≠ ['.'] ∧ text.toList ≠ ['.', '.'] ∧ '/' ∉ text.toList

instance (text : String) : Decidable (IsPlain text) := inferInstanceAs (Decidable (_ ∧ _ ∧ _ ∧ _))

variable {text : String} {c : Char}

theorem IsPlain.join (h : IsPlain text) (p : Path) : p.join text = p ++ [text] := by
  obtain ⟨hne, hpoint, hpoints, hbar⟩ := h
  have hfirst : text.toList.head? ≠ some '/' := fun hhead => hbar (List.mem_of_mem_head? hhead)
  have hparts : text.toList.splitOn '/' = [text.toList] :=
    List.splitOnP_eq_singleton fun c hc => beq_false_of_ne fun hsame => hbar (hsame ▸ hc)
  rw [Path.join, hparts, if_neg hfirst, List.foldl_cons, List.foldl_nil, Path.part, if_neg (by simp [hne, hpoint]),
    if_neg hpoints, String.ofList_toList]

/-- Two plain names never lead to the same place. -/
theorem IsPlain.join_injective {other : String} (h : IsPlain text) (h' : IsPlain other) {p : Path}
    (hsame : p.join text = p.join other) : text = other := by
  rw [h.join, h'.join] at hsame
  simpa using hsame

/-- A text without bars whose first character is no point is a plain name. -/
theorem isPlain_of_head {cs : List Char} (htext : text.toList = c :: cs) (hpoint : c ≠ '.')
    (hbar : '/' ∉ text.toList) : IsPlain text := by
  rw [IsPlain, htext]
  refine ⟨List.cons_ne_nil c cs, ?_, ?_, htext ▸ hbar⟩ <;> exact fun h => hpoint (List.cons.inj h).1

theorem isPlain_sessionId (h : isSessionId text = true) : IsPlain text := by
  simp only [isSessionId, Bool.and_eq_true, Bool.not_eq_true', List.all_eq_true] at h
  obtain ⟨⟨hne, -⟩, hchars⟩ := h
  cases htext : text.toList with
  | nil =>
    rw [String.toList_eq_nil_iff.mp htext] at hne
    cases hne
  | cons c cs =>
    refine isPlain_of_head htext ?_ fun hbar => ?_
    · rintro rfl
      have := hchars '.' (htext ▸ List.mem_cons_self)
      revert this
      decide
    · have := hchars '/' hbar
      revert this
      decide

theorem isPlain_skillName (h : Control.SkillPackage.isName text = true) : IsPlain text := by
  unfold Control.SkillPackage.isName at h
  split at h
  · cases h
  · rename_i c cs htext
    simp only [Bool.and_eq_true, decide_eq_true_eq, List.all_eq_true] at h
    refine isPlain_of_head htext h.1 fun hbar => ?_
    have := h.2 '/' (htext ▸ hbar)
    revert this
    decide

/-! ### The names of a session -/

namespace Graph

/-- The directory of a session is where its three names lead. -/
theorem sessionRoot_eq_join (workspace : Path) (h : isSessionId text = true) :
    sessionRoot workspace text = ((workspace.join ".semibot").join "sessions").join text := by
  have hhome : IsPlain ".semibot" := by decide
  have hsessions : IsPlain "sessions" := by decide
  rw [(isPlain_sessionId h).join, hsessions.join, hhome.join, sessionRoot, List.append_assoc, List.append_assoc]
  rfl

namespace Checkpoint

/-- A checkpoint's name begins with a digit and ends as its kind does. -/
theorem isPlain_fileName_append (i : Nat) {kind : String} (hkind : '/' ∉ kind.toList) :
    IsPlain (fileName i ++ kind) := by
  have hne : pad (Nat.toDigits 10 i) ≠ [] := List.append_ne_nil_of_right_ne_nil _ Nat.toDigits_ne_nil
  obtain ⟨c, cs, hpad⟩ := List.exists_cons_of_ne_nil hne
  have htext : (fileName i ++ kind).toList = c :: (cs ++ (".json".toList ++ kind.toList)) := by
    rw [String.toList_append, toList_fileName, hpad, List.append_assoc]
    rfl
  have hnot {x : Char} (hx : x.isDigit = false) : x ∉ c :: cs := fun hmem => by
    rw [pad_digits i x (hpad ▸ hmem)] at hx
    cases hx
  refine isPlain_of_head htext (fun hpoint => ?_) fun hbar => ?_
  · exact hnot (x := '.') (by decide) (hpoint ▸ List.mem_cons_self)
  · rw [htext, ← List.cons_append, List.mem_append, List.mem_append] at hbar
    rcases hbar with hbar | hbar | hbar
    · exact hnot (by decide) hbar
    · revert hbar
      decide
    · exact hkind hbar

/-- The paths of a session's checkpoints are where their names lead from its directory. -/
theorem paths_eq_join (root : Path) (i : Nat) : directory root = root.join "checkpoints" ∧
    file root i = (directory root).join (fileName i) ∧
    draft root i = (directory root).join (fileName i ++ ".tmp") := by
  have hdirectory : IsPlain "checkpoints" := by decide
  have hfile : IsPlain (fileName i) := by
    have hplain : IsPlain (fileName i ++ "") := isPlain_fileName_append i (by decide)
    rwa [String.append_empty] at hplain
  exact ⟨(hdirectory.join root).symm, (hfile.join _).symm, ((isPlain_fileName_append i (by decide)).join _).symm⟩

end Checkpoint

end Graph

end Fleet
