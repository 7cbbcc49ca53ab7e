import Mathlib.Data.List.Basic

/-!
Where something stands in a log that was continued.
-/

namespace Fleet

variable {α : Type} {log more before after : List α} {x e : α}

/-- What stands in a continued log stood there before or is among what is new. -/
theorem append_split (h : log ++ more = before ++ x :: after) :
    (∃ rest, log = before ++ x :: rest ∧ after = rest ++ more) ∨
      ∃ front, before = log ++ front ∧ more = front ++ x :: after := by
  obtain ⟨front, rfl, rfl⟩ | ⟨rest, rfl, hrest⟩ := List.append_eq_append_iff.mp h
  · exact .inr ⟨front, rfl, rfl⟩
  · cases rest with
    | nil => exact .inr ⟨[], by simp, by simpa using hrest.symm⟩
    | cons y rest =>
      obtain ⟨rfl, rfl⟩ := List.cons.inj hrest
      exact .inl ⟨rest, rfl, rfl⟩

/-- The same when only one thing is new. -/
theorem concat_split (h : log ++ [e] = before ++ x :: after) :
    (∃ rest, log = before ++ x :: rest ∧ after = rest ++ [e]) ∨ before = log ∧ x = e ∧ after = [] := by
  refine (append_split h).imp_right ?_
  rintro ⟨front, rfl, hfront⟩
  obtain ⟨rfl, hcons⟩ := List.append_eq_singleton_iff.mp hfront.symm |>.resolve_right (by simp)
  obtain ⟨rfl, rfl⟩ := List.cons.inj hcons
  exact ⟨List.append_nil _, rfl, rfl⟩

end Fleet
