import Mathlib.Data.List.Basic
import Mathlib.Data.List.Nodup

/-!
Tables as lists of names with what stands under them, or of what stands at each place; and the index of
a table, which lists by name the places of those that have one.
-/

namespace Fleet

/-- Where one place was changed, what is found there is new and what is found elsewhere is old. -/
theorem getElem?_set_cases {α : Type} {xs : List α} {i k : Nat} {x y z : α} (there : xs[i]? = some x)
    (h : (xs.set i y)[k]? = some z) : (k = i ∧ z = y) ∨ (k ≠ i ∧ xs[k]? = some z) := by
  by_cases hk : k = i
  · subst hk
    rw [List.getElem?_set_self (List.getElem?_eq_some_iff.mp there).1] at h
    exact .inl ⟨rfl, (Option.some.inj h).symm⟩
  · rw [List.getElem?_set_ne (Ne.symm hk)] at h
    exact .inr ⟨hk, h⟩

/-- What a change leaves alone is as it was at every place. -/
theorem map_modify_of_eq {α β : Type} {f : α → β} {g : α → α} (h : ∀ a, f (g a) = f a)
    (xs : List α) (k : Nat) : (xs.modify k g).map f = xs.map f := by
  apply List.ext_getElem?
  intro i
  by_cases hi : k = i <;> cases hx : xs[i]? <;> simp [hi, hx, h]

/-- A change matters by what it makes of what is there. -/
theorem modify_congr {α : Type} {xs : List α} {k : Nat} {x : α} {f g : α → α} (hx : xs[k]? = some x)
    (h : f x = g x) : xs.modify k f = xs.modify k g := by
  apply List.ext_getElem?
  intro i
  by_cases hi : k = i
  · subst hi
    simp [hx, h]
  · simp [hi]

/-- A change that leaves what is picked of a place leaves what is picked of all. -/
theorem filterMap_set {α β : Type} {f : α → Option β} {l : List α} {n : Nat} {a b : α}
    (hn : l[n]? = some a) (hf : f b = f a) : (l.set n b).filterMap f = l.filterMap f := by
  induction l generalizing n with
  | nil => cases hn
  | cons x rest ih =>
    cases n with
    | zero =>
      rw [List.getElem?_cons_zero, Option.some.injEq] at hn
      simp [List.filterMap_cons, hf, hn]
    | succ n =>
      have := ih (by simpa using hn)
      simp [List.filterMap_cons, this]

/-- What no two places share tells the places apart. -/
theorem place_unique {α β : Type} {f : α → Option β} {xs : List α} {i k : Nat} {x y : α} {b : β}
    (hn : (xs.filterMap f).Nodup) (hi : xs[i]? = some x) (hk : xs[k]? = some y) (hx : f x = some b)
    (hy : f y = some b) : i = k := by
  have hp := List.pairwise_iff_getElem.mp (List.pairwise_filterMap.mp hn)
  obtain ⟨hi', rfl⟩ := List.getElem?_eq_some_iff.mp hi
  obtain ⟨hk', rfl⟩ := List.getElem?_eq_some_iff.mp hk
  rcases Nat.lt_trichotomy i k with h | h | h
  · exact absurd rfl (hp i k hi' hk' h b hx b hy)
  · exact h
  · exact absurd rfl (hp k i hk' hi' h b hy b hx)

theorem lookup_filter_ne {β : Type} (u v : String) (xs : List (String × β)) :
    (xs.filter fun x => x.1 ≠ u).lookup v = if v = u then none else xs.lookup v := by
  induction xs with
  | nil => simp
  | cons x rest ih =>
    obtain ⟨w, b⟩ := x
    by_cases hw : w = u
    · subst hw
      rw [List.filter_cons_of_neg (by simp), ih, List.lookup_cons]
      by_cases hv : v = w
      · simp [hv]
      · simp [hv, beq_false_of_ne hv]
    · rw [List.filter_cons_of_pos (by simp [hw]), List.lookup_cons, List.lookup_cons, ih]
      by_cases hv : v = w
      · simp [hv, hw]
      · simp [beq_false_of_ne hv]

/-- Where no name stands twice, what is found under a name is what stands there. -/
theorem lookup_eq_some_iff_mem {β : Type} {xs : List (String × β)} (hn : (xs.map Prod.fst).Nodup)
    {u : String} {b : β} : xs.lookup u = some b ↔ (u, b) ∈ xs := by
  induction xs with
  | nil => simp
  | cons x rest ih =>
    obtain ⟨v, a⟩ := x
    rw [List.map_cons, List.nodup_cons] at hn
    rw [List.lookup_cons, List.mem_cons]
    by_cases hu : u = v
    · subst hu
      have hout : (u, b) ∉ rest := fun hm => hn.1 (List.mem_map.mpr ⟨_, hm, rfl⟩)
      simp [hout, eq_comm]
    · rw [beq_false_of_ne hu]
      simp [hu, ih hn.2]

/-! ### The index of a table -/

section Index

variable {α : Type} {name? : α → Option String} {xs : List α} {x : α} {n : Nat} {u : String}

/-- The names that are in use, each with its place. -/
def index (name? : α → Option String) (xs : List α) : List (String × Nat) :=
  xs.zipIdx.filterMap fun x => (name? x.1).map (·, x.2)

theorem mem_index : (u, n) ∈ index name? xs ↔ ∃ x, xs[n]? = some x ∧ name? x = some u := by
  simp only [index, List.mem_filterMap, List.mem_zipIdx_iff_getElem?, Prod.exists]
  constructor
  · rintro ⟨x, m, hx, he⟩
    obtain ⟨v, hv, hp⟩ := Option.map_eq_some_iff.mp he
    cases hp
    exact ⟨x, hx, hv⟩
  · rintro ⟨x, hx, hu⟩
    exact ⟨x, n, hx, by simp [hu]⟩

theorem index_concat (name? : α → Option String) (xs : List α) (x : α) :
    index name? (xs ++ [x]) = index name? xs ++ ((name? x).map (·, xs.length)).toList := by
  rw [index, List.zipIdx_append, List.filterMap_append]
  cases h : name? x <;> simp [index, h]

theorem map_fst_index : (index name? xs).map Prod.fst = xs.filterMap name? := by
  rw [index, List.map_filterMap]
  conv_rhs => rw [← List.zipIdx_map_fst 0 xs, List.filterMap_map]
  apply List.filterMap_congr
  intro x _
  cases h : name? x.1 <;> simp [h]

theorem length_index : (index name? xs).length = xs.countP fun x => (name? x).isSome := by
  rw [← List.length_map Prod.fst, map_fst_index, List.length_filterMap_eq_countP]

/-- A table in which names are not given twice has each of them once in its index. -/
theorem nodup_index {key : α → String} (hk : ∀ x u, name? x = some u → u = key x)
    (hn : (xs.map key).Nodup) : ((index name? xs).map Prod.fst).Nodup := by
  rw [map_fst_index]
  induction xs with
  | nil => exact List.nodup_nil
  | cons x rest ih =>
    rw [List.map_cons, List.nodup_cons] at hn
    cases hx : name? x with
    | none => rw [List.filterMap_cons_none hx]; exact ih hn.2
    | some u =>
      rw [List.filterMap_cons_some hx, List.nodup_cons]
      refine ⟨fun hm => ?_, ih hn.2⟩
      obtain ⟨y, hy, hyu⟩ := List.mem_filterMap.mp hm
      exact hn.1 (List.mem_map.mpr ⟨y, hy, by rw [← hk y u hyu, hk x u hx]⟩)

theorem index_map {β : Type} (name? : β → Option String) (f : α → β) (xs : List α) :
    index name? (xs.map f) = index (name? ∘ f) xs := by
  rw [index, List.zipIdx_map, List.filterMap_map]
  rfl

theorem index_congr {other? : α → Option String} (h : ∀ x ∈ xs, name? x = other? x) :
    index name? xs = index other? xs := by
  apply List.filterMap_congr
  intro x hx
  rw [h x.1 (List.fst_mem_of_mem_zipIdx hx)]

theorem index_of_none (h : ∀ x ∈ xs, name? x = none) : index name? xs = [] := by
  rw [index, List.filterMap_eq_nil_iff]
  intro x hx
  rw [h x.1 (List.fst_mem_of_mem_zipIdx hx), Option.map_none]

theorem zipIdx_modify (f : α → α) (xs : List α) (n : Nat) :
    (xs.modify n f).zipIdx = xs.zipIdx.map fun x => (if x.2 = n then f x.1 else x.1, x.2) := by
  apply List.ext_getElem?
  intro i
  rw [List.getElem?_zipIdx, List.getElem?_map, List.getElem?_zipIdx, List.getElem?_modify]
  by_cases hi : n = i <;> cases xs[i]? <;> simp [hi, eq_comm]

/-- An entry that is changed and keeps its name stays in the index. -/
theorem index_modify_same {f : α → α} (h : ∀ x, xs[n]? = some x → name? (f x) = name? x) :
    index name? (xs.modify n f) = index name? xs := by
  rw [index, zipIdx_modify, List.filterMap_map]
  apply List.filterMap_congr
  intro x hx
  rw [List.mem_zipIdx_iff_getElem?] at hx
  by_cases hn : x.2 = n
  · simp [hn, h x.1 (hn ▸ hx)]
  · simp [hn]

/-- An entry that is changed and has no name afterwards leaves the index. -/
theorem index_modify_none {f : α → α} (h : ∀ x, xs[n]? = some x → name? (f x) = none) :
    index name? (xs.modify n f) = (index name? xs).filter fun q => q.2 ≠ n := by
  rw [index, zipIdx_modify, List.filterMap_map, index, List.filter_filterMap]
  apply List.filterMap_congr
  intro x hx
  rw [List.mem_zipIdx_iff_getElem?] at hx
  by_cases hn : x.2 = n
  · cases name? x.1 <;> simp [hn, h x.1 (hn ▸ hx), Option.filter]
  · cases hx' : name? x.1 <;> simp [hn, hx', Option.filter]

/-- Where no name is given twice, leaving out a place is leaving out its name. -/
theorem filter_index {key : α → String} (hk : ∀ x u, name? x = some u → u = key x)
    (hn : (xs.map key).Nodup) (hx : xs[n]? = some x) (hu : name? x = some u) :
    ((index name? xs).filter fun q => q.2 ≠ n) = (index name? xs).filter fun q => q.1 ≠ u := by
  apply List.filter_congr
  rintro ⟨v, m⟩ hq
  obtain ⟨y, hy, hv⟩ := mem_index.mp hq
  have hiff : m = n ↔ v = u := by
    constructor
    · rintro rfl
      obtain rfl := Option.some.inj (hy.symm.trans hx)
      exact Option.some.inj (hv.symm.trans hu)
    · rintro rfl
      have hlt : m < (xs.map key).length := by simpa using (List.getElem?_eq_some_iff.mp hy).1
      apply (List.getElem?_inj hlt hn).mp
      rw [List.getElem?_map, List.getElem?_map, hy, hx, Option.map_some, Option.map_some,
        ← hk y v hv, ← hk x v hu]
  simp [hiff]

end Index

end Fleet
