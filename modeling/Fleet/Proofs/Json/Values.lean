import Fleet.Json.Reader
import Fleet.Proofs.Json.Scanning
import Mathlib.Data.List.Induction
import Mathlib.Data.String.Basic
import Mathlib.Tactic.IntervalCases

/-!
Values that their text is read as: their numbers are integers of 64 bits, and the members of their
objects stand in the order of their names. They are read back where they nest as deep as there is room.
-/

namespace Fleet.Json

open Decimal (digitsOf)

mutual

/-- Numbers are integers of 64 bits, and members stand in the order of their names. -/
def Proper : Json → Prop
  | .null | .bool _ | .str _ => True
  | .num (.int n) => Number.Exact n
  | .num (.real _) => False
  | .arr items => ProperItems items
  | .obj members => ProperMembers members ∧ (members.map Prod.fst).Pairwise (· < ·)

def ProperItems : List Json → Prop
  | [] => True
  | v :: vs => v.Proper ∧ ProperItems vs

def ProperMembers : List (String × Json) → Prop
  | [] => True
  | (_, v) :: vs => v.Proper ∧ ProperMembers vs

end

mutual

/-- How many containers stand within one another. -/
def depth : Json → Nat
  | .arr items => depthItems items + 1
  | .obj members => depthMembers members + 1
  | _ => 0

def depthItems : List Json → Nat
  | [] => 0
  | v :: vs => max v.depth (depthItems vs)

def depthMembers : List (String × Json) → Nat
  | [] => 0
  | (_, v) :: vs => max v.depth (depthMembers vs)

end

/-! ### Integers -/

namespace Numeral

theorem absorb_append {ds es : List Nat} {s t : Nat} (h : absorb ds s = (t, [])) :
    absorb (ds ++ es) s = absorb es t := by
  induction ds generalizing s with
  | nil =>
    cases h
    rfl
  | cons d ds ih =>
    rw [absorb] at h
    rw [List.cons_append, absorb]
    split at h
    · rename_i hlt
      rw [if_pos hlt]
      exact ih h
    · cases h

theorem digitsOf_of_lt {n : Nat} (h : n < 10) : digitsOf n = [n] := by
  have hdigits : ∀ n < 10, digitsOf n = [n] := by decide
  exact hdigits n h

theorem digitsOf_of_le {n : Nat} (h : 10 ≤ n) : digitsOf n = digitsOf (n / 10) ++ [n % 10] := by
  have hlast := digitsOf_of_lt (Nat.mod_lt n (by decide : 0 < 10))
  unfold digitsOf at hlast ⊢
  rw [Nat.toDigits_of_lt_base (Nat.mod_lt n (by decide))] at hlast
  rw [Nat.toDigits_of_base_le (by decide) h, List.map_append, hlast]

theorem absorb_digitsOf {n : Nat} (h : n < bitBound 64) : absorb (digitsOf n) 0 = (n, []) := by
  induction n using Nat.strongRecOn with
  | ind n ih =>
    by_cases hlt : n < 10
    · have hfits : 0 * 10 + n < bitBound 64 := by omega
      rw [digitsOf_of_lt hlt, absorb, if_pos hfits, absorb, Nat.zero_mul, Nat.zero_add]
    · have hle : 10 ≤ n := by omega
      have hvalue : n / 10 * 10 + n % 10 = n := by omega
      rw [digitsOf_of_le hle, absorb_append (ih (n / 10) (by omega) (by omega))]
      simpa [absorb, hvalue] using h

end Numeral

namespace Document

theorem digit_digitChar : ∀ d < 10, digit? d.digitChar = some d := by decide

/-- The digits of a number, of which the first opens a literal. -/
theorem run_toDigits {m : Mode} {b : Build} {negative : Bool}
    (hm : ∀ d < 10, 0 < d →
      feed (m, b) (some d.digitChar) = (.numeral { negative := negative, whole := [d] } .whole, b))
    {n : Nat} (hn : 0 < n) : run (Nat.toDigits 10 n) (m, b) =
      (.numeral { negative := negative, whole := digitsOf n } .whole, b) := by
  induction n using Nat.strongRecOn with
  | ind n ih =>
    by_cases hlt : n < 10
    · rw [Nat.toDigits_of_lt_base hlt, Numeral.digitsOf_of_lt hlt]
      exact hm n hlt hn
    · have hle : 10 ≤ n := by omega
      rw [Nat.toDigits_of_base_le (by decide) hle, run_append, ih (n / 10) (by omega) (by omega),
        Numeral.digitsOf_of_le hle]
      have hdigit := digit_digitChar (n % 10) (by omega)
      simp [feed, Mode.step, Numeral.extend, hdigit]

theorem number_digitsOf {n : Nat} (h : n < bitBound 64) :
    ({ whole := digitsOf n } : Numeral).number = some (.int n) := by
  simp [Numeral.number, Numeral.absorb_digitsOf h]

theorem number_negative {n : Nat} (h : n ≤ bitBound 63) (hn : 0 < n) :
    ({ negative := true, whole := digitsOf n } : Numeral).number = some (.int (-n)) := by
  have habsorb := Numeral.absorb_digitsOf (n := n) (by simp at h ⊢; omega)
  have hsize : 0 < n ∧ n ≤ bitBound 63 := ⟨hn, h⟩
  simp only [Numeral.number, habsorb, hsize]
  simp

theorem leaf_exact {n : Int} (h : Number.Exact n) : Leaf (intText n) (.number (some (.int n))) := by
  obtain ⟨hlow, hhigh⟩ := h
  cases n with
  | ofNat n =>
    rcases Nat.eq_zero_or_pos n with rfl | hn
    · exact fun b => hands_numeral (n := { whole := [0] }) (p := .zero) rfl b
    · intro b
      have hrun : run (intText (.ofNat n)) (.between, b) = (.numeral { whole := digitsOf n } .whole, b) := by
        refine run_toDigits ?_ hn
        intro d hd hpos
        interval_cases d <;> rfl
      rw [hrun]
      have hands := hands_numeral (n := { whole := digitsOf n }) (p := .whole) rfl b
      rwa [number_digitsOf (by simpa using hhigh)] at hands
  | negSucc n =>
    intro b
    have hrun : run (intText (.negSucc n)) (.between, b) =
        (.numeral { negative := true, whole := digitsOf (n + 1) } .whole, b) := by
      change run (Nat.toDigits 10 (n + 1)) (.numeral { negative := true } .sign, b) = _
      refine run_toDigits ?_ (Nat.succ_pos n)
      intro d hd hpos
      interval_cases d <;> rfl
    rw [hrun]
    have hands := hands_numeral (n := { negative := true, whole := digitsOf (n + 1) }) (p := .whole) rfl b
    rwa [number_negative (by simp at hlow ⊢; omega) (Nat.succ_pos n)] at hands

theorem ofNumber_exact {n : Int} (h : Number.Exact n) : ofNumber (.int n) = .number (some (.int n)) := by
  have hread := (leaf_exact h).ofCharacters
  unfold ofNumber Number.chars
  rw [hread]

end Document

/-! ### Members in order -/

section

variable {α β : Type} {k : String} {a : α} {es : List (String × α)} {e : String × α}

/-- Entries in the order of their names, the later of two with one name winning. -/
def ordered (es : List (String × α)) : List (String × α) :=
  es.foldl (fun acc e => Reader.put e.1 e.2 acc) []

theorem putMember_eq (k : String) (v : Json) (ms : List (String × Json)) :
    putMember k v ms = Reader.put k v ms := by
  induction ms with
  | nil => rfl
  | cons m ms ih => simp only [putMember, Reader.put, ih]

theorem object_eq (ms : List (String × Json)) : object ms = .obj (ordered ms) := by
  simp only [object, putMember_eq]
  rfl

theorem put_last (h : ∀ e ∈ es, e.1 < k) : Reader.put k a es = es ++ [(k, a)] := by
  induction es with
  | nil => rfl
  | cons e es ih =>
    obtain ⟨l, b⟩ := e
    have hl : l < k := h _ List.mem_cons_self
    rw [Reader.put, if_neg (lt_asymm hl), if_neg hl.ne', ih fun e he => h e (List.mem_cons_of_mem _ he)]
    rfl

theorem mem_put (h : e ∈ Reader.put k a es) : e = (k, a) ∨ e ∈ es := by
  induction es with
  | nil => simpa [Reader.put] using h
  | cons b es ih =>
    unfold Reader.put at h
    split at h
    · simpa using h
    · split at h
      · rcases List.mem_cons.mp h with h | h
        · exact .inl h
        · exact .inr (List.mem_cons_of_mem _ h)
      · rcases List.mem_cons.mp h with h | h
        · exact .inr (h ▸ List.mem_cons_self)
        · exact (ih h).imp_right (List.mem_cons_of_mem _)

theorem sorted_put (h : (es.map Prod.fst).Pairwise (· < ·)) :
    ((Reader.put k a es).map Prod.fst).Pairwise (· < ·) := by
  induction es with
  | nil => simp [Reader.put]
  | cons b es ih =>
    rw [List.map_cons, List.pairwise_cons] at h
    unfold Reader.put
    split
    · rename_i hlt
      refine List.pairwise_cons.mpr ⟨fun n hn => ?_, List.pairwise_cons.mpr h⟩
      rcases List.mem_cons.mp hn with rfl | hn
      · exact hlt
      · exact hlt.trans (h.1 n hn)
    · split
      · rename_i heq
        exact List.pairwise_cons.mpr ⟨heq ▸ h.1, h.2⟩
      · rename_i hlt hne
        refine List.pairwise_cons.mpr ⟨fun n hn => ?_, ih h.2⟩
        obtain ⟨e, he, rfl⟩ := List.mem_map.mp hn
        rcases mem_put he with rfl | he
        · exact lt_of_le_of_ne (not_lt.mp hlt) (Ne.symm hne)
        · exact h.1 e.1 (List.mem_map.mpr ⟨e, he, rfl⟩)

theorem perm_put (h : k ∉ es.map Prod.fst) : (Reader.put k a es).Perm ((k, a) :: es) := by
  induction es with
  | nil => exact .refl _
  | cons b es ih =>
    rw [List.map_cons, List.mem_cons, not_or] at h
    unfold Reader.put
    split
    · exact .refl _
    · rw [if_neg h.1]
      exact ((ih h.2).cons b).trans (.swap _ _ _)

theorem put_map (f : α → β) : Reader.put k (f a) (es.map fun e => (e.1, f e.2)) =
    (Reader.put k a es).map fun e => (e.1, f e.2) := by
  induction es with
  | nil => rfl
  | cons b es ih =>
    simp only [List.map_cons, Reader.put, ih]
    split
    · rfl
    · split <;> rfl

/-- Entries that stand in order are not moved. -/
theorem ordered_of_sorted (h : (es.map Prod.fst).Pairwise (· < ·)) : ordered es = es := by
  have hfold (es acc : List (String × α)) (h : ((acc ++ es).map Prod.fst).Pairwise (· < ·)) :
      es.foldl (fun acc e => Reader.put e.1 e.2 acc) acc = acc ++ es := by
    induction es generalizing acc with
    | nil => simp
    | cons e es ih =>
      have hlast : ∀ a ∈ acc, a.1 < e.1 := by
        rw [List.map_append, List.pairwise_append] at h
        exact fun a ha => h.2.2 a.1 (List.mem_map.mpr ⟨a, ha, rfl⟩) e.1 (by simp)
      rw [List.foldl_cons, put_last hlast, ih _ (by simpa using h)]
      simp
  exact hfold es [] (by simpa using h)

theorem ordered_append_one (es : List (String × α)) (e : String × α) :
    ordered (es ++ [e]) = Reader.put e.1 e.2 (ordered es) := by
  simp [ordered]

theorem sorted_ordered (es : List (String × α)) :
    ((ordered es).map Prod.fst).Pairwise (· < ·) := by
  induction es using List.reverseRecOn with
  | nil => exact .nil
  | append_singleton es e ih =>
    rw [ordered_append_one]
    exact sorted_put ih

theorem perm_ordered (h : (es.map Prod.fst).Nodup) : (ordered es).Perm es := by
  induction es using List.reverseRecOn with
  | nil => exact .refl _
  | append_singleton es e ih =>
    rw [List.map_append, List.nodup_append] at h
    have hperm := ih h.1
    have hnew : e.1 ∉ (ordered es).map Prod.fst := by
      intro hmem
      exact h.2.2 e.1 ((hperm.map Prod.fst).mem_iff.mp hmem) e.1 (by simp) rfl
    rw [ordered_append_one]
    exact (perm_put hnew).trans ((hperm.cons e).trans (List.perm_append_singleton e es).symm)

theorem mem_ordered (h : e ∈ ordered es) : e ∈ es := by
  induction es using List.reverseRecOn with
  | nil => cases h
  | append_singleton es b ih =>
    rw [ordered_append_one] at h
    rcases mem_put h with rfl | h
    · simp
    · exact List.mem_append_left _ (ih h)

theorem ordered_map (f : α → β) (es : List (String × α)) :
    ordered (es.map fun e => (e.1, f e.2)) = (ordered es).map fun e => (e.1, f e.2) := by
  induction es using List.reverseRecOn with
  | nil => rfl
  | append_singleton es e ih =>
    rw [List.map_append, List.map_singleton, ordered_append_one, ordered_append_one, ih]
    exact put_map f

end

/-! ### Values -/

open Document (printed printedItems printedMembers)

mutual

/-- A value is read back where there is room for it. -/
theorem value?_printed (v : Json) (room : Nat) (hv : v.Proper) (hd : v.depth ≤ room) :
    (printed v).value? room = some v := by
  match v with
  | .null => rfl
  | .bool b => rfl
  | .num (.int n) =>
    rw [printed, Document.ofNumber_exact (by simpa [Proper] using hv)]
    rfl
  | .num (.real bits) => simp [Proper] at hv
  | .str s => rfl
  | .arr items =>
    simp only [Proper] at hv
    simp only [depth] at hd
    have hroom : room ≠ 0 := by omega
    simp [printed, Document.value?, hroom, valueItems?_printed items (room - 1) hv (by omega)]
  | .obj members =>
    simp only [Proper] at hv
    simp only [depth] at hd
    have hroom : room ≠ 0 := by omega
    simp [printed, Document.value?, hroom, valueMembers?_printed members (room - 1) hv.1 (by omega),
      object_eq, ordered_of_sorted hv.2]

theorem valueItems?_printed (vs : List Json) (room : Nat) (hv : ProperItems vs)
    (hd : depthItems vs ≤ room) : Document.valueItems? room (printedItems vs) = some vs := by
  match vs with
  | [] => rfl
  | v :: vs =>
    simp only [ProperItems] at hv
    simp only [depthItems] at hd
    simp [printedItems, Document.valueItems?, value?_printed v room hv.1 (by omega),
      valueItems?_printed vs room hv.2 (by omega)]

theorem valueMembers?_printed (ms : List (String × Json)) (room : Nat) (hv : ProperMembers ms)
    (hd : depthMembers ms ≤ room) : Document.valueMembers? room (printedMembers ms) = some ms := by
  match ms with
  | [] => rfl
  | (k, v) :: ms =>
    simp only [ProperMembers] at hv
    simp only [depthMembers] at hd
    simp [printedMembers, Document.valueMembers?, value?_printed v room hv.1 (by omega),
      valueMembers?_printed ms room hv.2 (by omega)]

end

/-! ### Depth -/

variable {v : Json} {items : List Json} {members ms : List (String × Json)} {k : String}

theorem depth_le_depthItems (h : v ∈ items) : v.depth ≤ depthItems items := by
  induction items with
  | nil => cases h
  | cons w ws ih =>
    rw [depthItems]
    rcases List.mem_cons.mp h with rfl | h
    · exact Nat.le_max_left ..
    · exact (ih h).trans (Nat.le_max_right ..)

theorem depth_le_depthMembers (h : (k, v) ∈ members) : v.depth ≤ depthMembers members := by
  induction members with
  | nil => cases h
  | cons m ms ih =>
    rw [depthMembers]
    rcases List.mem_cons.mp h with rfl | h
    · exact Nat.le_max_left ..
    · exact (ih h).trans (Nat.le_max_right ..)

theorem depth_lt_of_mem (h : v ∈ items) : v.depth < (Json.arr items).depth :=
  Nat.lt_succ_of_le (depth_le_depthItems h)

/-- What an object holds is nested less deep than the object. -/
theorem depth_lt_of_ordered (h : (k, v) ∈ ordered ms) : v.depth < (object ms).depth := by
  rw [object_eq]
  exact Nat.lt_succ_of_le (depth_le_depthMembers h)

theorem depthMembers_le {n : Nat} (h : ∀ m ∈ members, m.2.depth ≤ n) : depthMembers members ≤ n := by
  induction members with
  | nil => exact Nat.zero_le _
  | cons m ms ih =>
    obtain ⟨hm, hms⟩ := List.forall_mem_cons.mp h
    exact Nat.max_le.mpr ⟨hm, ih hms⟩

/-- An object is nested one deeper than what it is made of. -/
theorem depth_object_le {n : Nat} (h : ∀ m ∈ ms, m.2.depth ≤ n) : (object ms).depth ≤ n + 1 := by
  rw [object_eq]
  exact Nat.succ_le_succ (depthMembers_le fun m hm => h m (mem_ordered hm))

theorem properItems_iff : ProperItems items ↔ ∀ v ∈ items, v.Proper := by
  induction items with
  | nil => simp [ProperItems]
  | cons w ws ih => simp [ProperItems, ih]

theorem properMembers_iff : ProperMembers members ↔ ∀ m ∈ members, m.2.Proper := by
  induction members with
  | nil => simp [ProperMembers]
  | cons m ms ih => simp [ProperMembers, ih]

theorem object_proper (h : ∀ m ∈ ms, m.2.Proper) : (object ms).Proper := by
  rw [object_eq]
  exact ⟨properMembers_iff.mpr fun m hm => h m (mem_ordered hm), sorted_ordered ms⟩

end Fleet.Json
