import Fleet.Proofs.Json.Reading

/-!
Values on a line of their own. The text of a value has no control characters, so that no payload can
end the line that it stands on, and the line is read as the value.
-/

namespace Fleet.Json

open Document (printed printedItems printedMembers)

/-! ### What is printed -/

/-- No character ends a line or is any other control character. -/
def Clear (cs : List Char) : Prop := ∀ c ∈ cs, 32 ≤ c.toNat

-- by the list's own characters, not by all characters there are
instance : DecidablePred Clear := fun cs => List.decidableBAll (fun c : Char => 32 ≤ c.toNat) cs

variable {cs ds : List Char}

theorem Clear.append (hc : Clear cs) (hd : Clear ds) : Clear (cs ++ ds) :=
  List.forall_mem_append.mpr ⟨hc, hd⟩

theorem Clear.cons {c : Char} (hc : 32 ≤ c.toNat) (hd : Clear ds) : Clear (c :: ds) :=
  List.forall_mem_cons.mpr ⟨hc, hd⟩

theorem clear_hexDigit : ∀ d < 16, 32 ≤ (hexDigit d).toNat := by decide

theorem clear_escape (c : Char) : Clear (escape c) := by
  unfold escape
  split_ifs with _ _ _ _ _ _ _ hlow
  · decide
  · decide
  · decide
  · decide
  · decide
  · decide
  · decide
  · have hhigh := clear_hexDigit (c.toNat / 16) (by omega)
    have hrest := clear_hexDigit (c.toNat % 16) (by omega)
    simp only [Clear, List.forall_mem_cons]
    exact ⟨by decide, by decide, by decide, by decide, hhigh, hrest, nofun⟩
  · intro d hd
    rw [List.mem_singleton.mp hd]
    omega

theorem clear_quote (s : String) : Clear (quote s) := by
  have hchars : Clear (s.toList.flatMap escape) := by
    intro d hd
    obtain ⟨c, _, hc⟩ := List.mem_flatMap.mp hd
    exact clear_escape c d hc
  exact .cons (by decide) (hchars.append (.cons (by decide) nofun))

theorem clear_toDigits (n : Nat) : Clear (Nat.toDigits 10 n) := by
  intro c hc
  have hdigit := Document.isDigit_toDigits n c hc
  simp only [Char.isDigit, Bool.and_eq_true, decide_eq_true_eq] at hdigit
  have hlow : '0'.toNat ≤ c.toNat := hdigit.1
  exact le_trans (by decide) hlow

theorem clear_intText (n : Int) : Clear (intText n) := by
  cases n with
  | ofNat n => exact clear_toDigits n
  | negSucc n => exact .cons (by decide) (clear_toDigits (n + 1))

mutual

theorem clear_chars (v : Json) (hv : v.Proper) : Clear (chars v) := by
  match v with
  | .null => unfold chars; decide
  | .bool true => unfold chars; decide
  | .bool false => unfold chars; decide
  | .num (.int n) => exact clear_intText n
  | .num (.real bits) => simp [Proper] at hv
  | .str s => exact clear_quote s
  | .arr items =>
    rw [chars]
    exact .cons (by decide) ((clear_itemChars items (by simpa [Proper] using hv)).append
      (.cons (by decide) nofun))
  | .obj members =>
    rw [Proper] at hv
    rw [chars]
    exact .cons (by decide) ((clear_memberChars members hv.1).append (.cons (by decide) nofun))

theorem clear_itemChars (vs : List Json) (hv : ProperItems vs) : Clear (itemChars vs) := by
  match vs with
  | [] => exact nofun
  | [v] =>
    rw [itemChars]
    exact clear_chars v hv.1
  | v :: w :: vs =>
    rw [itemChars]
    exact (clear_chars v hv.1).append (.cons (by decide) (clear_itemChars (w :: vs) hv.2))

theorem clear_memberChars (ms : List (String × Json)) (hv : ProperMembers ms) :
    Clear (memberChars ms) := by
  match ms with
  | [] => exact nofun
  | [(k, v)] =>
    rw [memberChars]
    exact (clear_quote k).append (.cons (by decide) (clear_chars v hv.1))
  | (k, v) :: m :: ms =>
    rw [memberChars]
    exact (clear_quote k).append (.cons (by decide) ((clear_chars v hv.1).append
      (.cons (by decide) (clear_memberChars (m :: ms) hv.2))))

end

/-! ### What is read -/

mutual

/-- The text of a proper value shows what the value shows. -/
theorem printed_eq_ofJson (v : Json) (hv : v.Proper) : printed v = .ofJson v := by
  match v with
  | .null | .bool _ | .str _ => rfl
  | .num (.int n) => rw [printed, Document.ofNumber_exact (by simpa [Proper] using hv), Document.ofJson]
  | .num (.real bits) => simp [Proper] at hv
  | .arr items =>
    rw [Proper] at hv
    rw [printed, Document.ofJson, printedItems_eq_ofItems items hv]
  | .obj members =>
    rw [Proper] at hv
    rw [printed, Document.ofJson, printedMembers_eq_ofMembers members hv.1]

theorem printedItems_eq_ofItems (vs : List Json) (hv : ProperItems vs) :
    printedItems vs = Document.ofItems vs := by
  match vs with
  | [] => rfl
  | v :: vs =>
    rw [printedItems, Document.ofItems, printed_eq_ofJson v hv.1, printedItems_eq_ofItems vs hv.2]

theorem printedMembers_eq_ofMembers (ms : List (String × Json)) (hv : ProperMembers ms) :
    printedMembers ms = Document.ofMembers ms := by
  match ms with
  | [] => rfl
  | (k, v) :: ms =>
    rw [printedMembers, Document.ofMembers, printed_eq_ofJson v hv.1,
      printedMembers_eq_ofMembers ms hv.2]

end

/-- The text of a proper value is read as the value. -/
theorem ofText?_print {v : Json} (hv : v.Proper) (hd : v.depth ≤ depthLimit) :
    ofText? v.print = some v := by
  rw [ofText?, Document.ofText_print]
  exact value?_printed v depthLimit hv hd

theorem get?_object (ms : List (String × Json)) (n : String) :
    (object ms).get? n = ms.reverse.lookup n := by
  rw [object_eq, get?, lookup_ordered]

end Fleet.Json
