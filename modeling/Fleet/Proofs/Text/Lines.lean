import Fleet.Text.Lines
import Mathlib.Data.List.Basic

/-!
Lines that come out of a stream as they were written into it. No byte of a text is a newline unless
the text has one, so a text of one line stays one line on the way, in whatever pieces it arrives.
-/

namespace Fleet.Text

/-! ### Bytes of texts -/

theorem toList_eq_data (b : ByteArray) : b.toList = b.data.toList := by
  suffices h : ∀ i acc, ByteArray.toList.loop b i acc = acc.reverse ++ b.data.toList.drop i by
    simpa [ByteArray.toList] using h 0 []
  intro i acc
  induction i, acc using ByteArray.toList.loop.induct b with
  | case1 i acc hlt ih =>
    have hi : i < b.data.toList.length := hlt
    have hget : b.get! i = b.data.toList[i] := getElem!_pos b.data i hlt
    rw [ByteArray.toList.loop, if_pos hlt, ih, hget, List.drop_eq_getElem_cons hi]
    simp
  | case2 i acc hge =>
    have hall : b.data.toList.length ≤ i := Nat.le_of_not_lt hge
    rw [ByteArray.toList.loop, if_neg hge, List.drop_eq_nil_of_le hall, List.append_nil]

theorem encode_eq (s : String) : encode s = s.toList.flatMap String.utf8EncodeChar := by
  rw [encode, toList_eq_data, String.toUTF8_eq_toByteArray, ← String.utf8Encode_toList,
    List.utf8Encode, List.toList_data_toByteArray]

theorem encode_append (s t : String) : encode (s ++ t) = encode s ++ encode t := by
  rw [encode_eq, encode_eq, encode_eq, String.toList_append, List.flatMap_append]

/-- Bytes below 128 stand for themselves only. -/
theorem low_mem_utf8EncodeChar {b : UInt8} {c : Char} (hb : b.toNat < 128)
    (h : b ∈ String.utf8EncodeChar c) : c.toNat = b.toNat := by
  have hhigh (n : Nat) (hlow : 128 ≤ n) (hn : n < 256) : b ≠ UInt8.ofNat n := by
    rintro rfl
    rw [UInt8.toNat_ofNat', Nat.mod_eq_of_lt hn] at hb
    omega
  simp only [String.utf8EncodeChar] at h
  split_ifs at h with hone
  · rw [List.mem_singleton.mp h, UInt8.toNat_ofNat', Nat.mod_eq_of_lt (by omega)]
    rfl
  -- every byte of a longer character is one of the high ones
  all_goals simp only [List.mem_cons, List.not_mem_nil, or_false] at h
  · rcases h with h | h <;> exact absurd h (hhigh _ (by omega) (by omega))
  · rcases h with h | h | h <;> exact absurd h (hhigh _ (by omega) (by omega))
  · rcases h with h | h | h | h <;> exact absurd h (hhigh _ (by omega) (by omega))

theorem exists_of_low_mem_encode {s : String} {b : UInt8} (hb : b.toNat < 128)
    (h : b ∈ encode s) : ∃ c ∈ s.toList, c.toNat = b.toNat := by
  rw [encode_eq] at h
  obtain ⟨c, hc, hbyte⟩ := List.mem_flatMap.mp h
  exact ⟨c, hc, low_mem_utf8EncodeChar hb hbyte⟩

theorem encode_newline : encode "\n" = [10] := by
  rw [encode_eq]
  decide

theorem encode_join (ts : List String) : encode (String.join ts) = ts.flatMap encode := by
  induction ts with
  | nil => simp [encode_eq]
  | cons t ts ih => rw [String.join_cons, encode_append, ih, List.flatMap_cons]

theorem decode?_encode (s : String) : decode? (encode s) = some s := by
  have hbytes : (⟨(encode s).toArray⟩ : ByteArray) = s.toByteArray := by
    rw [encode, toList_eq_data, String.toUTF8_eq_toByteArray]
  rw [decode?, hbytes, String.fromUTF8?, dif_pos s.isValidUTF8]
  rfl

/-! ### Lines -/

variable {line rest acc : List UInt8} {lines : List (List UInt8)} {r : LineReader}

theorem splitLines_line (h : (10 : UInt8) ∉ line) :
    splitLines acc (line ++ 10 :: rest) =
      ((acc.reverse ++ line) :: (splitLines [] rest).1, (splitLines [] rest).2) := by
  induction line generalizing acc with
  | nil => simp [splitLines]
  | cons b line ih =>
    rw [List.mem_cons, not_or] at h
    rw [List.cons_append, splitLines, if_neg (Ne.symm h.1), ih h.2]
    simp

/-- Bytes that come later go on where the earlier ones stopped. -/
theorem splitLines_append (bytes more acc : List UInt8) :
    splitLines acc (bytes ++ more) =
      ((splitLines acc bytes).1 ++ (splitLines (splitLines acc bytes).2.reverse more).1,
        (splitLines (splitLines acc bytes).2.reverse more).2) := by
  induction bytes generalizing acc with
  | nil => simp [splitLines]
  | cons b bytes ih =>
    rw [List.cons_append, splitLines, splitLines]
    split
    · rw [ih]
      rfl
    · exact ih (b :: acc)

namespace LineReader

/-- Takes up bytes that come in several pieces. -/
def feedAll (r : LineReader) : List (List UInt8) → List (List UInt8) × LineReader
  | [] => ([], r)
  | piece :: pieces =>
    let (lines, r) := r.feed piece
    let (more, r) := r.feedAll pieces
    (lines ++ more, r)

/-- In whatever pieces bytes come, the lines are the same. -/
theorem feedAll_eq (pieces : List (List UInt8)) (r : LineReader) :
    r.feedAll pieces = r.feed pieces.flatten := by
  induction pieces generalizing r with
  | nil => simp [feedAll, feed, splitLines]
  | cons piece pieces ih =>
    rw [feedAll, List.flatten_cons]
    simp only [ih]
    simp only [feed, splitLines_append, List.map_append]

/-- Written lines are read one by one, and nothing is left. -/
theorem feed_lines (h : ∀ l ∈ lines, (10 : UInt8) ∉ l ∧ l.getLast? ≠ some 13) :
    feed {} (lines.flatMap fun l => l ++ [10]) = (lines, {}) := by
  induction lines with
  | nil => rfl
  | cons l lines ih =>
    obtain ⟨⟨hnewline, hreturn⟩, hrest⟩ := List.forall_mem_cons.mp h
    have htail := ih hrest
    simp only [feed, List.reverse_nil, Prod.mk.injEq] at htail
    have hbytes : (l :: lines).flatMap (fun l => l ++ [10]) =
        l ++ 10 :: lines.flatMap fun l => l ++ [10] := by simp
    simp only [feed, hbytes, List.reverse_nil, splitLines_line hnewline, List.map_cons, htail,
      dropReturn, if_neg hreturn, List.nil_append]

end LineReader

end Fleet.Text
