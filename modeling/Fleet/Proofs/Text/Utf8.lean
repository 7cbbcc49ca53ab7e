import Fleet.Proofs.Text.Lines
import Fleet.Text.Utf8
import Mathlib.Tactic.SplitIfs

/-!
Bytes of a text read as characters. A character is found again once the last of its bytes has been taken up, so
the bytes of a text give its characters and nothing else.
-/

namespace Fleet.Text

variable {cs : List (Option Char)} {b low high value missing : Nat}

/-! ### One byte -/

theorem toNat_byte (hb : b < 256) : (UInt8.ofNat b).toNat = b := by
  rw [UInt8.toNat_ofNat', Nat.mod_eq_of_lt hb]

theorem feedByte_last (hb : b < 256) (hlow : low ≤ b) (hhigh : b ≤ high) :
    feedByte (cs, some ⟨1, low, high, value⟩) (UInt8.ofNat b) =
      (some (Char.ofNat (value * 64 + (b - 0x80))) :: cs, none) := by
  simp only [feedByte, toNat_byte hb, hlow, hhigh, and_self, ↓reduceIte]

theorem feedByte_more (hm : missing ≠ 1) (hb : b < 256) (hlow : low ≤ b) (hhigh : b ≤ high) :
    feedByte (cs, some ⟨missing, low, high, value⟩) (UInt8.ofNat b) =
      (cs, some ⟨missing - 1, 0x80, 0xBF, value * 64 + (b - 0x80)⟩) := by
  simp only [feedByte, toNat_byte hb, hlow, hhigh, hm, and_self, ↓reduceIte]

/-- What a leading byte of so many bytes has of the character. -/
def leadingValue (missing b : Nat) : Nat :=
  if missing = 1 then b - 0xC0 else if missing = 2 then b - 0xE0 else b - 0xF0

theorem feedByte_first (hb : b < 256) (hstart : 0x80 ≤ b) (h : leading? b = some (missing, low, high)) :
    feedByte (cs, none) (UInt8.ofNat b) = (cs, some ⟨missing, low, high, leadingValue missing b⟩) := by
  simp only [feedByte, toNat_byte hb, startByte, if_neg (Nat.not_lt.mpr hstart), h, List.nil_append, leadingValue]

/-! ### Leading bytes -/

theorem leading?_two {v : Nat} (h : 0x80 ≤ v) (h' : v ≤ 0x7FF) :
    leading? (v / 64 + 192) = some (1, 0x80, 0xBF) := by
  unfold leading?
  rw [if_pos (by omega)]

/-- Of three bytes the second one is in the range that the first one asks for, since no character is written
longer than need be and none is a surrogate. -/
theorem leading?_three {v : Nat} (h : 0x800 ≤ v) (h' : v ≤ 0xFFFF) (hv : v < 0xD800 ∨ 0xDFFF < v) :
    ∃ low high, leading? (v / 4096 + 224) = some (2, low, high) ∧
      low ≤ v / 64 % 64 + 128 ∧ v / 64 % 64 + 128 ≤ high := by
  unfold leading?
  rw [if_neg (by omega)]
  split_ifs
  · exact ⟨0xA0, 0xBF, rfl, by omega, by omega⟩
  · exact ⟨0x80, 0x9F, rfl, by omega, by omega⟩
  · exact ⟨0x80, 0xBF, rfl, by omega, by omega⟩
  all_goals omega

/-- The same of four bytes, where no character lies beyond the last one. -/
theorem leading?_four {v : Nat} (h : 0xFFFF < v) (h' : v < 0x110000) :
    ∃ low high, leading? (v / 262144 + 240) = some (3, low, high) ∧
      low ≤ v / 4096 % 64 + 128 ∧ v / 4096 % 64 + 128 ≤ high := by
  unfold leading?
  rw [if_neg (by omega), if_neg (by omega), if_neg (by omega), if_neg (by omega)]
  split_ifs
  · exact ⟨0x90, 0xBF, rfl, by omega, by omega⟩
  · exact ⟨0x80, 0xBF, rfl, by omega, by omega⟩
  · exact ⟨0x80, 0x8F, rfl, by omega, by omega⟩
  all_goals omega

/-! ### Characters -/

theorem feed_character (c : Char) (cs : List (Option Char)) :
    (String.utf8EncodeChar c).foldl feedByte (cs, none) = (some c :: cs, none) := by
  have hvalid : c.val.toNat < 0xD800 ∨ 0xDFFF < c.val.toNat ∧ c.val.toNat < 0x110000 := c.valid
  have hsame : Char.ofNat c.val.toNat = c := Char.ofNat_toNat c
  generalize hv : c.val.toNat = v at hvalid hsame
  simp only [String.utf8EncodeChar, hv]
  split_ifs with hone htwo hthree
  · simp only [List.foldl_cons, List.foldl_nil, feedByte, toNat_byte (show v < 256 by omega), startByte,
      if_pos (show v < 0x80 by omega), hsame]
    rfl
  · have hfirst : v / 64 % 32 = v / 64 := Nat.mod_eq_of_lt (by omega)
    have hvalue : (v / 64 + 192 - 0xC0) * 64 + (v % 64 + 128 - 0x80) = v := by omega
    rw [hfirst, List.foldl_cons, feedByte_first (by omega) (by omega) (leading?_two (by omega) htwo),
      List.foldl_cons, feedByte_last (by omega) (by omega) (by omega), List.foldl_nil, leadingValue, if_pos rfl,
      hvalue, hsame]
  · have hfirst : v / 4096 % 16 = v / 4096 := Nat.mod_eq_of_lt (by omega)
    obtain ⟨low, high, hlead, hlow, hhigh⟩ := leading?_three (by omega) hthree (by omega)
    have hvalue : ((v / 4096 + 224 - 0xE0) * 64 + (v / 64 % 64 + 128 - 0x80)) * 64 + (v % 64 + 128 - 0x80) = v := by
      omega
    rw [hfirst, List.foldl_cons, feedByte_first (by omega) (by omega) hlead, List.foldl_cons,
      feedByte_more (by decide) (by omega) hlow hhigh, List.foldl_cons,
      feedByte_last (by omega) (by omega) (by omega), List.foldl_nil, leadingValue, if_neg (by decide), if_pos rfl,
      hvalue, hsame]
  · have hfirst : v / 262144 % 8 = v / 262144 := Nat.mod_eq_of_lt (by omega)
    obtain ⟨low, high, hlead, hlow, hhigh⟩ := leading?_four (v := v) (by omega) (by omega)
    have hvalue : (((v / 262144 + 240 - 0xF0) * 64 + (v / 4096 % 64 + 128 - 0x80)) * 64 +
        (v / 64 % 64 + 128 - 0x80)) * 64 + (v % 64 + 128 - 0x80) = v := by omega
    rw [hfirst, List.foldl_cons, feedByte_first (by omega) (by omega) hlead, List.foldl_cons,
      feedByte_more (by decide) (by omega) hlow hhigh, List.foldl_cons,
      feedByte_more (by decide) (by omega) (by omega) (by omega), List.foldl_cons,
      feedByte_last (by omega) (by omega) (by omega), List.foldl_nil, leadingValue, if_neg (by decide),
      if_neg (by decide), hvalue, hsame]

theorem feed_characters (chars : List Char) (cs : List (Option Char)) :
    (chars.flatMap String.utf8EncodeChar).foldl feedByte (cs, none) = ((chars.map some).reverse ++ cs, none) := by
  induction chars generalizing cs with
  | nil => rfl
  | cons c rest ih =>
    rw [List.flatMap_cons, List.foldl_append, feed_character, ih]
    simp

/-- The bytes of a text are read as its characters. -/
theorem characters_encode (s : String) : characters (encode s) = s.toList.map some := by
  rw [characters, encode_eq, feed_characters]
  simp

end Fleet.Text
