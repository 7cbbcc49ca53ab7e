import Fleet.Proofs.Time.Texts
import Fleet.Time.Reading

/-!
Reading back the text of a time. Each part of the text is as wide as its reader wants it, and a reader
leaves what follows its part, so that a time in a four-digit year is read as it was written.
-/

namespace Fleet.Instant

variable {w n low high limit : Nat} {c : Char} {ds rest : List Char} {t : Instant}

/-! ### Numbers -/

theorem le_ofDigitChars (ds : List Char) (n : Nat) : n ≤ Nat.ofDigitChars 10 ds n := by
  induction ds generalizing n with
  | nil => exact Nat.le_refl n
  | cons c ds ih =>
    have hstep : n ≤ 10 * n + (c.toNat - '0'.toNat) := by omega
    exact Nat.le_trans hstep (ih _)

theorem natural_eq (h : Nat.ofDigitChars 10 ds n < bitBound 63) :
    natural ds n = .ok (Nat.ofDigitChars 10 ds n) := by
  induction ds generalizing n with
  | nil => rfl
  | cons c ds ih =>
    change Nat.ofDigitChars 10 ds (10 * n + (c.toNat - '0'.toNat)) < bitBound 63 at h
    have hnext : n * 10 + (c.toNat - '0'.toNat) = 10 * n + (c.toNat - '0'.toNat) := by omega
    unfold natural
    dsimp only
    rw [hnext, if_pos (Nat.lt_of_le_of_lt (le_ofDigitChars ds _) h), ih h]
    rfl

theorem ofDigitChars_pad (w n : Nat) : Nat.ofDigitChars 10 (pad w n) 0 = n := by
  unfold pad
  rw [Nat.ofDigitChars_append, Nat.ofDigitChars_replicate_zero, Nat.mul_zero,
    Nat.ofDigitChars_ten_toDigits]

/-- Digits are read up to the limit, or up to something else. -/
theorem number_append (hne : ds ≠ []) (hds : ∀ c ∈ ds, c.isDigit = true) (hlimit : ds.length ≤ limit)
    (hrest : ds.length = limit ∨ rest.takeWhile Char.isDigit = [])
    (hv : Nat.ofDigitChars 10 ds 0 < bitBound 63) :
    number limit (ds ++ rest) = .ok (Nat.ofDigitChars 10 ds 0, rest) := by
  have htaken : ((ds ++ rest).take limit).takeWhile Char.isDigit = ds := by
    rw [List.take_append, List.take_of_length_le hlimit, List.takeWhile_append_of_pos hds]
    refine (congrArg (ds ++ ·) ?_).trans (List.append_nil ds)
    rcases hrest with h | h
    · rw [h, Nat.sub_self]
      rfl
    · cases rest with
      | nil => simp
      | cons c rest =>
        have hc : c.isDigit = false := by
          by_contra hc
          simp [List.takeWhile_cons, hc] at h
        cases limit - ds.length <;> simp [hc]
  obtain ⟨c, cs, rfl⟩ := List.exists_cons_of_ne_nil hne
  unfold number
  rw [htaken]
  change (natural (c :: cs) 0).map _ = _
  rw [natural_eq hv]
  change Except.ok (_, ((c :: cs) ++ rest).drop (c :: cs).length) = _
  rw [List.drop_left]

theorem pad_ne_nil (w n : Nat) : pad w n ≠ [] := by
  unfold pad
  exact List.append_ne_nil_of_right_ne_nil _ Nat.toDigits_ne_nil

theorem number_pad (hw : 1 ≤ w) (hwide : w ≤ 18) (hn : n < 10 ^ w) (rest : List Char) :
    number w (pad w n ++ rest) = .ok (n, rest) := by
  have hlength := length_pad hw hn
  have hbound : n < bitBound 63 :=
    Nat.lt_of_lt_of_le hn (Nat.le_trans (Nat.pow_le_pow_right (by decide) hwide) (by decide))
  rw [number_append (pad_ne_nil w n) (isDigit_pad w n) (Nat.le_of_eq hlength) (.inl hlength), ofDigitChars_pad]
  rwa [ofDigitChars_pad]

/-! ### Parts of a text -/

theorem isBlank_digit (h : c.isDigit = true) : Text.isBlank c = false := by
  simp only [Char.isDigit, Bool.and_eq_true, decide_eq_true_eq, UInt32.le_iff_toNat_le] at h
  have hlow : 48 ≤ c.toNat := h.1
  have hhigh : c.toNat ≤ 57 := h.2
  unfold Text.isBlank Text.blankRanges
  simp only [Text.inRanges]
  grind

theorem dropBlanks_pad (w n : Nat) (rest : List Char) : dropBlanks (pad w n ++ rest) = pad w n ++ rest := by
  obtain ⟨c, cs, hpad⟩ := List.exists_cons_of_ne_nil (pad_ne_nil w n)
  have hc : Text.isBlank c = false := isBlank_digit (isDigit_pad w n c (by simp [hpad]))
  rw [hpad]
  simp [dropBlanks, Text.dropBlanks, hc]

theorem ranged_pad (hlow : low ≤ n) (hhigh : n ≤ high) (h : high < 100) (rest : List Char) :
    ranged low high (pad 2 n ++ rest) = .ok (n, rest) := by
  unfold ranged
  rw [dropBlanks_pad, number_pad (by decide) (by decide) (Nat.lt_of_le_of_lt hhigh h)]
  change (if low ≤ n ∧ n ≤ high then pure (n, rest) else throw _ : Except ReadFailure _) = _
  rw [if_pos ⟨hlow, hhigh⟩]
  rfl

theorem year_pad (hn : n ≤ 9999) (rest : List Char) : year (pad 4 n ++ rest) = .ok ((n : Int), rest) := by
  have hsmall : n < 10 ^ 4 := by omega
  have hread := number_pad (by decide) (by decide) hsmall rest
  have hrange : -(bitBound 31 : Int) ≤ n ∧ (n : Int) < bitBound 31 := by
    rw [bitBound_31]
    omega
  -- for any bound, or the kernel counts up to this one
  have hkept (b : Int) (h : -b ≤ n ∧ (n : Int) < b) :
      ((Except.ok (n, rest)).map fun x : Nat × List Char => ((x.1 : Int), x.2)).bind
        (fun y => if -b ≤ y.1 ∧ y.1 < b then pure (y.1, y.2) else throw .outOfRange) =
      (.ok ((n : Int), rest) : Except ReadFailure _) := if_pos h
  unfold year
  rw [dropBlanks_pad]
  split
  · rename_i more heq
    have hmem : '-' ∈ pad 4 n := by
      obtain ⟨c, cs, hpad⟩ := List.exists_cons_of_ne_nil (pad_ne_nil 4 n)
      rw [hpad, List.cons_append] at heq
      rw [hpad, (List.cons.inj heq).1]
      exact List.mem_cons_self
    exact absurd (isDigit_pad 4 n _ hmem) (by decide)
  · rename_i more heq
    have hmem : '+' ∈ pad 4 n := by
      obtain ⟨c, cs, hpad⟩ := List.exists_cons_of_ne_nil (pad_ne_nil 4 n)
      rw [hpad, List.cons_append] at heq
      rw [hpad, (List.cons.inj heq).1]
      exact List.mem_cons_self
    exact absurd (isDigit_pad 4 n _ hmem) (by decide)
  · rw [hread]
    exact hkept _ hrange

theorem fraction_fractionText (hn : n < 10 ^ 9) (hrest : rest.takeWhile Char.isDigit = [])
    (hpoint : rest.head? ≠ some '.') : fraction (fractionText n ++ rest) = .ok (n, rest) := by
  by_cases h : n = 0
  · subst h
    change fraction rest = _
    unfold fraction
    split
    · exact absurd rfl hpoint
    · rfl
  · obtain ⟨xs, k, htext, hlength, hdigits, hpad⟩ := fractionText_spec h hn
    have hvalue : Nat.ofDigitChars 10 xs 0 * 10 ^ k = n := by
      have hdigits := ofDigitChars_pad 9 n
      rwa [← hpad, Nat.ofDigitChars_append, Nat.ofDigitChars_replicate_zero, Nat.mul_comm] at hdigits
    have hwide : xs.length + k = 9 := by
      have := congrArg List.length hpad
      rwa [length_pad (by decide) hn, List.length_append, List.length_replicate] at this
    have hsmall : Nat.ofDigitChars 10 xs 0 < bitBound 63 := by
      have hle := Nat.le_mul_of_pos_right (Nat.ofDigitChars 10 xs 0) (Nat.pow_pos (n := k) (by decide : 0 < 10))
      rw [hvalue] at hle
      exact Nat.lt_of_le_of_lt hle (Nat.lt_trans hn (by decide))
    have hne : xs ≠ [] := by
      rintro rfl
      simp at hlength
    have hlimit : xs.length ≤ 9 := by omega
    have hread := number_append hne hdigits hlimit (.inr hrest) hsmall
    have hplaces : (xs ++ rest).length - rest.length = xs.length := by
      rw [List.length_append, Nat.add_sub_cancel]
    have hskip : rest.dropWhile Char.isDigit = rest := by
      have := List.takeWhile_append_dropWhile (p := Char.isDigit) (l := rest)
      rwa [hrest, List.nil_append] at this
    have hk : 9 - xs.length = k := by omega
    rw [htext, List.cons_append]
    change ((number 9 (xs ++ rest)).bind fun x => .ok (x.1 * Nat.pow 10
      (9 - ((xs ++ rest).length - x.2.length)), x.2.dropWhile Char.isDigit)) = _
    rw [hread]
    simp only [Except.bind]
    rw [hplaces, hskip, hk]
    exact congrArg (fun n => Except.ok (n, rest)) hvalue

/-! ### Times -/

/-- A time in a year of four digits has a day that the calendar knows. -/
theorem Stamped.day (ht : t.Stamped) :
    daysOf ⟨-262143, 1, 1⟩ ≤ t.seconds / 86400 ∧ t.seconds / 86400 < daysOf ⟨262143, 1, 1⟩ := by
  obtain ⟨hlow, hhigh⟩ := ht.year
  unfold date at hlow hhigh
  rw [Int.fdiv_eq_ediv_of_nonneg _ (by decide)] at hlow hhigh
  have hfirst : (dateOf (daysOf ⟨-262143, 1, 1⟩)).year = -262143 := by decide +kernel
  have hlast : (dateOf (daysOf ⟨262143, 1, 1⟩)).year = 262143 := by decide +kernel
  constructor
  · by_contra h
    have := dateOf_before (Int.lt_of_not_ge h)
    unfold Date.Before at this
    omega
  · by_contra h
    rcases Int.lt_or_eq_of_le (Int.le_of_not_gt h) with h | h
    · have := dateOf_before h
      unfold Date.Before at this
      omega
    · rw [← h] at hhigh
      omega

theorem Stamped.inCalendar (ht : t.Stamped) : t.InCalendar := by
  obtain ⟨hlow, hhigh⟩ := ht.day
  unfold InCalendar
  omega

/-- The zones that are written. -/
def Utc (zoneText : List Char) : Prop := zoneText = ['Z'] ∨ zoneText = ['+', '0', '0', ':', '0', '0']

/-- The seconds and nanoseconds of a time are those of its clock. -/
theorem clock_eq (ht : t.Stamped) (date : Int) (hdate : date = t.seconds / 86400 * 86400) :
    (⟨date + t.hour * 3600 + t.minute * 60 + (t.second - if t.second = 60 then 1 else 0 : Nat) - 0,
      (if t.second = 60 then 1 else 0) * perSecond + t.nanos % perSecond⟩ : Instant) = t := by
  have hnanos := ht.nanos
  have hsecond : t.second = 60 ∧ t.isLeap = true ∧ t.secondOfDay.toNat % 60 = 59 ∨
      t.second = t.secondOfDay.toNat % 60 ∧ t.isLeap = false := by
    unfold second
    split
    · rename_i hl
      have := ht.leap hl
      unfold secondOfDay
      exact .inl ⟨by omega, hl, by omega⟩
    · rename_i hl
      exact .inr ⟨rfl, Bool.eq_false_iff.mpr hl⟩
  have hleap : (if t.second = 60 then 1 else 0 : Nat) = if t.isLeap then 1 else 0 := by
    rcases hsecond with ⟨hs, hl, -⟩ | ⟨hs, hl⟩
    · rw [hs, hl]
      rfl
    · rw [hl, if_neg (by omega), if_neg Bool.false_ne_true]
  rw [hleap]
  refine Instant.mk.injEq .. ▸ ⟨?_, ?_⟩
  · have hshown : t.second - (if t.isLeap then 1 else 0) = t.secondOfDay.toNat % 60 := by
      rcases hsecond with ⟨hs, hl, hmod⟩ | ⟨hs, hl⟩ <;> rw [hs, hl]
      · exact hmod.symm
      · rfl
    rw [hshown, hdate]
    unfold hour minute secondOfDay
    omega
  · unfold isLeap
    unfold perSecond at *
    split <;> simp at * <;> omega

/-- A time is read from its text as it was written. -/
theorem ofChars_civilText (ht : t.Stamped) {between : Char} (hb : between = 'T' ∨ between = ' ')
    {zoneText : List Char} (hz : Utc zoneText) : ofChars (civilText between t ++ zoneText) = .ok t := by
  obtain ⟨hmonth, hmonth', hday, hday'⟩ : 1 ≤ t.date.month ∧ t.date.month ≤ 12 ∧ 1 ≤ t.date.day ∧
      t.date.day ≤ 31 := dateOf_bounds (t.seconds.fdiv 86400)
  have hyear : ((t.date.year.toNat : Nat) : Int) = t.date.year := Int.toNat_of_nonneg ht.year.1
  have hyear' := ht.year.2
  have hseparator (rest : List Char) : separator (between :: rest) = .ok ((), rest) := by
    rcases hb with rfl | rfl <;> rfl
  have hfraction : fraction (fractionText (t.nanos % perSecond) ++ zoneText) =
      .ok (t.nanos % perSecond, zoneText) :=
    fraction_fractionText (Nat.mod_lt _ (by decide)) (by rcases hz with rfl | rfl <;> rfl)
      (by rcases hz with rfl | rfl <;> decide)
  have hzone : zone zoneText = .ok (0, []) := by rcases hz with rfl | rfl <;> rfl
  have hdash (rest : List Char) : mark '-' ('-' :: rest) = .ok ((), rest) := rfl
  have hcolon (rest : List Char) : mark ':' (':' :: rest) = .ok ((), rest) := rfl
  have hdays : daysOf ⟨t.date.year, t.date.month, t.date.day⟩ = t.seconds / 86400 := by
    rw [← Int.fdiv_eq_ediv_of_nonneg _ (by decide)]
    exact daysOf_dateOf _
  have hknown : ¬ (daysIn t.date.year t.date.month < t.date.day ∨
      ¬ Instant.InCalendar ⟨t.seconds / 86400 * 86400, 0⟩) := by
    obtain ⟨hlow, hhigh⟩ := ht.day
    rintro (h | h)
    · exact Nat.not_lt.mpr (day_dateOf_le _) h
    · refine h ⟨?_, ?_⟩ <;> dsimp only <;> omega
  rw [civilText_eq ht]
  unfold ofChars
  simp only [bind, Except.bind, year_pad (Int.toNat_le.mpr hyear'), hdash, hcolon, hseparator,
    ranged_pad hmonth hmonth' (by decide), ranged_pad hday hday' (by decide),
    ranged_pad (Nat.zero_le _) (Nat.le_of_lt_succ t.hour_lt) (by decide),
    ranged_pad (Nat.zero_le _) (Nat.le_of_lt_succ t.minute_lt) (by decide),
    ranged_pad (Nat.zero_le _) t.second_le (by decide), hfraction, hzone, hyear, hdays, if_neg hknown]
  rw [if_neg (by decide), if_neg (by decide), clock_eq ht _ rfl, if_pos ht.inCalendar]
  rfl

/-- The text of a time is read as that time. -/
theorem ofText_text (ht : t.Stamped) : ofText t.text = .ok t := by
  unfold ofText text
  rw [String.toList_ofList]
  exact ofChars_civilText ht (.inl rfl) (.inl rfl)

end Fleet.Instant
