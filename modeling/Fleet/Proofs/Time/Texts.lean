import Fleet.Proofs.Time.Calendar
import Mathlib.Algebra.Ring.Nat
import Mathlib.Data.Char
import Mathlib.Data.Nat.Init

/-!
The text of a time. Its numbers are padded, so that of two times in four-digit years the later one has the
greater text; a fraction of a second that is shorter than another one is followed by less than a digit.
-/

namespace Fleet.Instant

/-! ### Padded numbers -/

variable {w m n k : Nat} {p q xs ys : List Char} {c : Char}

theorem length_pad (hw : 1 ≤ w) (hn : n < 10 ^ w) : (pad w n).length = w := by
  have hlength := (Nat.length_toDigits_le_iff (by decide) hw).mpr hn
  simp only [pad, List.length_append, List.length_replicate]
  omega

theorem isDigit_pad (w n : Nat) : ∀ c ∈ pad w n, c.isDigit = true := by
  intro c hc
  rcases List.mem_append.mp hc with hc | hc
  · rw [List.eq_of_mem_replicate hc]
    rfl
  · exact Nat.isDigit_of_mem_toDigits (by decide) (by decide) hc

theorem pad_succ (hw : 1 ≤ w) (n : Nat) : pad (w + 1) n = pad w (n / 10) ++ [(n % 10).digitChar] := by
  unfold pad
  rcases Nat.lt_or_ge n 10 with hn | hn
  · obtain ⟨v, rfl⟩ : ∃ v, w = v + 1 := ⟨w - 1, by omega⟩
    rw [Nat.toDigits_of_lt_base hn, Nat.div_eq_of_lt hn, Nat.mod_eq_of_lt hn, Nat.toDigits_zero]
    simp [List.replicate_succ']
  · rw [Nat.toDigits_of_base_le (by decide) hn]
    simp

theorem pad_mul (hw : 1 ≤ w) (n k : Nat) : pad w n ++ List.replicate k '0' = pad (w + k) (n * 10 ^ k) := by
  induction k with
  | zero => simp
  | succ k ih =>
    rw [← Nat.add_assoc, pad_succ (by omega), List.replicate_succ', ← List.append_assoc, ih]
    have hdiv : n * 10 ^ (k + 1) / 10 = n * 10 ^ k := by
      rw [Nat.pow_succ, ← Nat.mul_assoc, Nat.mul_div_cancel _ (by decide)]
    have hmod : n * 10 ^ (k + 1) % 10 = 0 := by
      rw [Nat.pow_succ, ← Nat.mul_assoc, Nat.mul_mod_left]
    rw [hdiv, hmod]
    rfl

theorem digitChar_lt : ∀ n < 10, ∀ m < n, m.digitChar < n.digitChar := by decide

/-- The greater number has the greater text, whatever follows. -/
theorem pad_append_lt (hw : 1 ≤ w) (hn : n < 10 ^ w) (h : m < n) : pad w m ++ p < pad w n ++ q := by
  induction w, hw using Nat.le_induction generalizing m n p q with
  | base =>
    have hpad (x : Nat) (hx : x < 10) : pad 1 x = [x.digitChar] := by
      rw [pad, Nat.toDigits_of_lt_base hx]
      rfl
    rw [hpad m (by omega), hpad n (by omega), List.singleton_append, List.singleton_append,
      List.cons_lt_cons_iff]
    exact .inl (digitChar_lt n (by omega) m h)
  | succ w hw ih =>
    rw [pad_succ hw, pad_succ hw, List.append_assoc, List.append_assoc]
    have hdiv : m / 10 ≤ n / 10 := Nat.div_le_div_right (Nat.le_of_lt h)
    rcases Nat.lt_or_eq_of_le hdiv with hlt | heq
    · exact ih (by omega) hlt
    · rw [heq]
      refine List.append_left_lt ?_
      rw [List.singleton_append, List.singleton_append, List.cons_lt_cons_iff]
      exact .inl (digitChar_lt _ (Nat.mod_lt _ (by decide)) _ (by omega))

/-- A number decides, or what follows it does. -/
theorem pad_lt (hw : 1 ≤ w) (hn : n < 10 ^ w) (h : m < n ∨ m = n ∧ p < q) :
    pad w m ++ p < pad w n ++ q := by
  rcases h with h | ⟨rfl, h⟩
  · exact pad_append_lt hw hn h
  · exact List.append_left_lt h

/-! ### Fractions of a second -/

theorem zero_le_digit (h : c.isDigit = true) : '0' ≤ c := by
  simp only [Char.isDigit, Bool.and_eq_true, decide_eq_true_eq] at h
  exact h.1

/-- Nothing of digits is less than as many zeros. -/
theorem not_lt_zeros (hx : ∀ c ∈ xs, c.isDigit = true) : ¬ xs < List.replicate xs.length '0' := by
  induction xs with
  | nil => exact List.lt_irrefl _
  | cons x rest ih =>
    rw [List.length_cons, List.replicate_succ, List.cons_lt_cons_iff]
    rintro (h | ⟨rfl, h⟩)
    · exact Char.not_lt.mpr (zero_le_digit (hx x List.mem_cons_self)) h
    · exact ih (fun c hc => hx c (List.mem_cons_of_mem _ hc)) h

/-- Places that are left out count as zeros, and less than a digit follows. -/
theorem trimmed_lt {l : Nat} (hx : ∀ c ∈ xs, c.isDigit = true) (hy : ∀ c ∈ ys, c.isDigit = true)
    (hlength : xs.length + k = ys.length + l)
    (h : xs ++ List.replicate k '0' < ys ++ List.replicate l '0') (hc : c < '0') :
    xs ++ c :: p < ys ++ c :: q := by
  induction xs generalizing ys with
  | nil =>
    cases ys with
    | nil =>
      have hsame : k = l := by simpa using hlength
      subst hsame
      exact absurd h (List.lt_irrefl _)
    | cons y ys =>
      rw [List.nil_append, List.cons_append, List.cons_lt_cons_iff]
      exact .inl (lt_of_lt_of_le hc (zero_le_digit (hy y List.mem_cons_self)))
  | cons x xs ih =>
    cases ys with
    | nil =>
      have hzeros : l = (x :: xs ++ List.replicate k '0').length := by
        rw [List.length_append, List.length_replicate, hlength, List.length_nil, Nat.zero_add]
      rw [hzeros, List.nil_append] at h
      refine absurd h (not_lt_zeros fun c hc => ?_)
      · rcases List.mem_append.mp hc with hc | hc
        · exact hx c hc
        · rw [List.eq_of_mem_replicate hc]
          rfl
    | cons y ys =>
      rw [List.cons_append, List.cons_append, List.cons_lt_cons_iff] at h ⊢
      refine h.imp_right fun ⟨he, h⟩ => ⟨he, ?_⟩
      refine ih (fun c hc => hx c (List.mem_cons_of_mem _ hc)) (fun c hc => hy c (List.mem_cons_of_mem _ hc))
        ?_ h
      simp only [List.length_cons] at hlength
      omega

/-- A fraction is its nine places without some zeros at the end. -/
theorem fractionText_spec (h : n ≠ 0) (hn : n < 10 ^ 9) : ∃ xs k, fractionText n = '.' :: xs ∧
    3 ≤ xs.length ∧ (∀ c ∈ xs, c.isDigit = true) ∧ xs ++ List.replicate k '0' = pad 9 n := by
  unfold fractionText
  rw [if_neg h]
  split
  · rename_i hdiv
    refine ⟨_, 6, rfl, ?_, isDigit_pad _ _, ?_⟩
    · rw [length_pad] <;> omega
    · have hexact : n / 1000000 * 10 ^ 6 = n := by omega
      rw [pad_mul (by decide), hexact]
  · split
    · rename_i hdiv
      refine ⟨_, 3, rfl, ?_, isDigit_pad _ _, ?_⟩
      · rw [length_pad] <;> omega
      · have hexact : n / 1000 * 10 ^ 3 = n := by omega
        rw [pad_mul (by decide), hexact]
    · refine ⟨_, 0, rfl, ?_, isDigit_pad _ _, List.append_nil _⟩
      rw [length_pad] <;> omega

theorem fractionText_lt (h : m < n) (hn : n < 10 ^ 9) (hc : c < '.') :
    fractionText m ++ c :: p < fractionText n ++ c :: q := by
  obtain ⟨ys, l, hy, -, hydigits, hypad⟩ := fractionText_spec (by omega : n ≠ 0) hn
  rw [hy]
  by_cases hm : m = 0
  · subst hm
    change c :: p < '.' :: (ys ++ c :: q)
    rw [List.cons_lt_cons_iff]
    exact .inl hc
  · obtain ⟨xs, k, hx, -, hxdigits, hxpad⟩ := fractionText_spec hm (by omega)
    rw [hx, List.cons_append, List.cons_append, List.cons_lt_cons_iff]
    refine .inr ⟨rfl, trimmed_lt (k := k) (l := l) hxdigits hydigits ?_ ?_ (Char.lt_trans hc (by decide))⟩
    · have hlength := congrArg List.length hxpad
      have hlength' := congrArg List.length hypad
      rw [length_pad (by decide) (by omega)] at hlength hlength'
      simp only [List.length_append, List.length_replicate] at hlength hlength'
      omega
    · rw [hxpad, hypad]
      simpa using pad_append_lt (p := []) (q := []) (by decide) hn h

/-! ### Times -/

theorem le_trans {a b c : Instant} (h : a ≤ b) (h' : b ≤ c) : a ≤ c := by
  rcases h with rfl | h
  · exact h'
  · rcases h' with rfl | h'
    · exact .inr h
    · refine .inr ?_
      change a.Before c
      change a.Before b at h
      change b.Before c at h'
      unfold Before at *
      omega

def date (t : Instant) : Date := dateOf (t.seconds.fdiv 86400)

def hour (t : Instant) : Nat := t.secondOfDay.toNat / 3600

def minute (t : Instant) : Nat := t.secondOfDay.toNat / 60 % 60

/-- The second of the minute, of which a leap second is one more. -/
def second (t : Instant) : Nat := t.secondOfDay.toNat % 60 + if t.isLeap then 1 else 0

/-- A time in a year of four digits. A leap second is the last of its minute. -/
structure Stamped (t : Instant) : Prop where
  year : 0 ≤ t.date.year ∧ t.date.year ≤ 9999
  nanos : t.nanos < 2 * perSecond
  leap : t.isLeap = true → t.seconds % 60 = 59

instance (t : Instant) : Decidable t.Stamped :=
  decidable_of_iff ((0 ≤ t.date.year ∧ t.date.year ≤ 9999) ∧ t.nanos < 2 * perSecond ∧
    (t.isLeap = true → t.seconds % 60 = 59)) ⟨fun ⟨hy, hn, hl⟩ => ⟨hy, hn, hl⟩,
      fun ⟨hy, hn, hl⟩ => ⟨hy, hn, hl⟩⟩

/-- Of two times the later one has the later date, or on the same date the later time of day. -/
theorem clock_lt {a b : Instant} (ha : a.Stamped) (hb : b.Stamped) (h : a < b) :
    a.date.Before b.date ∨ a.date = b.date ∧ (a.hour < b.hour ∨ a.hour = b.hour ∧
      (a.minute < b.minute ∨ a.minute = b.minute ∧ (a.second < b.second ∨ a.second = b.second ∧
        a.nanos % perSecond < b.nanos % perSecond))) := by
  have hnanos := ha.nanos
  have hnanos' := hb.nanos
  have hday : a.seconds / 86400 ≤ b.seconds / 86400 := by
    rcases h with h | ⟨h, -⟩ <;> omega
  unfold date
  rw [Int.fdiv_eq_ediv_of_nonneg _ (by decide), Int.fdiv_eq_ediv_of_nonneg _ (by decide)]
  rcases Int.lt_or_eq_of_le hday with hlt | heq
  · exact .inl (dateOf_before hlt)
  · refine .inr ⟨by rw [heq], ?_⟩
    rcases h with h | ⟨h, h'⟩
    · -- a leap second is followed by another minute
      have hsecond : a.second ≤ a.secondOfDay.toNat % 60 + 1 ∧
          (a.secondOfDay.toNat % 60 < 59 → a.second = a.secondOfDay.toNat % 60) := by
        unfold second secondOfDay
        split
        · have := ha.leap ‹_›
          omega
        · omega
      have hsecond' : b.secondOfDay.toNat % 60 ≤ b.second := Nat.le_add_right _ _
      unfold secondOfDay at hsecond hsecond'
      unfold hour minute secondOfDay
      omega
    · have hsame : a.secondOfDay = b.secondOfDay := by rw [secondOfDay, secondOfDay, h]
      refine .inr ⟨by rw [hour, hour, hsame], .inr ⟨by rw [minute, minute, hsame], ?_⟩⟩
      unfold second isLeap
      unfold perSecond at *
      rw [hsame]
      by_cases hl : 1000000000 ≤ a.nanos
      · have hl' : 1000000000 ≤ b.nanos := by omega
        exact .inr ⟨by simp [hl, hl'], by omega⟩
      · by_cases hl' : 1000000000 ≤ b.nanos
        · exact .inl (by simp [hl, hl'])
        · exact .inr ⟨by simp [hl, hl'], by omega⟩

theorem civilText_eq {t : Instant} (ht : t.Stamped) (mark : Char) (p : List Char) :
    civilText mark t ++ p = pad 4 t.date.year.toNat ++ '-' :: (pad 2 t.date.month ++ '-' ::
      (pad 2 t.date.day ++ mark :: (pad 2 t.hour ++ ':' :: (pad 2 t.minute ++ ':' ::
        (pad 2 t.second ++ (fractionText (t.nanos % perSecond) ++ p)))))) := by
  have hrest : t.seconds - t.seconds.fdiv 86400 * 86400 = t.secondOfDay := by
    rw [Int.fdiv_eq_ediv_of_nonneg _ (by decide), secondOfDay]
    omega
  have hyear : yearText t.date.year = pad 4 t.date.year.toNat := if_pos ht.year
  unfold civilText
  dsimp only
  rw [hrest, ← hyear]
  simp only [List.append_assoc, List.cons_append]
  rfl

theorem hour_lt (t : Instant) : t.hour < 24 := by
  unfold hour secondOfDay
  omega

theorem minute_lt (t : Instant) : t.minute < 60 := Nat.mod_lt _ (by decide)

theorem second_le (t : Instant) : t.second ≤ 60 := by
  unfold second
  split <;> omega

/-- Of two times the later one has the greater text, where less than a digit and a point follows. -/
theorem civilText_lt {a b : Instant} (ha : a.Stamped) (hb : b.Stamped) (h : a < b) (mark : Char)
    (hc : c < '.') : civilText mark a ++ c :: p < civilText mark b ++ c :: q := by
  obtain ⟨-, hmonth, -, hday⟩ := dateOf_bounds (b.seconds.fdiv 86400)
  have hyear := ha.year
  have hyear' := hb.year
  have htail {d : Char} {xs ys : List Char} (h : xs < ys) : d :: xs < d :: ys :=
    List.cons_lt_cons_iff.mpr (.inr ⟨rfl, h⟩)
  rw [civilText_eq ha, civilText_eq hb]
  have hclock := clock_lt ha hb h
  refine pad_lt (by decide) (by omega) ?_
  rcases hclock with (hy | ⟨hy, hd⟩) | ⟨hdate, ht⟩
  · exact .inl (by omega)
  · refine .inr ⟨by rw [hy], htail (pad_lt (by decide) (Nat.lt_of_le_of_lt hmonth (by decide)) ?_)⟩
    rcases hd with hd | ⟨hm, hd⟩
    · exact .inl hd
    · exact .inr ⟨hm, htail (pad_lt (by decide) (Nat.lt_of_le_of_lt hday (by decide)) (.inl hd))⟩
  · rw [hdate]
    refine .inr ⟨rfl, htail (List.append_left_lt (htail (List.append_left_lt (htail ?_))))⟩
    refine pad_lt (by decide) (Nat.lt_trans b.hour_lt (by decide)) (ht.imp_right fun ⟨hh, ht⟩ => ⟨hh, htail ?_⟩)
    refine pad_lt (by decide) (Nat.lt_trans b.minute_lt (by decide))
      (ht.imp_right fun ⟨hm, ht⟩ => ⟨hm, htail ?_⟩)
    refine pad_lt (by decide) (Nat.lt_of_le_of_lt b.second_le (by decide))
      (ht.imp_right fun ⟨hs, ht⟩ => ⟨hs, ?_⟩)
    exact fractionText_lt ht (Nat.mod_lt _ (by decide)) hc

end Fleet.Instant
