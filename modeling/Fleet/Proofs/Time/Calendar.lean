import Fleet.Time.Instant
import Mathlib.Tactic.Common

/-!
Days and dates. Years that begin in March make the leap day the last of a year, so that a day is found in
three steps, the year of its era, the month, the day; each step keeps the order of days, and dates name days.
-/

namespace Fleet.Instant

/-! ### Years of an era -/

/-- The days of an era before a year of it. -/
def daysBefore (yoe : Int) : Int := 365 * yoe + yoe / 4 - yoe / 100 + yoe / 400

/-- A year has at most one leap day. -/
theorem daysBefore_succ (y : Int) : daysBefore (y + 1) ≤ daysBefore y + 366 := by
  unfold daysBefore
  rcases (by omega : (y + 1) % 400 = 0 ∨ (y + 1) / 400 = y / 400) with h | h <;> omega

theorem daysBefore_succ_of_common {y : Int} (h : isLeapYear (y + 1) = false) :
    daysBefore (y + 1) = daysBefore y + 365 := by
  simp only [isLeapYear, Bool.and_eq_false_iff, Bool.or_eq_false_iff, decide_eq_false_iff_not,
    Decidable.not_not] at h
  unfold daysBefore
  rcases h with h | ⟨h, h'⟩
  · omega
  · rcases (by omega : (y + 1) % 400 = 0 ∨ (y + 1) / 400 = y / 400) with hd | hd <;> omega

/-- The year of a day of an era. -/
def yearOfEra (doe : Int) : Int := (doe - doe / 1460 + doe / 36524 - doe / 146096) / 365

theorem yearOfEra_succ {doe : Int} (h : 0 ≤ doe) (h' : doe < 146096) :
    yearOfEra doe ≤ yearOfEra (doe + 1) := by
  unfold yearOfEra
  omega

theorem yearOfEra_mono {a b : Int} (h : 0 ≤ a) (hab : a ≤ b) (hb : b ≤ 146096) :
    yearOfEra a ≤ yearOfEra b := by
  obtain ⟨n, rfl⟩ := Int.le.dest hab
  induction n with
  | zero => simp
  | succ n ih =>
    have hstep : yearOfEra (a + n) ≤ yearOfEra (a + n + 1) := yearOfEra_succ (by omega) (by omega)
    rw [Int.natCast_succ, ← Int.add_assoc]
    exact Int.le_trans (ih (by omega) (by omega)) hstep

/-- The first and the last day of each year of an era. -/
theorem yearOfEra_ends : ∀ y < 400, yearOfEra (daysBefore (y : Nat)) = y ∧
    yearOfEra (daysBefore ((y : Nat) + 1) - 1) = y := by decide +kernel

/-- A day lies in its year. -/
theorem yearOfEra_spec {doe : Int} (h : 0 ≤ doe) (h' : doe ≤ 146096) :
    0 ≤ yearOfEra doe ∧ yearOfEra doe ≤ 399 ∧ daysBefore (yearOfEra doe) ≤ doe ∧
      doe < daysBefore (yearOfEra doe + 1) := by
  have hfirst : yearOfEra 0 = 0 := by decide
  have hlast : yearOfEra 146096 = 399 := by decide
  have hlow := yearOfEra_mono (Int.le_refl 0) h h'
  have hhigh := yearOfEra_mono h h' (Int.le_refl _)
  rw [hfirst] at hlow
  rw [hlast] at hhigh
  obtain ⟨y, hy⟩ := Int.eq_ofNat_of_zero_le hlow
  refine ⟨hlow, hhigh, ?_, ?_⟩
  · by_contra hlt
    -- the day before the year belongs to the year before
    obtain ⟨x, rfl⟩ : ∃ x, y = x + 1 := by
      refine ⟨y - 1, ?_⟩
      have : y ≠ 0 := by
        rintro rfl
        rw [hy] at hlt
        exact hlt h
      omega
    have hx := (yearOfEra_ends x (by omega)).2
    have hmono := yearOfEra_mono (a := doe) (b := daysBefore ((x : Int) + 1) - 1) h
      (by rw [hy] at hlt; push_cast at hlt; omega) (by unfold daysBefore; omega)
    omega
  · by_contra hge
    by_cases hmax : y = 399
    · subst hmax
      have hend : daysBefore (((399 : Nat) : Int) + 1) = 146097 := by decide
      rw [hy, hend] at hge
      omega
    · have hnext := (yearOfEra_ends (y + 1) (by omega)).1
      have hmono := yearOfEra_mono (a := daysBefore ((y + 1 : Nat) : Int)) (b := doe)
        (by unfold daysBefore; omega) (by rw [hy] at hge; push_cast; omega) h'
      omega

/-! ### Dates in years that begin in March -/

/-- A date in years that begin in March, whose months are numbered from 0. -/
structure March where
  year : Int
  month : Int
  day : Int

namespace March

/-- The date of a day. -/
def ofDays (days : Int) : March :=
  let z := days + 719468
  let era := z / 146097
  let doe := z - era * 146097
  let yoe := yearOfEra doe
  let doy := doe - (365 * yoe + yoe / 4 - yoe / 100)
  let month := (5 * doy + 2) / 153
  ⟨yoe + era * 400, month, doy - (153 * month + 2) / 5 + 1⟩

def toDate (m : March) : Date :=
  let month := if m.month < 10 then m.month + 3 else m.month - 9
  ⟨m.year + if month ≤ 2 then 1 else 0, month.toNat, m.day.toNat⟩

/-- An earlier year, or an earlier month of the year, or an earlier day of the month. -/
def Before (a b : March) : Prop :=
  a.year < b.year ∨ a.year = b.year ∧ (a.month < b.month ∨ a.month = b.month ∧ a.day < b.day)

/-- The days of a year before a month. -/
def daysUntil (month : Int) : Int := (153 * month + 2) / 5

/-- A month has thirty days or thirty-one, a year as many as there are before the next one. -/
structure Proper (m : March) : Prop where
  month : 0 ≤ m.month ∧ m.month ≤ 11
  day : 1 ≤ m.day ∧ m.day ≤ daysUntil (m.month + 1) - daysUntil m.month
  year : daysUntil m.month + m.day ≤ daysBefore (m.year + 1) - daysBefore m.year

/-- The days before a date, since the first of its calendar. -/
def number (m : March) : Int := daysBefore m.year + daysUntil m.month + m.day - 1

end March

theorem dateOf_eq (days : Int) : dateOf days = (March.ofDays days).toDate := by
  unfold dateOf
  simp only [Int.fdiv_eq_ediv_of_nonneg _ (by decide : (0 : Int) ≤ 146097)]
  rfl

namespace March

/-- The date of a day is one, and the day is the one it names. -/
theorem ofDays_spec (days : Int) : (ofDays days).Proper ∧ (ofDays days).number = days + 719468 := by
  obtain ⟨z, hz⟩ : ∃ z, z = days + 719468 := ⟨_, rfl⟩
  obtain ⟨doe, hdoe⟩ : ∃ doe, doe = z - z / 146097 * 146097 := ⟨_, rfl⟩
  have hday : 0 ≤ doe ∧ doe ≤ 146096 := by omega
  obtain ⟨hlow, hhigh, hfrom, hto⟩ := yearOfEra_spec hday.1 hday.2
  obtain ⟨doy, hdoy⟩ : ∃ doy, doy = doe - daysBefore (yearOfEra doe) := ⟨_, rfl⟩
  have hof : ofDays days = ⟨yearOfEra doe + z / 146097 * 400, (5 * doy + 2) / 153,
      doy - (153 * ((5 * doy + 2) / 153) + 2) / 5 + 1⟩ := by
    have hraw : doe - (365 * yearOfEra doe + yearOfEra doe / 4 - yearOfEra doe / 100) = doy := by
      unfold daysBefore at hdoy
      omega
    rw [← hraw, hdoe, hz]
    rfl
  -- eras are alike
  have hera (y : Int) : daysBefore (y + z / 146097 * 400) = daysBefore y + z / 146097 * 146097 := by
    unfold daysBefore
    omega
  have hyear := daysBefore_succ (yearOfEra doe)
  rw [hof]
  refine ⟨⟨⟨?_, ?_⟩, ⟨?_, ?_⟩, ?_⟩, ?_⟩
  · dsimp only; omega
  · dsimp only; omega
  · dsimp only; omega
  · simp only [daysUntil]; omega
  · have hnext := hera (yearOfEra doe + 1)
    rw [Int.add_right_comm] at hnext
    simp only [daysUntil, hera, hnext]
    omega
  · simp only [number, daysUntil, hera]
    omega

theorem daysBefore_mono {x y : Int} (h : x ≤ y) : daysBefore x ≤ daysBefore y := by
  unfold daysBefore
  omega

theorem daysUntil_mono {x y : Int} (h : x ≤ y) : daysUntil x ≤ daysUntil y := by
  unfold daysUntil
  omega

/-- Dates are in the order of their days. -/
theorem before_of_number {a b : March} (ha : a.Proper) (hb : b.Proper) (h : a.number < b.number) :
    a.Before b := by
  unfold number at h
  have hday := ha.day
  have hday' := hb.day
  have hyear := ha.year
  have hyear' := hb.year
  rcases Int.lt_trichotomy a.year b.year with hlt | heq | hgt
  · exact .inl hlt
  · refine .inr ⟨heq, ?_⟩
    rw [heq] at h
    rcases Int.lt_trichotomy a.month b.month with hlt | hmonth | hgt
    · exact .inl hlt
    · rw [hmonth] at h
      exact .inr ⟨hmonth, by omega⟩
    · have := daysUntil_mono (x := b.month + 1) (y := a.month) (by omega)
      omega
  · have := daysBefore_mono (x := b.year + 1) (y := a.year) (by omega)
    have := daysUntil_mono (x := 0) (y := a.month) ha.month.1
    have : daysUntil 0 = 0 := rfl
    omega

end March

/-! ### Dates -/

/-- An earlier year, or an earlier month of the year, or an earlier day of the month. -/
def Date.Before (d e : Date) : Prop :=
  d.year < e.year ∨ d.year = e.year ∧ (d.month < e.month ∨ d.month = e.month ∧ d.day < e.day)

/-- The later of two days has the later date. -/
theorem dateOf_before {a b : Int} (h : a < b) : (dateOf a).Before (dateOf b) := by
  obtain ⟨hp, hnumber⟩ := March.ofDays_spec a
  obtain ⟨hp', hnumber'⟩ := March.ofDays_spec b
  have hbefore := March.before_of_number hp hp' (by omega)
  rw [dateOf_eq, dateOf_eq]
  have hmonth := hp.month
  have hmonth' := hp'.month
  have hday := hp.day
  have hday' := hp'.day
  unfold March.Before at hbefore
  unfold Date.Before March.toDate
  dsimp only
  omega

theorem dateOf_bounds (days : Int) : 1 ≤ (dateOf days).month ∧ (dateOf days).month ≤ 12 ∧
    1 ≤ (dateOf days).day ∧ (dateOf days).day ≤ 31 := by
  obtain ⟨hp, _⟩ := March.ofDays_spec days
  have hmonth := hp.month
  have hday := hp.day
  have hlength : March.daysUntil ((March.ofDays days).month + 1) -
      March.daysUntil (March.ofDays days).month ≤ 31 := by
    unfold March.daysUntil
    omega
  rw [dateOf_eq]
  unfold March.toDate
  dsimp only
  omega

/-- The month of a date, as it is counted from January and from March. -/
theorem toDate_month {m : March} (hp : m.Proper) :
    m.month < 10 ∧ m.toDate.month = m.month + 3 ∧ m.toDate.year = m.year ∨
    10 ≤ m.month ∧ m.toDate.month = m.month - 9 ∧ m.toDate.year = m.year + 1 := by
  have hmonth := hp.month
  unfold March.toDate
  dsimp only
  omega

/-- A date names its day. -/
theorem daysOf_dateOf (days : Int) : daysOf (dateOf days) = days := by
  obtain ⟨hp, hnumber⟩ := March.ofDays_spec days
  rw [dateOf_eq]
  generalize March.ofDays days = m at *
  have hday : (m.toDate.day : Int) = m.day := by
    have := hp.day
    change (m.day.toNat : Int) = m.day
    omega
  have hshift : (if m.toDate.month ≤ 2 then m.toDate.year - 1 else m.toDate.year) = m.year ∧
      (if m.toDate.month > 2 then (m.toDate.month : Int) - 3 else m.toDate.month + 9) = m.month := by
    have := hp.month
    rcases toDate_month hp with ⟨hlt, hm, hy⟩ | ⟨hge, hm, hy⟩ <;> constructor <;> split <;> omega
  unfold daysOf
  simp only [hshift.1, hshift.2, hday, Int.fdiv_eq_ediv_of_nonneg _ (by decide : (0 : Int) ≤ 400)]
  unfold March.number March.daysUntil daysBefore at hnumber
  omega

/-- A date has a day that its month has. -/
theorem day_dateOf_le (days : Int) : (dateOf days).day ≤ daysIn (dateOf days).year (dateOf days).month := by
  obtain ⟨hp, -⟩ := March.ofDays_spec days
  rw [dateOf_eq]
  generalize March.ofDays days = m at *
  have hday : (m.toDate.day : Int) = m.day := by
    have := hp.day
    change (m.day.toNat : Int) = m.day
    omega
  have hmonth := hp.month
  have hlength := hp.day.2
  have hyear := hp.year
  unfold March.daysUntil at hlength hyear
  unfold daysIn
  rcases toDate_month hp with ⟨hlt, hm, -⟩ | ⟨hge, hm, hy⟩
  · rw [if_neg (by omega)]
    split <;> omega
  · rw [hy]
    split
    · split
      · have := daysBefore_succ m.year
        omega
      · rename_i hcommon
        have := daysBefore_succ_of_common (Bool.eq_false_iff.mpr hcommon)
        omega
    · split <;> omega

end Fleet.Instant
