import Rota.Schedule.Slot
import Mathlib.Tactic.IntervalCases
import Mathlib.Tactic.SplitIfs

/-!
# Months on the line of days

Dates and day numbers are read here as one division of the line of days into months:

* `monthStart`             the day on which the month with an index begins;
* `monthStart_succ`        a month ends where the next one begins;
* `monthOfDay_spec`        a day belongs to the month between whose ends it lies;
* `clampedDay_add_le`      the days that a monthly schedule asks for are four weeks apart or more.

Years begin in March inside the conversions.  `daysBefore` is the same count, by year and month of
such years, and both directions of the conversion are compared with it.
-/

namespace Rota.Calendar

def monthStart (index : Int) : Int := clampedDay index 1

/-- the number of the first day of month `m` of year `y`, years beginning in March, which is month
`0` -/
def daysBefore (y m : Int) : Int :=
  365 * y + y / 4 - y / 100 + y / 400 + (153 * m + 2) / 5 - 719468

/-! ## the beginnings of months -/

theorem monthLength_bounds (year : Int) (month : Nat) :
    28 ≤ monthLength year month ∧ monthLength year month ≤ 31 := by
  unfold monthLength
  split_ifs <;> omega

theorem isLeapYear_iff (year : Int) :
    isLeapYear year = true ↔ year % 4 = 0 ∧ year % 100 ≠ 0 ∨ year % 400 = 0 := by
  simp [isLeapYear]

theorem exists_march (index : Int) :
    ∃ y m : Int, (0 ≤ m ∧ m ≤ 11) ∧ index = 12 * y + m + 2 :=
  ⟨(index - 2) / 12, (index - 2) % 12, by omega⟩

theorem ofIndex_march (y m : Int) (h0 : 0 ≤ m) (h1 : m ≤ 11) :
    (m ≤ 9 ∧ yearOfIndex (12 * y + m + 2) = y ∧ monthOfIndex (12 * y + m + 2) = m.toNat + 3) ∨
    (m = 10 ∧ yearOfIndex (12 * y + m + 2) = y + 1 ∧ monthOfIndex (12 * y + m + 2) = 1) ∨
    (m = 11 ∧ yearOfIndex (12 * y + m + 2) = y + 1 ∧ monthOfIndex (12 * y + m + 2) = 2) := by
  unfold yearOfIndex monthOfIndex
  omega

theorem monthStart_eq_number (index : Int) :
    monthStart index = Date.number ⟨yearOfIndex index, monthOfIndex index, 1⟩ := by
  have h := (monthLength_bounds (yearOfIndex index) (monthOfIndex index)).1
  show Date.number ⟨_, _, min 1 (monthLength _ _)⟩ = _
  rw [Nat.min_eq_left (by omega)]

theorem monthStart_march (y m : Int) (h0 : 0 ≤ m) (h1 : m ≤ 11) :
    monthStart (12 * y + m + 2) = daysBefore y m := by
  rw [monthStart_eq_number]
  unfold Date.number daysBefore
  rcases ofIndex_march y m h0 h1 with ⟨hm, ey, em⟩ | ⟨rfl, ey, em⟩ | ⟨rfl, ey, em⟩
  · rw [ey, em, if_neg (by simp), if_neg (by simp)]
    simp only [Nat.cast_add, Int.toNat_of_nonneg h0]
    omega
  · rw [ey, em]
    simp
  · rw [ey, em]
    simp

theorem clampedDay_eq (index : Int) (day : Nat) :
    clampedDay index day = monthStart index
      + (min day (monthLength (yearOfIndex index) (monthOfIndex index)) : Nat) - 1 := by
  rw [monthStart_eq_number]
  unfold clampedDay Date.number
  simp only
  omega

theorem monthStart_succ (index : Int) :
    monthStart (index + 1)
      = monthStart index + monthLength (yearOfIndex index) (monthOfIndex index) := by
  obtain ⟨y, m, hm, rfl⟩ := exists_march index
  rw [monthStart_march y m hm.1 hm.2]
  rcases ofIndex_march y m hm.1 hm.2 with ⟨h9, ey, em⟩ | ⟨rfl, ey, em⟩ | ⟨rfl, ey, em⟩
  · rw [show 12 * y + m + 2 + 1 = 12 * y + (m + 1) + 2 by omega,
      monthStart_march y (m + 1) (by omega) (by omega), ey, em]
    obtain ⟨h0, -⟩ := hm
    unfold daysBefore monthLength
    interval_cases m <;> simp <;> omega
  · rw [show 12 * y + 10 + 2 + 1 = 12 * y + 11 + 2 by omega,
      monthStart_march y 11 (by omega) (by omega), ey, em]
    unfold daysBefore monthLength
    simp only [Nat.reduceEqDiff, or_self, if_false]
    omega
  · rw [show 12 * y + 11 + 2 + 1 = 12 * (y + 1) + 0 + 2 by omega,
      monthStart_march (y + 1) 0 (by omega) (by omega), ey, em]
    have hl := isLeapYear_iff (y + 1)
    unfold daysBefore monthLength
    by_cases hy : isLeapYear (y + 1) = true
    · have := hl.1 hy
      rw [if_pos rfl, if_pos hy]
      omega
    · have := mt hl.2 hy
      rw [if_pos rfl, if_neg hy]
      omega

theorem monthStart_add_le (index : Int) (k : Nat) :
    monthStart index + 28 * k ≤ monthStart (index + k) := by
  induction k with
  | zero => simp
  | succ k ih =>
    have h := monthStart_succ (index + k)
    have hl := (monthLength_bounds (yearOfIndex (index + k)) (monthOfIndex (index + k))).1
    push_cast
    rw [← Int.add_assoc, h]
    omega

theorem monthStart_add_28_le {i j : Int} (h : i < j) : monthStart i + 28 ≤ monthStart j := by
  have := monthStart_add_le i (j - i).toNat
  rw [show i + ((j - i).toNat : Int) = j by omega] at this
  omega

theorem monthStart_mono {i j : Int} (h : i ≤ j) : monthStart i ≤ monthStart j := by
  obtain h | rfl := (by omega : i < j ∨ i = j)
  · have := monthStart_add_28_le h
    omega
  · exact Int.le_refl _

/-! ## the day of a monthly schedule -/

section
variable {day : Nat} (hday : 1 ≤ day)
include hday

theorem clampedDay_mem (index : Int) :
    monthStart index ≤ clampedDay index day ∧ clampedDay index day < monthStart (index + 1) := by
  have hs := monthStart_succ index
  have hl := (monthLength_bounds (yearOfIndex index) (monthOfIndex index)).1
  rw [clampedDay_eq index day, hs]
  omega

theorem clampedDay_succ_le (index : Int) :
    clampedDay index day + 28 ≤ clampedDay (index + 1) day := by
  have hs := monthStart_succ index
  have hl := monthLength_bounds (yearOfIndex index) (monthOfIndex index)
  have hl' := monthLength_bounds (yearOfIndex (index + 1)) (monthOfIndex (index + 1))
  rw [clampedDay_eq index day, clampedDay_eq (index + 1) day, hs]
  omega

theorem clampedDay_le_succ (index : Int) :
    clampedDay (index + 1) day ≤ clampedDay index day + 31 := by
  have hs := monthStart_succ index
  have hl := monthLength_bounds (yearOfIndex index) (monthOfIndex index)
  have hl' := monthLength_bounds (yearOfIndex (index + 1)) (monthOfIndex (index + 1))
  rw [clampedDay_eq index day, clampedDay_eq (index + 1) day, hs]
  omega

theorem clampedDay_add_le {i j : Int} (h : i < j) :
    clampedDay i day + 28 ≤ clampedDay j day := by
  obtain h | rfl := (by omega : i + 1 < j ∨ j = i + 1)
  · have h1 := clampedDay_succ_le hday i
    have h2 := (clampedDay_mem hday (i + 1)).2
    have h3 := (clampedDay_mem hday j).1
    obtain h4 | rfl := (by omega : i + 1 + 1 < j ∨ j = i + 1 + 1)
    · have := monthStart_add_28_le h4
      omega
    · omega
  · exact clampedDay_succ_le hday i

end

/-! ## the month of a day -/

/-- the parts of a span of 400 years: centuries, spans of four years, years and days -/
theorem exists_parts {n : Int} (h0 : 0 ≤ n) (h1 : n < 146097) :
    ∃ c a b r : Int, (0 ≤ c ∧ c ≤ 3) ∧ (0 ≤ a ∧ a ≤ 24) ∧ (0 ≤ b ∧ b ≤ 3) ∧ 0 ≤ r ∧
      n = 36524 * c + 1461 * a + 365 * b + r ∧
      (r ≤ 364 ∨ r = 365 ∧ b = 3 ∧ (a < 24 ∨ c = 3)) := by
  obtain ⟨c, m, hc, hm, e⟩ : ∃ c m : Int, (0 ≤ c ∧ c ≤ 3) ∧
      (0 ≤ m ∧ (m < 36524 ∨ m = 36524 ∧ c = 3)) ∧ n = 36524 * c + m := by
    by_cases h : n = 146096
    · exact ⟨3, 36524, by omega, by omega, by omega⟩
    · exact ⟨n / 36524, n % 36524, by omega, by omega, by omega⟩
  obtain ⟨a, q, ha, hq, e'⟩ : ∃ a q : Int, (0 ≤ a ∧ a ≤ 24) ∧
      (0 ≤ q ∧ q < 1461 ∧ (q < 1460 ∨ a < 24 ∨ c = 3)) ∧ m = 1461 * a + q :=
    ⟨m / 1461, m % 1461, by omega, by omega, by omega⟩
  obtain ⟨b, r, hb, hr, e''⟩ : ∃ b r : Int, (0 ≤ b ∧ b ≤ 3) ∧
      (0 ≤ r ∧ (r < 365 ∨ r = 365 ∧ b = 3 ∧ q = 1460)) ∧ q = 365 * b + r := by
    by_cases h : q = 1460
    · exact ⟨3, 365, by omega, by omega, by omega⟩
    · exact ⟨q / 365, q % 365, by omega, by omega, by omega⟩
  exact ⟨c, a, b, r, hc, ha, hb, hr.1, by omega, by omega⟩

theorem yearOfEra_eq {n c a b r : Int} (hc : 0 ≤ c ∧ c ≤ 3) (ha : 0 ≤ a ∧ a ≤ 24)
    (hb : 0 ≤ b ∧ b ≤ 3) (hr : 0 ≤ r) (hn : n = 36524 * c + 1461 * a + 365 * b + r)
    (hl : r ≤ 364 ∨ r = 365 ∧ b = 3 ∧ (a < 24 ∨ c = 3)) :
    (n - n / 1460 + n / 36524 - n / 146096) / 365 = 100 * c + 4 * a + b := by
  -- the days that are left of the year, less the leap days that were counted too early
  have h1 : 0 ≤ r - (n / 1460 - 25 * c - a) ∧ r - (n / 1460 - 25 * c - a) < 365 := by omega
  have h2 : n / 36524 = c ∨ n / 36524 = c + 1 ∧ r = 365 := by omega
  have h3 : n / 146096 = n / 36524 - c := by omega
  have h4 : n - n / 1460 + n / 36524 - n / 146096
      = r - (n / 1460 - 25 * c - a) + 365 * (100 * c + 4 * a + b) := by omega
  rw [h4, Int.add_mul_ediv_left _ _ (by decide), Int.ediv_eq_zero_of_lt h1.1 h1.2, Int.zero_add]

theorem daysBefore_parts {c a b : Int} (e m : Int) (hc : 0 ≤ c ∧ c ≤ 3) (ha : 0 ≤ a ∧ a ≤ 24)
    (hb : 0 ≤ b ∧ b ≤ 3) : daysBefore (100 * c + 4 * a + b + e * 400) m
      = 146097 * e + 36524 * c + 1461 * a + 365 * b + (153 * m + 2) / 5 - 719468 := by
  have h4 : (100 * c + 4 * a + b + e * 400) / 4 = 25 * c + a + 100 * e := by omega
  have h100 : (100 * c + 4 * a + b + e * 400) / 100 = c + 4 * e := by omega
  have h400 : (100 * c + 4 * a + b + e * 400) / 400 = e := by omega
  unfold daysBefore
  omega

theorem daysBefore_succ {c a b : Int} (e : Int) (hc : 0 ≤ c ∧ c ≤ 3) (ha : 0 ≤ a ∧ a ≤ 24)
    (hb : 0 ≤ b ∧ b ≤ 3) : daysBefore (100 * c + 4 * a + b + e * 400 + 1) 0
      = daysBefore (100 * c + 4 * a + b + e * 400) 0
        + if b = 3 ∧ (a < 24 ∨ c = 3) then 366 else 365 := by
  rw [daysBefore_parts e 0 hc ha hb]
  unfold daysBefore
  split_ifs <;> omega

theorem monthOfYear_spec {r m : Int} (hr : 0 ≤ r ∧ r ≤ 365) (hm : (5 * r + 2) / 153 = m) :
    (0 ≤ m ∧ m ≤ 11) ∧ (153 * m + 2) / 5 ≤ r ∧ r < (153 * (m + 1) + 2) / 5 := by
  omega

/-- the date of a day, by year and month counted from March and the days since that month began -/
theorem exists_ofNumber (n : Int) :
    ∃ y m : Int, (0 ≤ m ∧ m ≤ 11) ∧
      Date.ofNumber n = ⟨if m < 10 then y else y + 1, (if m < 10 then m + 3 else m - 9).toNat,
        (n - daysBefore y m + 1).toNat⟩ ∧
      daysBefore y m ≤ n ∧ n < if m = 11 then daysBefore (y + 1) 0 else daysBefore y (m + 1) := by
  obtain ⟨e, n', h0, h1, en⟩ : ∃ e n' : Int, 0 ≤ n' ∧ n' < 146097 ∧ n + 719468 = 146097 * e + n' :=
    ⟨(n + 719468) / 146097, (n + 719468) % 146097, by omega, by omega, by omega⟩
  obtain ⟨c, a, b, r, hc, ha, hb, hr, hn, hl⟩ := exists_parts h0 h1
  obtain ⟨m, em⟩ : ∃ m, (5 * r + 2) / 153 = m := ⟨_, rfl⟩
  obtain ⟨hm, hle, hlt⟩ := monthOfYear_spec ⟨hr, by omega⟩ em
  refine ⟨100 * c + 4 * a + b + e * 400, m, hm, ?_, ?_, ?_⟩
  · have hy := yearOfEra_eq hc ha hb hr hn hl
    have hd : n' - (365 * (100 * c + 4 * a + b) + (100 * c + 4 * a + b) / 4
        - (100 * c + 4 * a + b) / 100) = r := by
      have h4 : (100 * c + 4 * a + b) / 4 = 25 * c + a := by omega
      have h100 : (100 * c + 4 * a + b) / 100 = c := by omega
      omega
    have hera : (n + 719468) / 146097 = e := by omega
    have hdoe : (n + 719468) % 146097 = n' := by omega
    have hday : n - daysBefore (100 * c + 4 * a + b + e * 400) m = r - (153 * m + 2) / 5 := by
      rw [daysBefore_parts e _ hc ha hb]
      omega
    unfold Date.ofNumber
    simp only [hera, hdoe, hy, hd, em, hday, Date.mk.injEq, and_true]
    split_ifs <;> omega
  · rw [daysBefore_parts e _ hc ha hb]
    omega
  · split_ifs with h
    · rw [daysBefore_succ e hc ha hb, daysBefore_parts e _ hc ha hb]
      split_ifs <;> omega
    · rw [daysBefore_parts e _ hc ha hb]
      omega

theorem exists_monthOfDay (n : Int) :
    ∃ y m : Int, (0 ≤ m ∧ m ≤ 11) ∧ monthOfDay n = 12 * y + m + 2 ∧ daysBefore y m ≤ n ∧
      n < if m = 11 then daysBefore (y + 1) 0 else daysBefore y (m + 1) := by
  obtain ⟨y, m, hm, e, h⟩ := exists_ofNumber n
  refine ⟨y, m, hm, ?_, h⟩
  simp only [monthOfDay, monthIndex, e]
  split_ifs <;> omega

/-- a day belongs to the month between whose ends it lies -/
theorem monthOfDay_spec (n : Int) :
    monthStart (monthOfDay n) ≤ n ∧ n < monthStart (monthOfDay n + 1) := by
  obtain ⟨y, m, hm, e, h0, h1⟩ := exists_monthOfDay n
  rw [e, monthStart_march y m hm.1 hm.2]
  refine ⟨h0, ?_⟩
  split_ifs at h1 with h
  · rwa [show 12 * y + m + 2 + 1 = 12 * (y + 1) + 0 + 2 by omega,
      monthStart_march (y + 1) 0 (by omega) (by omega)]
  · rwa [show 12 * y + m + 2 + 1 = 12 * y + (m + 1) + 2 by omega,
      monthStart_march y (m + 1) (by omega) (by omega)]

theorem lt_monthOfDay {n i : Int} (h : i < monthOfDay n) : monthStart (i + 1) ≤ n := by
  have hn := (monthOfDay_spec n).1
  obtain h | e := (by omega : i + 1 < monthOfDay n ∨ i + 1 = monthOfDay n)
  · have := monthStart_add_28_le h
    omega
  · rwa [e]

theorem monthOfDay_lt {n i : Int} (h : monthOfDay n < i) : n < monthStart i := by
  have hn := (monthOfDay_spec n).2
  obtain h | e := (by omega : monthOfDay n + 1 < i ∨ monthOfDay n + 1 = i)
  · have := monthStart_add_28_le h
    omega
  · rwa [← e]

theorem monthOfDay_mono {m n : Int} (h : m ≤ n) : monthOfDay m ≤ monthOfDay n := by
  by_contra hlt
  have h1 := lt_monthOfDay (n := m) (i := monthOfDay n) (by omega)
  have h2 := (monthOfDay_spec n).2
  omega

theorem monthOfDay_eq {n i : Int} (h0 : monthStart i ≤ n) (h1 : n < monthStart (i + 1)) :
    monthOfDay n = i := by
  rcases lt_trichotomy (monthOfDay n) i with h | h | h
  · have := monthOfDay_lt h
    omega
  · exact h
  · have := lt_monthOfDay h
    omega

theorem monthOfDay_clampedDay (index : Int) {day : Nat} (h : 1 ≤ day) :
    monthOfDay (clampedDay index day) = index :=
  monthOfDay_eq (clampedDay_mem h index).1 (clampedDay_mem h index).2

/-! ## the ends of the calendar -/

theorem firstDay_eq_monthStart : firstDay = monthStart firstMonth := by decide

theorem lastDay_add_one_eq_monthStart : lastDay + 1 = monthStart (lastMonth + 1) := by decide

theorem monthOfDay_mem {n : Int} (h0 : firstDay ≤ n) (h1 : n ≤ lastDay) :
    firstMonth ≤ monthOfDay n ∧ monthOfDay n ≤ lastMonth := by
  have hf := firstDay_eq_monthStart
  have hl := lastDay_add_one_eq_monthStart
  constructor
  · by_contra h
    have := monthOfDay_lt (n := n) (i := firstMonth) (by omega)
    omega
  · by_contra h
    have := lt_monthOfDay (n := n) (i := lastMonth) (by omega)
    omega

theorem clampedDay_mem_calendar {index : Int} {day : Nat} (hday : 1 ≤ day)
    (h0 : firstMonth ≤ index) (h1 : index ≤ lastMonth) :
    firstDay ≤ clampedDay index day ∧ clampedDay index day ≤ lastDay := by
  have hm := clampedDay_mem hday index
  have hf := monthStart_mono h0
  have hl := monthStart_mono (i := index + 1) (j := lastMonth + 1) (by omega)
  rw [← firstDay_eq_monthStart] at hf
  rw [← lastDay_add_one_eq_monthStart] at hl
  omega

end Rota.Calendar
