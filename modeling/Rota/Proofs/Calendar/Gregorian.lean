import Rota.Proofs.Calendar.Month

/-!
# The Gregorian calendar

Day numbers and dates are two names of the same days, and the dates follow each other by the rules of
the proleptic Gregorian calendar.

* `Date.isValid_ofNumber`, `Date.number_ofNumber`, `Date.ofNumber_number`   valid dates are the dates
  of the day numbers;
* `Date.next`, `Date.ofNumber_succ`   the date of the next day;
* `Moment.day`, `Moment.date`, `Moment.IsAt`   day, date and time of day of a moment, in UTC.
-/

namespace Rota

namespace Calendar

theorem ofIndex_monthIndex (year : Int) {month : Nat} (h0 : 1 ≤ month) (h1 : month ≤ 12) :
    yearOfIndex (monthIndex year month) = year ∧
      monthOfIndex (monthIndex year month) = month := by
  unfold yearOfIndex monthOfIndex monthIndex
  omega

namespace Date

theorem isValid_iff {d : Date} : d.isValid = true ↔
    1 ≤ d.month ∧ d.month ≤ 12 ∧ 1 ≤ d.day ∧ d.day ≤ monthLength d.year d.month := by
  simp only [isValid, Bool.and_eq_true, decide_eq_true_eq, and_assoc]

theorem number_eq {d : Date} (h0 : 1 ≤ d.month) (h1 : d.month ≤ 12) :
    d.number = monthStart (monthIndex d.year d.month) + d.day - 1 := by
  obtain ⟨ey, em⟩ := ofIndex_monthIndex d.year h0 h1
  rw [monthStart_eq_number, ey, em]
  unfold number
  simp only
  omega

/-! ## the date of a day -/

theorem ofNumber_month (n : Int) : 1 ≤ (ofNumber n).month ∧ (ofNumber n).month ≤ 12 := by
  obtain ⟨y, m, hm, e, -⟩ := exists_ofNumber n
  rw [e]
  simp only
  split_ifs <;> omega

theorem ofNumber_index (n : Int) :
    yearOfIndex (monthOfDay n) = (ofNumber n).year ∧
      monthOfIndex (monthOfDay n) = (ofNumber n).month :=
  ofIndex_monthIndex _ (ofNumber_month n).1 (ofNumber_month n).2

theorem ofNumber_day (n : Int) : ((ofNumber n).day : Int) = n - monthStart (monthOfDay n) + 1 := by
  obtain ⟨y, m, hm, e, h0, -⟩ := exists_ofNumber n
  have hmonth : monthOfDay n = 12 * y + m + 2 := by
    simp only [monthOfDay, monthIndex, e]
    split_ifs <;> omega
  rw [hmonth, monthStart_march y m hm.1 hm.2, e]
  simp only
  omega

theorem number_ofNumber (n : Int) : (ofNumber n).number = n := by
  rw [number_eq (ofNumber_month n).1 (ofNumber_month n).2, ofNumber_day]
  show monthStart (monthOfDay n) + _ - 1 = n
  omega

theorem isValid_ofNumber (n : Int) : (ofNumber n).isValid = true := by
  have hs := monthOfDay_spec n
  have hd := ofNumber_day n
  obtain ⟨ey, em⟩ := ofNumber_index n
  rw [monthStart_succ, ey, em] at hs
  rw [isValid_iff]
  exact ⟨(ofNumber_month n).1, (ofNumber_month n).2, by omega, by omega⟩

theorem monthOfDay_number {d : Date} (h : d.isValid = true) :
    monthOfDay d.number = monthIndex d.year d.month := by
  obtain ⟨h0, h1, h2, h3⟩ := isValid_iff.1 h
  obtain ⟨ey, em⟩ := ofIndex_monthIndex d.year h0 h1
  have hs := monthStart_succ (monthIndex d.year d.month)
  rw [ey, em] at hs
  rw [number_eq h0 h1]
  exact monthOfDay_eq (by omega) (by omega)

theorem ofNumber_number {d : Date} (h : d.isValid = true) : ofNumber d.number = d := by
  obtain ⟨h0, h1, -, -⟩ := isValid_iff.1 h
  obtain ⟨ey, em⟩ := ofIndex_monthIndex d.year h0 h1
  obtain ⟨ey', em'⟩ := ofNumber_index d.number
  have hd := ofNumber_day d.number
  rw [monthOfDay_number h] at ey' em' hd
  have hn := number_eq h0 h1
  -- the two dates have one month, and the same days of it before them
  have hday : (ofNumber d.number).day = d.day := by omega
  calc ofNumber d.number = ⟨(ofNumber d.number).year, (ofNumber d.number).month,
        (ofNumber d.number).day⟩ := rfl
    _ = ⟨d.year, d.month, d.day⟩ := by rw [hday, ← ey', ← em', ey, em]
    _ = d := rfl

/-! ## the date of the next day -/

/-- the date after a date: the next day of the month, or else the first day of the next month -/
def next (d : Date) : Date :=
  if d.day < monthLength d.year d.month then ⟨d.year, d.month, d.day + 1⟩
  else if d.month < 12 then ⟨d.year, d.month + 1, 1⟩
  else ⟨d.year + 1, 1, 1⟩

theorem isValid_next {d : Date} (h : d.isValid = true) : d.next.isValid = true := by
  rw [isValid_iff] at *
  unfold next
  split_ifs
  · simp only
    omega
  · have hl := (monthLength_bounds d.year (d.month + 1)).1
    simp only
    omega
  · have hl := (monthLength_bounds (d.year + 1) 1).1
    simp only
    omega

theorem number_next {d : Date} (h : d.isValid = true) : d.next.number = d.number + 1 := by
  obtain ⟨h0, h1, h2, h3⟩ := isValid_iff.1 h
  obtain ⟨h0', h1', -, -⟩ := isValid_iff.1 (isValid_next h)
  obtain ⟨ey, em⟩ := ofIndex_monthIndex d.year h0 h1
  have hs := monthStart_succ (monthIndex d.year d.month)
  rw [ey, em] at hs
  rw [number_eq h0 h1, number_eq h0' h1']
  unfold next
  split_ifs with hday hmonth
  · simp only
    omega
  · have e : monthIndex d.year (d.month + 1) = monthIndex d.year d.month + 1 := by
      unfold monthIndex
      omega
    simp only [e]
    omega
  · have e : monthIndex (d.year + 1) 1 = monthIndex d.year d.month + 1 := by
      unfold monthIndex
      omega
    simp only [e]
    omega

/-- day numbers count the dates of the calendar one by one, from 1970-01-01 on -/
theorem ofNumber_succ (n : Int) : ofNumber (n + 1) = (ofNumber n).next := by
  have hv := isValid_ofNumber n
  rw [← ofNumber_number (isValid_next hv), number_next hv, number_ofNumber]

theorem ofNumber_zero : ofNumber 0 = ⟨1970, 1, 1⟩ := by decide

end Date

end Calendar

/-! ## moments in UTC -/

namespace Moment

def day (m : Moment) : Int := m.seconds / secondsPerDay

def date (m : Moment) : Calendar.Date := Calendar.Date.ofNumber m.day

/-- the moment shows this time of day in UTC, to the nanosecond -/
def IsAt (m : Moment) (time : TimeOfDay) : Prop :=
  m.nanos % (secondsPerDay * nanosPerSecond) = time.seconds * nanosPerSecond

instance (m : Moment) (time : TimeOfDay) : Decidable (m.IsAt time) :=
  inferInstanceAs (Decidable (_ = _))

end Moment

end Rota
