import Mathlib.Data.List.TakeWhile
import Rota.Calendar.Rfc3339
import Rota.Proofs.Calendar.Gregorian
import Rota.Proofs.Calendar.Moment
import Rota.Proofs.Text.Numeral

/-!
# RFC 3339, both ways

Every stamp of the calendar is read back from its text: the year with its sign, the fraction with
its digits, the leap second as the sixtieth.

* `Stamp.IsValid`           a leap second stands at the end of a minute;
* `Rfc3339.year?_yearText`, `Rfc3339.number?_padded`, `Rfc3339.fraction?_fractionText`   the parts;
* `Rfc3339.nanos?_text`     the whole text;
* `Stamp.isValid_of_read?`  what is read is a stamp of the calendar;
* `Stamp.read?_text`        reading what was written gives the stamp back.
-/

namespace Rota

open Text Numeral

/-- a leap second comes after the last second of a minute -/
def Stamp.IsValid (s : Stamp) : Prop := s.isLeap = true → s.moment.seconds % 60 = 59

instance (s : Stamp) : Decidable s.IsValid := inferInstanceAs (Decidable (_ → _))

theorem Stamp.isValid_ofMoment (m : Moment) : (ofMoment m).IsValid := nofun

namespace Rfc3339

variable {rest : List Char}

/-! ## the parts of a text -/

theorem number?_padded {width n : Nat} (hw : 0 < width) (h : n < 10 ^ width) :
    number? width (padded width n ++ rest) = some (n, rest) := by
  obtain ⟨c, cs, e, hc⟩ := exists_padded_eq_cons width n
  have htrim : trimStart (padded width n ++ rest) = padded width n ++ rest := by
    rw [e]
    exact trimStart_of_isDigit hc
  have hdigits : split (padded width n ++ []) = (padded width n, []) :=
    split_digits (fun _ h => isDigit_of_mem_padded h) nofun
  rw [List.append_nil] at hdigits
  have htake : ((padded width n ++ rest).take width).takeWhile Char.isDigit = padded width n := by
    rw [List.take_left' (length_padded hw h)]
    exact congrArg Prod.fst hdigits
  unfold number?
  simp only [htrim, htake]
  rw [if_neg (by simp [e]), value_padded, List.drop_left]

theorem separator?_cons {c : Char} (hc : isBlank c = false) :
    separator? c (c :: rest) = some rest := by
  unfold separator?
  rw [trimStart_of_not_blank hc]
  exact if_pos rfl

theorem signed_padded {n : Nat} (sign : Int → Int) (hr : Ends rest) :
    year?.signed (padded 4 n ++ rest) sign = some (sign n, rest) := by
  unfold year?.signed
  simp only [split_digits (fun c hc => isDigit_of_mem_padded hc) hr, value_padded]
  exact if_neg (by simpa using padded_ne_nil 4 n)

/-- a year is read back with its sign, and without one if four digits tell it -/
theorem year?_yearText (year : Int) (hr : Ends rest) :
    year? (yearText year ++ rest) = some (year, rest) := by
  unfold yearText
  split
  case isTrue h =>
    have hn : number? 4 (padded 4 year.toNat ++ rest) = some (year.toNat, rest) :=
      number?_padded (by decide) (by omega)
    obtain ⟨c, cs, e, hc⟩ := exists_padded_eq_cons 4 year.toNat
    rw [e, List.cons_append] at hn ⊢
    unfold year?
    rw [trimStart_of_isDigit hc]
    split
    case h_1 e' => cases e'; exact absurd hc (by decide)
    case h_2 e' => cases e'; exact absurd hc (by decide)
    case h_3 =>
      rw [hn]
      exact congrArg (fun y => some (y, rest)) (Int.toNat_of_nonneg h.1)
  case isFalse h =>
    by_cases hneg : year < 0
    · rw [if_pos hneg, List.cons_append]
      show year?.signed _ _ = _
      rw [signed_padded _ hr]
      exact congrArg (fun y => some (y, rest)) (by omega)
    · rw [if_neg hneg, List.cons_append]
      show year?.signed _ _ = _
      rw [signed_padded _ hr]
      exact congrArg (fun y => some (y, rest)) (by simp only [id]; omega)

theorem fraction?_padded {width n : Nat} (hw : 0 < width) (hw9 : width ≤ 9) (h : n < 10 ^ width)
    (hr : Ends rest) :
    fraction? ('.' :: padded width n ++ rest) = some (n * 10 ^ (9 - width), rest) := by
  have hlen := length_padded hw h
  unfold fraction?
  rw [List.cons_append]
  simp only [split_digits (fun _ h => isDigit_of_mem_padded h) hr]
  rw [if_neg (by simpa using padded_ne_nil width n), List.take_of_length_le (by omega), hlen,
    value_padded]
  rfl

theorem fraction?_fractionText {nanos : Nat} (h : nanos < 1000000000) :
    fraction? (fractionText nanos ++ ['Z']) = some (nanos, ['Z']) := by
  have hr : Ends ['Z'] := fun c hc => by cases hc; rfl
  unfold fractionText
  split_ifs with h0 h3 h6
  · rw [h0]
    rfl
  · rw [fraction?_padded (by decide) (by decide) (by omega) hr]
    exact congrArg (fun n => some (n, ['Z'])) (by omega)
  · rw [fraction?_padded (by decide) (by decide) (by omega) hr]
    exact congrArg (fun n => some (n, ['Z'])) (by omega)
  · rw [fraction?_padded (by decide) (by decide) (by omega) hr]
    exact congrArg (fun n => some (n, ['Z'])) (by omega)

theorem second?_eq {s : Nat} (hs : s < 60) (isLeap : Bool) (h : isLeap = true → s = 59) :
    second? (s + isLeap.toNat) = some (s, isLeap) := by
  cases isLeap with
  | false => exact if_pos hs
  | true =>
    rw [h rfl]
    rfl

/-! ## the whole text -/

theorem nanos?_text {d : Calendar.Date} (hd : d.isValid = true)
    (hy : Calendar.firstYear ≤ d.year ∧ d.year ≤ Calendar.lastYear) {s : Nat} (hs : s < 86400)
    (isLeap : Bool) (hl : isLeap = true → s % 60 = 59) {nano : Nat} (hn : nano < 1000000000) :
    nanos? (dateText d ++ 'T' :: clockText s isLeap.toNat ++ fractionText nano ++ ['Z']) =
      some ((d.number * secondsPerDay + s) * nanosPerSecond + nano, isLeap) := by
  obtain ⟨-, hmonth, -, hday⟩ := Calendar.Date.isValid_iff.1 hd
  have hlen := (Calendar.monthLength_bounds d.year d.month).2
  have hdash : ∀ cs, Ends ('-' :: cs) := fun _ c hc => by cases hc; rfl
  have hsecond : s % 60 + isLeap.toNat < 10 ^ 2 := by
    have := isLeap.toNat_le
    omega
  have htext : dateText d ++ 'T' :: clockText s isLeap.toNat ++ fractionText nano ++ ['Z'] =
      yearText d.year ++ '-' :: (padded 2 d.month ++ '-' :: (padded 2 d.day ++ 'T' ::
        (padded 2 (s / 3600) ++ ':' :: (padded 2 (s / 60 % 60) ++ ':' ::
          (padded 2 (s % 60 + isLeap.toNat) ++ (fractionText nano ++ ['Z'])))))) := by
    simp only [dateText, clockText, List.append_assoc, List.cons_append]
  have hbetween (cs : List Char) : between? ('T' :: cs) = some cs := rfl
  have hzone : offset? ['Z'] = some (0, []) := rfl
  -- the parts are read in the order in which they stand
  unfold nanos?
  rw [htext, year?_yearText d.year (hdash _)]
  dsimp only [Option.bind_eq_bind, Option.bind_some]
  rw [separator?_cons (c := '-') rfl, Option.bind_some,
    number?_padded (n := d.month) (by decide) (by omega), Option.bind_some,
    separator?_cons (c := '-') rfl, Option.bind_some,
    number?_padded (n := d.day) (by decide) (by omega), Option.bind_some, hbetween,
    Option.bind_some, number?_padded (n := s / 3600) (by decide) (by omega), Option.bind_some,
    separator?_cons (c := ':') rfl, Option.bind_some,
    number?_padded (n := s / 60 % 60) (by decide) (by omega), Option.bind_some,
    separator?_cons (c := ':') rfl, Option.bind_some, number?_padded (by decide) hsecond,
    Option.bind_some, second?_eq (by omega) isLeap hl, Option.bind_some,
    fraction?_fractionText hn, Option.bind_some, hzone, Option.bind_some]
  rw [if_pos ⟨rfl, hd, hy.1, hy.2, by omega, by omega⟩]
  show some ((d.number * secondsPerDay + _ + _ + _ - 0) * nanosPerSecond + _, isLeap) = _
  unfold nanosPerSecond secondsPerDay
  exact congrArg (fun n => some (n, isLeap)) (by omega)

/-! ## leap seconds in a text -/

theorem fraction?_lt {cs : List Char} {n : Nat} (h : fraction? cs = some (n, rest)) :
    n < 1000000000 := by
  unfold fraction? at h
  split at h
  case h_1 r =>
    dsimp only at h
    split_ifs at h
    cases h
    have hdigits : ∀ c ∈ (split r).1.take 9, c.isDigit = true := fun c hc =>
      List.mem_takeWhile_imp (List.mem_of_mem_take hc)
    have hvalue := value_lt hdigits
    have hlength : ((split r).1.take 9).length ≤ 9 := List.length_take_le ..
    generalize ((split r).1.take 9).length = k at *
    have hpow : 10 ^ k * 10 ^ (9 - k) = 1000000000 := by
      rw [← Nat.pow_add, Nat.add_sub_cancel' hlength]
    rw [← hpow]
    exact Nat.mul_lt_mul_of_pos_right hvalue (Nat.pow_pos (by decide))
  case h_2 =>
    cases h
    decide

theorem offsetSize?_mod {cs : List Char} {n : Int} (h : offsetSize? cs = some (n, rest)) :
    n % 60 = 0 := by
  unfold offsetSize? at h
  obtain ⟨⟨hour, cs⟩, -, h⟩ := Option.bind_eq_some_iff.1 h
  obtain ⟨⟨minute, cs⟩, -, h⟩ := Option.bind_eq_some_iff.1 h
  dsimp only at h
  split_ifs at h
  cases h
  omega

theorem offset?_mod {cs : List Char} {n : Int} (h : offset? cs = some (n, rest)) : n % 60 = 0 := by
  have hnegative {cs : List Char}
      (h : (offsetSize? cs).map (fun p => (-p.1, p.2)) = some (n, rest)) : n % 60 = 0 := by
    obtain ⟨p, hp, e⟩ := Option.map_eq_some_iff.1 h
    have hsize := offsetSize?_mod hp
    cases e
    omega
  unfold offset? at h
  split at h
  case h_1 =>
    cases h
    rfl
  case h_2 =>
    cases h
    rfl
  case h_3 => exact offsetSize?_mod h
  case h_4 => exact hnegative h
  case h_5 => exact hnegative h
  case h_6 =>
    split_ifs at h
    cases h
    rfl
  case h_7 => exact nomatch h

theorem second?_leap {n s : Nat} (h : second? n = some (s, true)) : s = 59 := by
  unfold second? at h
  split at h
  case isTrue => exact nomatch h
  case isFalse =>
    split at h
    case isTrue =>
      cases h
      rfl
    case isFalse => exact nomatch h

/-- a text that shows a leap second shows it at the end of a minute, also in UTC -/
theorem nanos?_leap {cs : List Char} {n : Int} (h : nanos? cs = some (n, true)) :
    n / nanosPerSecond % 60 = 59 := by
  unfold nanos? at h
  obtain ⟨⟨year, cs⟩, -, h⟩ := Option.bind_eq_some_iff.1 h
  obtain ⟨cs, -, h⟩ := Option.bind_eq_some_iff.1 h
  obtain ⟨⟨month, cs⟩, -, h⟩ := Option.bind_eq_some_iff.1 h
  obtain ⟨cs, -, h⟩ := Option.bind_eq_some_iff.1 h
  obtain ⟨⟨day, cs⟩, -, h⟩ := Option.bind_eq_some_iff.1 h
  obtain ⟨cs, -, h⟩ := Option.bind_eq_some_iff.1 h
  obtain ⟨⟨hour, cs⟩, -, h⟩ := Option.bind_eq_some_iff.1 h
  obtain ⟨cs, -, h⟩ := Option.bind_eq_some_iff.1 h
  obtain ⟨⟨minute, cs⟩, -, h⟩ := Option.bind_eq_some_iff.1 h
  obtain ⟨cs, -, h⟩ := Option.bind_eq_some_iff.1 h
  obtain ⟨⟨number, cs⟩, -, h⟩ := Option.bind_eq_some_iff.1 h
  obtain ⟨⟨second, isLeap⟩, hleap, h⟩ := Option.bind_eq_some_iff.1 h
  obtain ⟨⟨nano, cs⟩, hfraction, h⟩ := Option.bind_eq_some_iff.1 h
  obtain ⟨⟨offset, cs⟩, hzone, h⟩ := Option.bind_eq_some_iff.1 h
  dsimp only at h
  split_ifs at h
  cases h
  have hnano := fraction?_lt hfraction
  have hoffset := offset?_mod hzone
  have hsecond := second?_leap hleap
  unfold nanosPerSecond secondsPerDay
  omega

end Rfc3339

/-- what is read is a stamp of the calendar -/
theorem Stamp.isValid_of_read? {text : String} {s : Stamp} (h : read? text = some s) :
    s.IsValid := by
  obtain ⟨⟨nanos, isLeap⟩, hnanos, h⟩ := Option.bind_eq_some_iff.1 h
  obtain ⟨m, hm, h⟩ := Option.bind_eq_some_iff.1 h
  cases h
  intro hleap
  cases hleap
  have e : m.nanos = nanos := Moment.ofNanos?_eq_some_iff.1 hm
  show m.nanos / nanosPerSecond % 60 = 59
  rw [e]
  exact Rfc3339.nanos?_leap hnanos

theorem Calendar.ofNumber_year_mem {n : Int} (h0 : firstDay ≤ n) (h1 : n ≤ lastDay) :
    firstYear ≤ (Date.ofNumber n).year ∧ (Date.ofNumber n).year ≤ lastYear := by
  have hm := monthOfDay_mem h0 h1
  obtain ⟨ey, -⟩ := Date.ofNumber_index n
  rw [← ey]
  unfold firstMonth lastMonth at hm
  unfold yearOfIndex firstYear lastYear
  omega

/-- a stamp of the calendar is read back from its text -/
theorem Stamp.read?_text {s : Stamp} (h : s.IsValid) : read? s.text = some s := by
  obtain ⟨m, isLeap⟩ := s
  have hmem := m.seconds_mem
  rw [Calendar.firstSecond_eq_firstDay, Calendar.lastSecond_eq_lastDay] at hmem
  have hleap : isLeap = true → m.seconds % 60 = 59 := h
  have hseconds : m.seconds = m.nanos / 1000000000 := rfl
  have hyear := Calendar.ofNumber_year_mem (n := m.seconds / 86400) (by omega) (by omega)
  have htime : (m.seconds % 86400).toNat < 86400 := by omega
  have hnano : (m.nanos % 1000000000).toNat < 1000000000 := by omega
  have hlast : isLeap = true → (m.seconds % 86400).toNat % 60 = 59 := by
    intro e
    have := hleap e
    omega
  have hnanos := Rfc3339.nanos?_text (Calendar.Date.isValid_ofNumber (m.seconds / 86400)) hyear
    htime isLeap hlast hnano
  have hsum : (Calendar.Date.number (.ofNumber (m.seconds / 86400)) * secondsPerDay
      + ((m.seconds % 86400).toNat : Int)) * nanosPerSecond
      + ((m.nanos % 1000000000).toNat : Int) = m.nanos := by
    rw [Calendar.Date.number_ofNumber]
    unfold nanosPerSecond secondsPerDay
    omega
  rw [hsum] at hnanos
  unfold read? text
  rw [String.toList_ofList]
  rw [show Rfc3339.nanos? (chars ⟨m, isLeap⟩) = some (m.nanos, isLeap) from hnanos]
  simp [Moment.ofNanos?_nanos]

end Rota
