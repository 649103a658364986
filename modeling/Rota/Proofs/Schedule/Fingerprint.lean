import Rota.Proofs.Schedule.Idempotent
import Rota.State.Saved
import Mathlib.Tactic.SplitIfs

/-!
# Fingerprints

The fingerprint of a schedule is read back field by field: no field but the last one holds a bar, and
each of them tells what it was written for.

* `Interval.exists_numeral`, `Interval.text_injective`   an interval is written as a numeral and a
  unit, which tell the interval;
* `Cadence.eq_of_fields`        a cadence is known from its policy, interval, weekday, day and time;
* `Cadence.fingerprint_inj`     equal fingerprints come from equal cadences and equal zones;
* `fingerprint_eq_iff`          and what follows for saved runs.
-/

namespace Rota

open Text

/-! ## intervals -/

namespace Interval

theorem exists_numeral (i : Interval) : ∃ n u, i.chars = Numeral.text n ++ [u] ∧
    (u = 'M' ∧ i = .months n ∨ ∃ scale, unitSeconds? [u] = some scale ∧ i = .seconds (n * scale)) := by
  cases i with
  | months n => exact ⟨n, 'M', rfl, .inl ⟨rfl, rfl⟩⟩
  | seconds n =>
    -- the units from the longest on; the first one that divides the seconds is written
    have hunit {u : Char} {scale : Nat} (hu : unitSeconds? [u] = some scale)
        (hdvd : n % scale = 0) :
        ∃ s, unitSeconds? [u] = some s ∧ seconds n = seconds (n / scale * s) :=
      ⟨scale, hu, by rw [Nat.div_mul_cancel (Nat.dvd_of_mod_eq_zero hdvd)]⟩
    simp only [chars]
    split_ifs with h0 hweek hday hhour hminute
    · exact ⟨0, 's', rfl, .inr ⟨1, rfl, by rw [h0]⟩⟩
    · exact ⟨n / week, 'w', rfl, .inr (hunit rfl hweek)⟩
    · exact ⟨n / day, 'd', rfl, .inr (hunit rfl hday)⟩
    · exact ⟨n / hour, 'h', rfl, .inr (hunit rfl hhour)⟩
    · exact ⟨n / minute, 'm', rfl, .inr (hunit rfl hminute)⟩
    · exact ⟨n, 's', rfl, .inr ⟨1, rfl, by rw [Nat.mul_one]⟩⟩

theorem text_injective {i j : Interval} (h : i.text = j.text) : i = j := by
  obtain ⟨n, u, hi, hiu⟩ := i.exists_numeral
  obtain ⟨m, v, hj, hjv⟩ := j.exists_numeral
  have hchars : i.chars = j.chars := String.ofList_inj.1 h
  rw [hi, hj] at hchars
  obtain ⟨hnum, hunit⟩ := List.append_inj' hchars rfl
  obtain rfl : n = m := by rw [← Numeral.value_text n, hnum, Numeral.value_text]
  obtain rfl : u = v := (List.cons.inj hunit).1
  rcases hiu with ⟨rfl, rfl⟩ | ⟨scale, hs, rfl⟩ <;> rcases hjv with ⟨hv, rfl⟩ | ⟨scale', hs', rfl⟩
  · rfl
  · exact nomatch hs'
  · rw [hv] at hs
    exact nomatch hs
  · rw [hs, Option.some.injEq] at hs'
    rw [hs']

end Interval

/-! ## fields without bars -/

def BarFree (s : String) : Prop := '|' ∉ s.toList

theorem BarFree.append_inj {s t : String} (hs : BarFree s) (ht : BarFree t) {x y : List Char}
    (h : s.toList ++ '|' :: x = t.toList ++ '|' :: y) : s = t ∧ x = y := by
  have hfront {s : String} (hs : BarFree s) : ∀ c ∈ s.toList, decide (c ≠ '|') = true := by
    intro c hc
    rw [decide_eq_true_eq]
    rintro rfl
    exact hs hc
  have htake := congrArg (List.takeWhile fun c => decide (c ≠ '|')) h
  have hdrop := congrArg (List.dropWhile fun c => decide (c ≠ '|')) h
  rw [List.takeWhile_append_of_pos (hfront hs), List.takeWhile_append_of_pos (hfront ht)] at htake
  rw [List.dropWhile_append_of_pos (hfront hs), List.dropWhile_append_of_pos (hfront ht)] at hdrop
  constructor
  · exact String.toList_inj.1 (by simpa using htake)
  · simpa using hdrop

theorem barFree_of_isDigit {cs : List Char} (h : ∀ c ∈ cs, c.isDigit = true) : '|' ∉ cs :=
  fun hbar => absurd (h '|' hbar) (by decide)

theorem Policy.barFree_name (p : Policy) : BarFree p.name := by
  unfold BarFree
  cases p <;> decide

theorem Weekday.barFree_name (d : Weekday) : BarFree d.name := by
  unfold BarFree
  cases d <;> decide

theorem toList_toString (n : Nat) : (toString n).toList = Numeral.text n := Nat.toList_repr

theorem barFree_toString (n : Nat) : BarFree (toString n) := by
  unfold BarFree
  rw [toList_toString]
  exact barFree_of_isDigit fun c hc => Numeral.isDigit_of_mem_text hc

theorem Interval.barFree_text (i : Interval) : BarFree i.text := by
  obtain ⟨n, u, hi, hu⟩ := i.exists_numeral
  have hbar : '|' ≠ u := by
    rintro rfl
    rcases hu with ⟨h, -⟩ | ⟨scale, h, -⟩
    · exact absurd h (by decide)
    · exact nomatch h
  unfold BarFree Interval.text
  rw [String.toList_ofList, hi, List.mem_append, List.mem_singleton, not_or]
  exact ⟨barFree_of_isDigit fun c hc => Numeral.isDigit_of_mem_text hc, hbar⟩

theorem TimeOfDay.barFree_text (t : TimeOfDay) : BarFree t.text := by
  have hdigits (n : Nat) : '|' ∉ Numeral.padded 2 n :=
    barFree_of_isDigit fun _ => Numeral.isDigit_of_mem_padded
  unfold BarFree TimeOfDay.text TimeOfDay.chars
  rw [String.toList_ofList, List.mem_append, List.mem_cons, not_or, not_or]
  exact ⟨hdigits t.hour, by decide, hdigits t.minute⟩

/-! ## fields that are read back -/

theorem Policy.name_injective {p q : Policy} (h : p.name = q.name) : p = q := by
  cases p <;> cases q <;> simp [Policy.name] at h ⊢

theorem toString_injective {m n : Nat} (h : toString m = toString n) : m = n := by
  have hchars := congrArg String.toList h
  rw [toList_toString, toList_toString] at hchars
  rw [← Numeral.value_text m, hchars, Numeral.value_text]

theorem TimeOfDay.text_injective {s t : TimeOfDay} (h : s.text = t.text) : s = t := by
  have hparse := congrArg TimeOfDay.parse h
  rwa [TimeOfDay.parse_text, TimeOfDay.parse_text, Except.ok.injEq] at hparse

theorem Weekday.name_ne_dash (d : Weekday) : d.name ≠ "-" := by
  cases d <;> decide

theorem toString_ne_dash (n : Nat) : toString n ≠ "-" := by
  intro h
  have hmem : '-' ∈ Numeral.text n := by
    rw [← toList_toString, h]
    decide
  exact absurd (Numeral.isDigit_of_mem_text hmem) (by decide)

theorem TimeOfDay.text_ne_dash (t : TimeOfDay) : t.text ≠ "-" := by
  intro h
  have hparse := congrArg TimeOfDay.parse h
  rw [TimeOfDay.parse_text] at hparse
  exact nomatch hparse

namespace Cadence

section
variable {α : Type} {f : α → String}

theorem barFree_orDash (h : ∀ a, BarFree (f a)) (x : Option α) : BarFree (orDash (x.map f)) := by
  cases x with
  | none =>
    show '|' ∉ "-".toList
    decide
  | some a => exact h a

theorem orDash_inj (hf : ∀ {a b}, f a = f b → a = b) (hdash : ∀ a, f a ≠ "-") {x y : Option α}
    (h : orDash (x.map f) = orDash (y.map f)) : x = y := by
  cases x with
  | none =>
    cases y with
    | none => rfl
    | some b => exact absurd h.symm (hdash b)
  | some a =>
    cases y with
    | none => exact absurd h (hdash a)
    | some b => rw [hf h]

end

/-! ## cadences -/

theorem eq_of_fields {c d : Cadence} (hpolicy : c.policy = d.policy)
    (hinterval : c.interval = d.interval) (hweekday : c.weekday? = d.weekday?)
    (hday : c.day? = d.day?) (htime : c.time? = d.time?) : c = d := by
  cases c with
  | weekly weekday time weeks =>
    cases d with
    | weekly weekday' time' weeks' =>
      simp only [interval, Interval.week, weekday?, time?, Interval.seconds.injEq,
        Option.some.injEq] at hinterval hweekday htime
      rw [hweekday, htime, show weeks = weeks' by omega]
    | _ => simp [policy] at hpolicy
  | monthly day time months =>
    cases d with
    | monthly day' time' months' =>
      simp only [interval, day?, time?, Interval.months.injEq,
        Option.some.injEq] at hinterval hday htime
      rw [hinterval, hday, htime]
    | _ => simp [policy] at hpolicy
  | dailyTime time seconds =>
    cases d with
    | dailyTime time' seconds' =>
      simp only [interval, time?, Interval.seconds.injEq, Option.some.injEq] at hinterval htime
      rw [hinterval, htime]
    | _ => simp [policy] at hpolicy
  | plainInterval seconds =>
    cases d with
    | plainInterval seconds' =>
      simp only [interval, Interval.seconds.injEq] at hinterval
      rw [hinterval]
    | _ => simp [policy] at hpolicy

theorem toList_fingerprint (c : Cadence) (zone : String) : (c.fingerprint zone).toList =
    c.policy.name.toList ++ '|' :: (c.interval.text.toList
      ++ '|' :: ((orDash (c.weekday?.map Weekday.name)).toList
      ++ '|' :: ((orDash (c.day?.map toString)).toList
      ++ '|' :: ((orDash (c.time?.map TimeOfDay.text)).toList ++ '|' :: zone.toList)))) := by
  simp [fingerprint]

/-- equal fingerprints come from equal cadences and equal zones, whatever the zones are called -/
theorem fingerprint_inj {c d : Cadence} {v w : String} (h : c.fingerprint v = d.fingerprint w) :
    c = d ∧ v = w := by
  have hchars := congrArg String.toList h
  rw [toList_fingerprint, toList_fingerprint] at hchars
  obtain ⟨hpolicy, hchars⟩ :=
    c.policy.barFree_name.append_inj d.policy.barFree_name hchars
  obtain ⟨hinterval, hchars⟩ :=
    c.interval.barFree_text.append_inj d.interval.barFree_text hchars
  obtain ⟨hweekday, hchars⟩ :=
    (barFree_orDash Weekday.barFree_name _).append_inj (barFree_orDash Weekday.barFree_name _) hchars
  obtain ⟨hday, hchars⟩ :=
    (barFree_orDash barFree_toString _).append_inj (barFree_orDash barFree_toString _) hchars
  obtain ⟨htime, hzone⟩ :=
    (barFree_orDash TimeOfDay.barFree_text _).append_inj
      (barFree_orDash TimeOfDay.barFree_text _) hchars
  refine ⟨eq_of_fields (Policy.name_injective hpolicy) (Interval.text_injective hinterval) ?_ ?_ ?_,
    String.toList_inj.1 hzone⟩
  · exact orDash_inj Weekday.name_injective Weekday.name_ne_dash hweekday
  · exact orDash_inj toString_injective toString_ne_dash hday
  · exact orDash_inj TimeOfDay.text_injective TimeOfDay.text_ne_dash htime

end Cadence

theorem Zone.text_injective [ZoneDatabase] {y z : Zone} (h : y.text = z.text) : y = z := by
  have hparse := congrArg Zone.parse h
  rwa [Zone.parse_text, Zone.parse_text, Except.ok.injEq] at hparse

/-! ## the law -/

/-- Two schedules have one fingerprint exactly when they have one cadence and one zone; so do two
cadences in zones of any names.  A run that was saved for one schedule is taken for another exactly
as if it had been saved for that one, if the two have one cadence and one zone, and not at all
otherwise. -/
theorem fingerprint_eq_iff [ZoneDatabase] (a b : Schedule) :
    (a.fingerprint = b.fingerprint ↔ a.cadence = b.cadence ∧ a.zone = b.zone) ∧
    (∀ v w, a.cadence.fingerprint v = b.cadence.fingerprint w ↔ a.cadence = b.cadence ∧ v = w) ∧
    ∀ z nextRun lastRun now, b.restoreIn? z (some ⟨a.fingerprint, nextRun, lastRun⟩) now =
      if a.cadence = b.cadence ∧ a.zone = b.zone then
        b.restoreIn? z (some ⟨b.fingerprint, nextRun, lastRun⟩) now
      else .ok none := by
  have hiff : a.fingerprint = b.fingerprint ↔ a.cadence = b.cadence ∧ a.zone = b.zone := by
    constructor
    · intro h
      obtain ⟨hcadence, hzone⟩ := Cadence.fingerprint_inj h
      exact ⟨hcadence, Zone.text_injective hzone⟩
    · rintro ⟨hcadence, hzone⟩
      unfold Schedule.fingerprint
      rw [hcadence, hzone]
  refine ⟨hiff, fun v w => ⟨Cadence.fingerprint_inj, ?_⟩, fun z nextRun lastRun now => ?_⟩
  · rintro ⟨hcadence, rfl⟩
    rw [hcadence]
  · by_cases h : a.cadence = b.cadence ∧ a.zone = b.zone
    · rw [if_pos h, hiff.2 h]
    · rw [if_neg h]
      unfold Schedule.restoreIn?
      exact if_neg fun hsaved => h (hiff.1 hsaved.1)

end Rota
