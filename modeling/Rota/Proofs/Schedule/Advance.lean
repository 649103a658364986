import Rota.Proofs.Schedule.Ahead
import Rota.Proofs.Schedule.Grid

/-!
# The search after a run makes progress

In UTC, and for a plain interval by any clock, the search for the slot after a scheduled run never
fails.  What it finds comes after the slot of the run, and not only by a part of a second; nor was it
due both when the run started and when it ended.  The slot of the run can be any moment, on the grid of
the cadence or not.

* `Cadence.Steady`              the cadences and the clocks for which this holds;
* `Cadence.plain_progress`      a plain interval;
* `Cadence.Follows.exists_following`   by any regular clock, what the search along a line ends with;
* `Cadence.Follows.progress`    a cadence with a time of day, in UTC;
* `Cadence.Steady.progress`     both of them;
* `Cadence.Accepted.nextAfter_utc_isOk`   in UTC no search fails.
-/

namespace Rota

open Calendar

namespace Cadence

/-- a plain interval, or UTC -/
def Steady (c : Cadence) (z : ZoneClock) : Prop :=
  (∃ seconds, c = .plainInterval seconds) ∨ z = .fixed 0

section
variable {z : ZoneClock} {c : Cadence} {l : DayLine} {time : TimeOfDay} {n : Nat}

/-! ## a plain interval -/

theorem followingPlain_error {seconds : Nat} {f : Firing} {e : SlotFault}
    (h : followingPlain seconds f = .error e) : e = .beyondCalendar := by
  unfold followingPlain at h
  cases hm : f.scheduled.addSeconds? seconds with
  | none =>
    rw [hm] at h
    exact (Except.error.inj h).symm
  | some m =>
    rw [hm] at h
    change (if m ≤ f.started then inCalendar _ else .ok m) = _ at h
    split at h
    case isFalse => exact nomatch h
    case isTrue =>
      unfold inCalendar at h
      split at h
      · exact nomatch h
      · exact (Except.error.inj h).symm

theorem seconds_lt_of_followingPlain {seconds : Nat} (hs : 1 ≤ seconds) {f : Firing} {q : Moment}
    (h : followingPlain seconds f = .ok q) : f.scheduled.seconds < q.seconds := by
  obtain ⟨⟨k, hk, e⟩, -⟩ := followingPlain_eq_ok hs h
  have hle : 1 ≤ k * seconds := Nat.mul_pos hk hs
  have hnano : f.scheduled.nanos + nanosPerSecond ≤ q.nanos := by
    rw [e, ← Int.natCast_mul]
    unfold nanosPerSecond
    omega
  unfold Moment.seconds nanosPerSecond at *
  omega

theorem plain_progress {seconds : Nat} (hs : 1 ≤ seconds) (z : ZoneClock) (p started now : Moment) :
    ∃ q, (Cadence.plainInterval seconds).nextAfter z ⟨p, started, .scheduled⟩ now = .ok q ∧
      (q = Moment.last ∨ p.seconds < q.seconds ∧ started < q) := by
  show ∃ q, orNever (followingPlain seconds ⟨p, started, .scheduled⟩) = .ok q ∧ _
  cases h : followingPlain seconds ⟨p, started, .scheduled⟩ with
  | error e =>
    rw [followingPlain_error h]
    exact ⟨Moment.last, rfl, .inl rfl⟩
  | ok q =>
    exact ⟨q, rfl, .inr ⟨seconds_lt_of_followingPlain hs h, (followingPlain_eq_ok hs h).2⟩⟩

/-! ## a time of day -/

section
variable (hc : c.Follows l time n) (hn : 1 ≤ n)
include hc hn

omit hn in
theorem Follows.step_of_lt {p : Moment} {d : Int} (hd : z.localDay p = .ok d)
    (h : l.day (l.place d) < firstDay) : c.step z p = .error .beyondCalendar := by
  have hfirst := (ZoneClock.firstDay_le_of_localDay hd).1
  cases hc with
  | daily => exact absurd (DayLine.daily.first_le hfirst) (not_le.2 h)
  | monthly hday => exact absurd ((DayLine.monthly _ hday).first_le hfirst) (not_le.2 h)
  | weekly weekday =>
    -- only here the place of a day of the calendar can lie before it
    rw [← sub_daysBack] at h
    unfold step
    rw [hd]
    exact if_neg (not_le.2 h)

theorem Follows.exists_step {p : Moment} {d : Int} (hd : z.localDay p = .ok d) :
    c.step z p = .error .beyondCalendar ∨ ∃ i, d < l.day i ∧ c.step z p = l.slot z time i := by
  by_cases hfirst : firstDay ≤ l.day (l.place d)
  · right
    refine ⟨l.place d + n, ?_, step_eq_slot hc hd hfirst⟩
    have hnext := l.lt_day_succ d
    have hstride := l.day_le_iff.2 (show l.place d + 1 ≤ l.place d + n by omega)
    omega
  · exact .inl (hc.step_of_lt hd (not_le.1 hfirst))

variable (hz : z.Regular)
include hz

/-- stepping over missed slots ends with a slot of the line that was not due, or behind the last one;
every step leads to a later day, so the days that are left of the calendar are fuel enough -/
theorem Follows.exists_catchUp (started now : Moment) {p : Moment} {i : Int} {fuel : Nat}
    (hp : l.slot z time i = .ok p) (hfuel : lastDay < l.day i + fuel) :
    ∃ j, l.day i ≤ l.day j ∧ c.catchUp z started now fuel p = l.slot z time j ∧
      ∀ q, l.slot z time j = .ok q → min started now < q := by
  induction fuel generalizing i p with
  | zero =>
    have hmem := DayLine.mem_of_slot hp
    omega
  | succ fuel ih =>
    rw [catchUp]
    by_cases hdue : p ≤ now ∧ p ≤ started
    · obtain ⟨d, hd, hle, -⟩ := DayLine.exists_localDay hz hp
      have hnext := l.lt_day_succ d
      have hstride := l.day_le_iff.2 (show l.place d + 1 ≤ l.place d + n by omega)
      rw [if_pos hdue, step_slot hz hc hp hd]
      cases hq : l.slot z time (l.place d + n) with
      | error e => exact ⟨l.place d + n, by omega, hq.symm, by simp [hq]⟩
      | ok q =>
        obtain ⟨j, hj, e, hdue'⟩ := ih hq (by omega)
        exact ⟨j, by omega, e, hdue'⟩
    · rw [if_neg hdue]
      refine ⟨i, Int.le_refl _, hp.symm, fun q hq => ?_⟩
      rw [hp, Except.ok.injEq] at hq
      subst hq
      exact not_le.1 fun hle =>
        hdue ⟨le_trans hle (min_le_right ..), le_trans hle (min_le_left ..)⟩

theorem Follows.exists_following {p : Moment} {d : Int} (hd : z.localDay p = .ok d)
    (started now : Moment) :
    c.following z ⟨p, started, .scheduled⟩ now = .error .beyondCalendar ∨
      ∃ j, d < l.day j ∧ c.following z ⟨p, started, .scheduled⟩ now = l.slot z time j ∧
        ∀ q, l.slot z time j = .ok q → min started now < q := by
  rw [hc.following_eq]
  rcases hc.exists_step hn hd with h | ⟨i, hi, h⟩
  · rw [h]
    exact .inl rfl
  right
  rw [h]
  cases hslot : l.slot z time i with
  | error e => exact ⟨i, hi, hslot.symm, by simp [hslot]⟩
  | ok slot =>
    have hmem := (DayLine.mem_of_slot hslot).1
    have hspan : lastDay < firstDay + catchUpFuel := by decide
    obtain ⟨j, hj, e, hdue⟩ := hc.exists_catchUp hn hz started now hslot
      (show lastDay < l.day i + catchUpFuel by omega)
    exact ⟨j, by omega, e, hdue⟩

omit hz in
theorem Follows.progress (p started now : Moment) :
    ∃ q, c.nextAfter (.fixed 0) ⟨p, started, .scheduled⟩ now = .ok q ∧
      (q = Moment.last ∨ p.seconds < q.seconds ∧ min started now < q) := by
  show ∃ q, orNever (c.following (.fixed 0) ⟨p, started, .scheduled⟩ now) = .ok q ∧ _
  have hutc : (ZoneClock.fixed 0).Regular := ZoneClock.fixed_regular (by decide) (by decide)
  rcases hc.exists_following hn hutc (ZoneClock.utc_localDay p) started now with
    h | ⟨j, hj, h, hdue⟩
  · exact ⟨Moment.last, by rw [h]; rfl, .inl rfl⟩
  rw [h]
  have hfirst := (ZoneClock.firstDay_le_of_localDay (ZoneClock.utc_localDay p)).1
  rcases ZoneClock.utc_slot_or time (le_of_lt (lt_of_le_of_lt hfirst hj)) with ⟨q, hq⟩ | hout
  · have hday : q.day = l.day j := (Moment.atSecond_iff.1 (ZoneClock.utc_slot_iff.1 hq)).1
    refine ⟨q, by rw [hq]; rfl, .inr ⟨?_, hdue q hq⟩⟩
    rw [← hday] at hj
    unfold Moment.day secondsPerDay at hj
    omega
  · exact ⟨Moment.last, by rw [DayLine.slot_of_lt hout]; rfl, .inl rfl⟩

end

/-! ## both -/

/-- the slot after a scheduled run is always found; it comes after the slot of the run, and it was not
due both when the run started and when it ended -/
theorem Steady.progress (hz : c.Steady z) (hc : c.Accepted) (p started now : Moment) :
    ∃ q, c.nextAfter z ⟨p, started, .scheduled⟩ now = .ok q ∧
      (q = Moment.last ∨ p.seconds < q.seconds ∧ min started now < q) := by
  rcases hc.plain_or_follows with ⟨seconds, hs, rfl⟩ | ⟨l, time, n, hf, hn⟩
  · obtain ⟨q, hq, hq'⟩ := plain_progress hs z p started now
    exact ⟨q, hq, hq'.imp_right fun h => ⟨h.1, lt_of_le_of_lt (min_le_left ..) h.2⟩⟩
  · obtain ⟨seconds, rfl⟩ | rfl := hz
    · exact nomatch hf
    · exact hf.progress hn p started now

/-- in UTC a first slot is always found -/
theorem Accepted.next_utc_isOk (hc : c.Accepted) (now : Moment) :
    ∃ q, c.next (.fixed 0) now = .ok q := by
  rcases hc.plain_or_follows with ⟨seconds, hs, rfl⟩ | ⟨l, time, n, hf, -⟩
  · obtain ⟨q, hq, -⟩ := plain_exists_next_utc hs now
    exact ⟨q, hq⟩
  · obtain ⟨q, hq, -⟩ := hf.exists_next_utc now
    exact ⟨q, hq⟩

theorem Accepted.nextAfter_utc_isOk (hc : c.Accepted) (f : Firing) (now : Moment) :
    ∃ q, c.nextAfter (.fixed 0) f now = .ok q := by
  obtain ⟨p, started, trigger⟩ := f
  cases trigger with
  | startup => exact hc.next_utc_isOk now
  | scheduled =>
    obtain ⟨q, hq, -⟩ := Steady.progress (.inr rfl) hc p started now
    exact ⟨q, hq⟩

end

end Cadence

end Rota
