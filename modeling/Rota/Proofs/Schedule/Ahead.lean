import Rota.Proofs.Schedule.Restart

/-!
# The next run lies ahead

Whatever the zone is, the run that is found comes after the moment from which it was looked for, unless
it never comes.

* `Cadence.Accepted.lt_next`        the next run after a moment;
* `Cadence.followingPlain_eq_ok`    the run after a firing of a plain interval;
* `Cadence.Accepted.lt_nextAfter`   the run after any firing comes after its start;
* `Schedule.restoreIn?_eq_some`     a saved run that still holds lies ahead, and no further than the
  next one.
-/

namespace Rota

namespace Cadence

section
variable {z : ZoneClock} {c : Cadence} {now next : Moment}

theorem Accepted.lt_next (hc : c.Accepted) (h : c.next z now = .ok next) :
    next = Moment.last ∨ now < next := by
  rcases hc.plain_or_follows with ⟨seconds, hs, rfl⟩ | ⟨l, time, n, hf, -⟩
  · rcases plain_next_eq_ok h with e | ⟨-, e⟩
    · unfold nanosPerSecond at e
      exact .inr (Moment.lt_def.2 (by omega))
    · exact .inl e
  · obtain ⟨d, k, -, hk, hslot⟩ := next_eq_ok hf h
    rcases orNever_eq_ok hslot with hslot | ⟨-, e⟩
    · exact .inr (hk.after next hslot)
    · exact .inl e

/-- one period more than the whole periods that went by makes up for the time that went by -/
theorem lt_followingPlain_skip {x p : Int} (hp : 0 < p) :
    x < (x / nanosPerSecond / p + 1) * p * nanosPerSecond := by
  have hperiods := Int.lt_ediv_add_one_mul_self (x / nanosPerSecond) hp
  have hseconds := Int.emod_add_mul_ediv x nanosPerSecond
  generalize (x / nanosPerSecond / p + 1) * p = y at *
  unfold nanosPerSecond at *
  omega

theorem followingPlain_eq_ok {seconds : Nat} (hs : 1 ≤ seconds) {f : Firing}
    (h : followingPlain seconds f = .ok next) :
    (∃ k : Nat, 1 ≤ k ∧ next.nanos = f.scheduled.nanos + k * seconds * nanosPerSecond) ∧
      f.started < next := by
  unfold followingPlain at h
  cases hm : f.scheduled.addSeconds? seconds with
  | none =>
    rw [hm] at h
    exact nomatch h
  | some m =>
    have hplain : m.nanos = f.scheduled.nanos + seconds * nanosPerSecond :=
      Moment.ofNanos?_eq_some_iff.1 hm
    rw [hm] at h
    change (if m ≤ f.started then inCalendar _ else .ok m) = _ at h
    split at h
    case isFalse hdue =>
      rw [← Except.ok.inj h]
      exact ⟨⟨1, Nat.le_refl 1, by rw [hplain, Int.natCast_one, Int.one_mul]⟩, not_le.1 hdue⟩
    case isTrue hdue =>
      have hdue : m.nanos ≤ f.started.nanos := hdue
      have hskip := lt_followingPlain_skip (x := f.started.nanos - m.nanos) (p := seconds)
        (by omega)
      -- the whole intervals that went by
      obtain ⟨k, hk⟩ := Int.eq_ofNat_of_zero_le
        (show 0 ≤ (f.started.nanos - m.nanos) / nanosPerSecond / (seconds : Int) from
          Int.ediv_nonneg (Int.ediv_nonneg (by omega) (by decide)) (by omega))
      rw [hk] at hskip
      cases hm' : m.addSeconds? (((f.started.nanos - m.nanos) / nanosPerSecond / (seconds : Int) + 1)
          * (seconds : Int)) with
      | none =>
        rw [hm'] at h
        exact nomatch h
      | some m' =>
        have e : m'.nanos = _ := Moment.ofNanos?_eq_some_iff.1 hm'
        rw [hm'] at h
        rw [hk] at e
        rw [← Except.ok.inj h, Moment.lt_def]
        refine ⟨⟨k + 2, by omega, ?_⟩, by omega⟩
        have hsucc : ((k + 2 : Nat) : Int) * seconds * nanosPerSecond
            = (k + 1) * seconds * nanosPerSecond + seconds * nanosPerSecond := by
          rw [show ((k + 2 : Nat) : Int) = (k + 1) + 1 from rfl, Int.add_mul (k + 1 : Int),
            Int.one_mul, Int.add_mul (_ * _)]
        omega

/-- the run after a firing that ended when the clock read `now` comes after its start -/
theorem Accepted.lt_nextAfter (hc : c.Accepted) {f : Firing} (hle : f.started ≤ now)
    (h : c.nextAfter z f now = .ok next) : next = Moment.last ∨ f.started < next := by
  unfold nextAfter at h
  cases ht : f.trigger with
  | startup =>
    rw [ht] at h
    exact (hc.lt_next h).imp_right (lt_of_le_of_lt hle)
  | scheduled =>
    rw [ht] at h
    rcases orNever_eq_ok h with h | ⟨-, e⟩
    · rcases hc.plain_or_follows with ⟨seconds, hs, rfl⟩ | ⟨l, time, n, hf, -⟩
      · exact .inr (followingPlain_eq_ok hs h).2
      · exact .inr (lt_of_following hf h hle)
    · exact .inl e

end

end Cadence

/-! ## saved runs -/

variable [ZoneDatabase]

/-- a saved run that still holds lies ahead, and no further than the next run of the schedule -/
theorem Schedule.restoreIn?_eq_some {z : ZoneClock} {s : Schedule} {saved : Option SavedState}
    {now : Moment} {slot : Stamp} (h : s.restoreIn? z saved now = .ok (some slot)) :
    slot.isAfter now = true ∧ ∃ q, s.cadence.next z now = .ok q ∧ slot.isAfter q = false := by
  cases saved with
  | none => exact nomatch h
  | some saved =>
    unfold restoreIn? at h
    dsimp only at h
    split at h
    case isFalse => exact nomatch h
    case isTrue hsaved =>
      cases hq : s.cadence.next z now with
      | error => rw [hq] at h; exact nomatch h
      | ok q =>
        rw [hq] at h
        dsimp only at h
        split at h
        case isTrue => exact nomatch h
        case isFalse hlate =>
          rw [Except.ok.injEq, Option.some.injEq] at h
          rw [← h]
          exact ⟨hsaved.2, q, rfl, Bool.eq_false_of_not_eq_true hlate⟩

theorem Schedule.restoreIn?_nextRun {z : ZoneClock} {s : Schedule} {saved : Option SavedState}
    {now : Moment} {slot : Stamp} (h : s.restoreIn? z saved now = .ok (some slot)) :
    ∃ state, saved = some state ∧ state.nextRun = slot := by
  cases saved with
  | none => exact nomatch h
  | some state =>
    unfold restoreIn? at h
    dsimp only at h
    split at h
    case isFalse => exact nomatch h
    case isTrue =>
      split at h
      case h_2 => exact nomatch h
      case h_1 =>
        split at h
        case isTrue => exact nomatch h
        case isFalse =>
          rw [Except.ok.injEq, Option.some.injEq] at h
          exact ⟨state, rfl, h⟩

theorem Schedule.restoreIn?_isOk {z : ZoneClock} {s : Schedule} (saved : Option SavedState)
    {now q : Moment} (hq : s.cadence.next z now = .ok q) :
    ∃ x, s.restoreIn? z saved now = .ok x := by
  cases saved with
  | none => exact ⟨none, rfl⟩
  | some saved =>
    unfold restoreIn?
    simp only [hq]
    split
    · exact ⟨_, rfl⟩
    · exact ⟨none, rfl⟩

end Rota
