import Rota.Proofs.Calendar.Moment
import Rota.Proofs.Zone.Regular
import Rota.Schedule.Slot

/-!
# The moment of a reading

What `ZoneClock.resolve` gives, in seconds.  A reading that the clock shows is found; one that is
skipped is moved on, a quarter of an hour at a time, until the clock shows it; after a day the search
gives up.

* `ZoneClock.localDay_eq_ok_iff`   the day of a moment, in seconds;
* `ZoneClock.Answer`               the outcome of the search for a reading;
* `ZoneClock.answer_of_resolve`    a moment that is found is an answer;
* `ZoneClock.resolve_isOk`         there is one for every day but the calendar's last.
-/

namespace Rota

theorem TimeOfDay.seconds_bounds (time : TimeOfDay) :
    0 ≤ time.seconds ∧ time.seconds < 86400 := by
  have hh := time.hour.isLt
  have hm := time.minute.isLt
  unfold TimeOfDay.seconds
  omega

/-! ## the day of a moment -/

namespace ZoneClock

theorem localDay_eq_ok_iff {z : ZoneClock} {m : Moment} {d : Int} :
    z.localDay m = .ok d ↔
      Calendar.firstSecond ≤ z.reading m.seconds ∧ z.reading m.seconds ≤ Calendar.lastSecond ∧
        z.reading m.seconds / 86400 = d := by
  have hn : z.localNanos m = m.nanos + z.offset m.seconds * 1000000000 := rfl
  have hs : m.seconds = m.nanos / 1000000000 := rfl
  have hr : z.reading m.seconds = m.seconds + z.offset m.seconds := rfl
  have hf : Calendar.firstNano = Calendar.firstSecond * 1000000000 := rfl
  have hl : Calendar.lastNano = Calendar.lastSecond * 1000000000 + 999999999 := rfl
  have hd : z.localNanos m / (secondsPerDay * nanosPerSecond) = z.reading m.seconds / 86400 := by
    rw [show secondsPerDay * nanosPerSecond = 86400000000000 by decide]
    omega
  unfold localDay
  simp only [hd]
  split
  case isTrue h =>
    rw [Except.ok.injEq]
    constructor
    · intro e
      exact ⟨by omega, by omega, e⟩
    · exact fun e => e.2.2
  case isFalse h =>
    simp only [reduceCtorEq, false_iff]
    rintro ⟨h0, h1, -⟩
    exact h (by omega)

theorem localDay_error {z : ZoneClock} {m : Moment} {e : SlotFault} (h : z.localDay m = .error e) :
    e = .wallClock := by
  unfold localDay at h
  simp only at h
  split at h
  · exact nomatch h
  · rw [Except.error.injEq] at h
    exact h.symm

/-! ## answers -/

/-- the calendar holds the earliest instant that shows the reading `w`, and it is `s` -/
structure Shown (z : ZoneClock) (w s : Int) : Prop where
  earliest : z.earliest? w = some s
  first_le : Calendar.firstSecond ≤ s
  le_last : s ≤ Calendar.lastSecond

def Unshown (z : ZoneClock) (w : Int) : Prop := ∀ s, ¬z.Shown w s

/-- no reading that the search tries is shown -/
def GivesUp (z : ZoneClock) (w : Int) : Prop := ∀ j : Nat, j < 96 → z.Unshown (w + 900 * j)

/-- what the search makes of a reading -/
inductive Answer (z : ZoneClock) (w : Int) : Int → Prop
  /-- the reading is found after `k` quarters of an hour -/
  | found {s : Int} (k : Nat) (hk : k < 96) (hle : w + 900 * k ≤ Calendar.lastSecond)
      (before : ∀ j : Nat, j < k → z.Unshown (w + 900 * j)) (shown : z.Shown (w + 900 * k) s) :
      Answer z w s
  | gaveUp (gives : z.GivesUp w) (hle : w + 86400 ≤ Calendar.lastSecond) : Answer z w (w + 86400)

theorem bind_earliest?_eq_some {z : ZoneClock} {w : Int} {m : Moment}
    (h : (z.earliest? w).bind Moment.ofSeconds? = some m) : ∃ s, z.Shown w s ∧ m.AtSecond s := by
  obtain ⟨s, hs, hm⟩ := Option.bind_eq_some_iff.1 h
  have hm' := Moment.ofSeconds?_eq_some_iff.1 hm
  exact ⟨s, ⟨hs, hm'.mem.1, hm'.mem.2⟩, hm'⟩

theorem bind_earliest?_eq_none {z : ZoneClock} {w : Int}
    (h : (z.earliest? w).bind Moment.ofSeconds? = none) : z.Unshown w := by
  intro s hs
  obtain ⟨m, hm⟩ := Moment.exists_atSecond hs.first_le hs.le_last
  rw [hs.earliest, Option.bind_some, Moment.ofSeconds?_eq_some_iff.2 hm] at h
  exact nomatch h

theorem momentOf_eq_ok {z : ZoneClock} {tries : Nat} {w : Int} {m : Moment}
    (hw : w ≤ Calendar.lastSecond) (h : z.momentOf tries w = .ok m) :
    (∃ (k : Nat) (s : Int), k < tries ∧ w + 900 * k ≤ Calendar.lastSecond ∧
      (∀ j : Nat, j < k → z.Unshown (w + 900 * j)) ∧ z.Shown (w + 900 * k) s ∧ m.AtSecond s) ∨
    ((∀ j : Nat, j < tries → z.Unshown (w + 900 * j)) ∧ w + 900 * tries ≤ Calendar.lastSecond ∧
      m.AtSecond (w + 900 * tries)) := by
  induction tries generalizing w with
  | zero =>
    right
    unfold momentOf at h
    split at h
    case h_1 n hn =>
      rw [Except.ok.injEq] at h
      subst h
      exact ⟨by simp, by simpa using hw, by simpa using Moment.ofSeconds?_eq_some_iff.1 hn⟩
    case h_2 => exact nomatch h
  | succ tries ih =>
    unfold momentOf at h
    split at h
    case h_1 n hn =>
      rw [Except.ok.injEq] at h
      subst h
      obtain ⟨s, hs, hm⟩ := bind_earliest?_eq_some hn
      exact .inl ⟨0, s, by omega, by simpa using hw, by simp, by simpa using hs, hm⟩
    case h_2 hn =>
      have hw0 := bind_earliest?_eq_none hn
      have e (j : Nat) : w + 900 * ((j + 1 : Nat) : Int) = w + 900 + 900 * j := by omega
      -- the readings before one are the first one and those that the rest of the search tries
      have hbefore (k : Nat) (hk : ∀ j : Nat, j < k → z.Unshown (w + gapStep + 900 * j)) (j : Nat)
          (hj : j < k + 1) : z.Unshown (w + 900 * j) := by
        cases j with
        | zero => simpa using hw0
        | succ j =>
          rw [e]
          exact hk j (by omega)
      split at h
      case isTrue hle =>
        rcases ih hle h with ⟨k, s, hk, hkle, hj, hs, hm⟩ | ⟨hj, hle', hm⟩
        · refine .inl ⟨k + 1, s, by omega, ?_, hbefore k hj, ?_, hm⟩
          · rw [e]
            exact hkle
          · rw [e]
            exact hs
        · refine .inr ⟨hbefore tries hj, ?_, ?_⟩
          · rw [e]
            exact hle'
          · rw [e]
            exact hm
      case isFalse => exact nomatch h

theorem answer_of_resolve {z : ZoneClock} {day : Int} {time : TimeOfDay} {m : Moment}
    (hday : day ≤ Calendar.lastDay) (h : z.resolve day time = .ok m) :
    ∃ s, z.Answer (day * 86400 + time.seconds) s ∧ m.AtSecond s := by
  have ht := time.seconds_bounds
  have hl := Calendar.lastSecond_eq_lastDay
  rcases momentOf_eq_ok (by unfold secondsPerDay; omega) h with
    ⟨k, s, hk, hle, hj, hs, hm⟩ | ⟨hj, hle, hm⟩
  · exact ⟨s, .found k hk hle hj hs, hm⟩
  · exact ⟨_, .gaveUp hj hle, hm⟩

theorem momentOf_isOk {z : ZoneClock} {tries : Nat} {w : Int} (h0 : Calendar.firstSecond ≤ w)
    (h1 : w + 900 * tries ≤ Calendar.lastSecond) : ∃ m, z.momentOf tries w = .ok m := by
  induction tries generalizing w with
  | zero =>
    obtain ⟨m, hm⟩ := Moment.exists_atSecond h0 (by omega)
    refine ⟨m, ?_⟩
    rw [momentOf, Moment.ofSeconds?_eq_some_iff.2 hm]
  | succ tries ih =>
    unfold momentOf
    split
    case h_1 m _ => exact ⟨m, rfl⟩
    case h_2 =>
      rw [if_pos (by unfold gapStep; omega)]
      exact ih (by unfold gapStep; omega) (by unfold gapStep; omega)

theorem momentOf_error {z : ZoneClock} {tries : Nat} {w : Int} {e : SlotFault}
    (h : z.momentOf tries w = .error e) : e = .wallClock := by
  induction tries generalizing w with
  | zero =>
    unfold momentOf at h
    split at h
    · exact nomatch h
    · rw [Except.error.injEq] at h
      exact h.symm
  | succ tries ih =>
    unfold momentOf at h
    split at h
    · exact nomatch h
    · split at h
      · exact ih h
      · rw [Except.error.injEq] at h
        exact h.symm

theorem resolve_isOk {z : ZoneClock} {day : Int} (time : TimeOfDay)
    (h0 : Calendar.firstDay ≤ day) (h1 : day < Calendar.lastDay) :
    ∃ m, z.resolve day time = .ok m := by
  have ht := time.seconds_bounds
  have hf := Calendar.firstSecond_eq_firstDay
  have hl := Calendar.lastSecond_eq_lastDay
  refine momentOf_isOk ?_ ?_
  · unfold secondsPerDay
    omega
  · unfold secondsPerDay gapTries
    omega

theorem resolve_error {z : ZoneClock} {day : Int} {time : TimeOfDay} {e : SlotFault}
    (h : z.resolve day time = .error e) : e = .wallClock := momentOf_error h

end ZoneClock

end Rota
