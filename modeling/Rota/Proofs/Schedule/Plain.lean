import Mathlib.Order.Bounds.Basic
import Rota.Proofs.Schedule.Advance

/-!
# Plain intervals, one by one and at once

The slot after a run of a plain interval is the first one after the slot of the run that was not due
when the run started.  A loop finds it by adding one interval after the other; the search leaves out
whole intervals at once.  Both find the same slot, and they find it in machine words.

* `Moment.afterIntervals?`       the moment so many intervals after another one;
* `Cadence.addUntil`, `Cadence.steppingPlain`   the loop;
* `Cadence.Passes`               the least number of intervals that leads past the start of a run;
* `Cadence.steppingPlain_eq`     the loop ends there;
* `Cadence.followingPlain_eq`    so does the search;
* `Cadence.FitsWords`            what 64 bits have to hold on the way;
* `nextAfter_plain_eq`           all of it, for every accepted interval.
-/

namespace Rota

/-! ## intervals after a moment -/

def Moment.afterIntervals? (m : Moment) (seconds k : Nat) : Option Moment :=
  Moment.ofNanos? (m.nanos + k * (seconds * nanosPerSecond))

section
variable {slot m : Moment} {seconds : Nat}

theorem Moment.afterIntervals?_zero (slot : Moment) (seconds : Nat) :
    slot.afterIntervals? seconds 0 = some slot := by
  rw [afterIntervals?, Int.natCast_zero, Int.zero_mul, Int.add_zero, Moment.ofNanos?_nanos]

theorem Moment.afterIntervals?_add {j : Nat} (hm : slot.afterIntervals? seconds j = some m)
    (i : Nat) : m.addSeconds? ((i : Int) * seconds) = slot.afterIntervals? seconds (j + i) := by
  have hnanos := Moment.ofNanos?_eq_some_iff.1 hm
  rw [afterIntervals?, Int.natCast_add, Int.add_mul, ← Int.add_assoc, ← hnanos, ← Int.mul_assoc]
  rfl

theorem Moment.afterIntervals?_succ {j : Nat} (hm : slot.afterIntervals? seconds j = some m) :
    m.addSeconds? seconds = slot.afterIntervals? seconds (j + 1) := by
  rw [← afterIntervals?_add hm, Int.natCast_one, Int.one_mul]

theorem Moment.afterIntervals?_eq_none {i j : Nat} (h : slot.afterIntervals? seconds i = none)
    (hij : i ≤ j) : slot.afterIntervals? seconds j = none := by
  have hperiod : 0 ≤ (seconds : Int) * nanosPerSecond :=
    Int.mul_nonneg (Int.natCast_nonneg _) (by decide)
  have hle := Int.mul_le_mul_of_nonneg_right (Int.ofNat_le.2 hij) hperiod
  have hpos := Int.mul_nonneg (Int.natCast_nonneg i) hperiod
  have hfirst := slot.first_le
  unfold afterIntervals? at h ⊢
  rw [Moment.ofNanos?_eq_none_iff] at h ⊢
  omega

end

namespace Cadence

/-! ## one by one -/

/-- adds one interval after the other until `started` is passed -/
def addUntil (seconds : Nat) (started m : Moment) : Except SlotFault Moment :=
  if _hdue : m ≤ started ∧ 0 < seconds then
    match _hnext : m.addSeconds? seconds with
    | some next => addUntil seconds started next
    | none => .error .beyondCalendar
  else .ok m
termination_by (started.nanos + 1 - m.nanos).toNat
decreasing_by
  have hnanos : next.nanos = m.nanos + seconds * nanosPerSecond := Moment.ofNanos?_eq_some_iff.1 _hnext
  have hle : m.nanos ≤ started.nanos := _hdue.1
  unfold nanosPerSecond at hnanos
  omega

/-- the slot of a plain interval after a firing, with one step for each interval -/
def steppingPlain (seconds : Nat) (last : Firing) : Except SlotFault Moment :=
  match last.scheduled.addSeconds? seconds with
  | some m => addUntil seconds last.started m
  | none => .error .beyondCalendar

/-- with so many intervals after the slot, one at least, `started` is passed for the first time -/
def Passes (seconds : Nat) (slot started : Moment) (k : Nat) : Prop :=
  IsLeast {k : Nat | 1 ≤ k ∧ started.nanos < slot.nanos + k * (seconds * nanosPerSecond)} k

section
variable {seconds k : Nat} {slot started m : Moment}

theorem exists_passes (hs : 1 ≤ seconds) (slot started : Moment) :
    ∃ k, Passes seconds slot started k := by
  have hex : ∃ k : Nat, 1 ≤ k ∧ started.nanos < slot.nanos + k * (seconds * nanosPerSecond) := by
    refine ⟨(started.nanos - slot.nanos).toNat + 1, by omega, ?_⟩
    have hone : 1 ≤ (seconds : Int) * nanosPerSecond := by
      unfold nanosPerSecond
      omega
    have hle := Int.mul_le_mul_of_nonneg_left hone
      (Int.natCast_nonneg ((started.nanos - slot.nanos).toNat + 1))
    omega
  classical
  exact ⟨Nat.find hex, Nat.find_spec hex, fun j hj => Nat.find_min' hex hj⟩

theorem Passes.lt (hk : Passes seconds slot started k)
    (hm : slot.afterIntervals? seconds k = some m) : started < m := by
  have hnanos := Moment.ofNanos?_eq_some_iff.1 hm
  have hlt := hk.1.2
  rw [Moment.lt_def]
  omega

theorem Passes.due {j : Nat} (hk : Passes seconds slot started k) (hj : 1 ≤ j) (hjk : j < k)
    (hm : slot.afterIntervals? seconds j = some m) : m ≤ started := by
  have hnanos := Moment.ofNanos?_eq_some_iff.1 hm
  by_contra hlt
  rw [not_le, Moment.lt_def] at hlt
  exact absurd (hk.2 ⟨hj, by omega⟩) (not_le.2 hjk)

theorem addUntil_eq (hs : 1 ≤ seconds) (hk : Passes seconds slot started k) {j : Nat} (hj : 1 ≤ j)
    (hjk : j ≤ k) (hm : slot.afterIntervals? seconds j = some m) :
    addUntil seconds started m = inCalendar (slot.afterIntervals? seconds k) := by
  induction hd : k - j generalizing j m with
  | zero =>
    obtain rfl : j = k := by omega
    rw [addUntil, dif_neg fun hdue => not_le.2 (hk.lt hm) hdue.1, hm]
    rfl
  | succ d ih =>
    rw [addUntil, dif_pos ⟨hk.due hj (by omega) hm, by omega⟩]
    have hnext := Moment.afterIntervals?_succ hm
    split
    case h_1 next hsome => exact ih (by omega) (by omega) (hnext ▸ hsome) (by omega)
    case h_2 hnone =>
      rw [Moment.afterIntervals?_eq_none (hnext ▸ hnone) (show j + 1 ≤ k by omega)]
      rfl

theorem steppingPlain_eq (hs : 1 ≤ seconds) (hk : Passes seconds slot started k)
    (trigger : Trigger) :
    steppingPlain seconds ⟨slot, started, trigger⟩
      = inCalendar (slot.afterIntervals? seconds k) := by
  have hfirst := Moment.afterIntervals?_succ (Moment.afterIntervals?_zero slot seconds)
  unfold steppingPlain
  dsimp only
  split
  case h_1 m hsome => exact addUntil_eq hs hk le_rfl hk.1.1 (hfirst ▸ hsome)
  case h_2 hnone =>
    rw [Moment.afterIntervals?_eq_none (hfirst ▸ hnone) hk.1.1]
    rfl

/-! ## at once -/

theorem skip_le {x p : Int} (hp : 0 < p) : x / nanosPerSecond / p * p * nanosPerSecond ≤ x := by
  have hperiods := Int.ediv_mul_le (x / nanosPerSecond) (ne_of_gt hp)
  have hseconds := Int.emod_add_mul_ediv x nanosPerSecond
  generalize x / nanosPerSecond / p * p = y at *
  unfold nanosPerSecond at *
  omega

def wentBy (seconds : Nat) (started m : Moment) : Nat :=
  ((started.nanos - m.nanos) / nanosPerSecond / seconds).toNat

theorem natCast_wentBy (hdue : m ≤ started) :
    (wentBy seconds started m : Int) = (started.nanos - m.nanos) / nanosPerSecond / seconds := by
  have hle : m.nanos ≤ started.nanos := hdue
  refine Int.toNat_of_nonneg (Int.ediv_nonneg (Int.ediv_nonneg (by omega) (by decide)) ?_)
  exact Int.natCast_nonneg _

/-- after a slot that was due, the whole intervals that went by and one more are needed -/
theorem passes_of_due (hs : 1 ≤ seconds) (hm : slot.afterIntervals? seconds 1 = some m)
    (hdue : m ≤ started) : Passes seconds slot started (1 + (wentBy seconds started m + 1)) := by
  have hnanos : m.nanos = slot.nanos + ((1 : Nat) : Int) * (seconds * nanosPerSecond) :=
    Moment.ofNanos?_eq_some_iff.1 hm
  have hcast : (wentBy seconds started m : Int) =
      (started.nanos - m.nanos) / nanosPerSecond / seconds := natCast_wentBy hdue
  have hover := lt_followingPlain_skip (x := started.nanos - m.nanos) (p := seconds) (by omega)
  have hunder := skip_le (x := started.nanos - m.nanos) (p := seconds) (by omega)
  rw [← hcast, Int.mul_assoc] at hover hunder
  generalize wentBy seconds started m = n at *
  constructor
  · refine ⟨by omega, ?_⟩
    rw [Int.natCast_add 1, Int.add_mul, ← Int.add_assoc, ← hnanos, Int.natCast_add_one]
    omega
  · rintro j ⟨hj, hlt⟩
    by_contra hfew
    obtain ⟨i, rfl⟩ : ∃ i, j = 1 + i := ⟨j - 1, by omega⟩
    rw [Int.natCast_add 1, Int.add_mul, ← Int.add_assoc, ← hnanos] at hlt
    have hle := Int.mul_le_mul_of_nonneg_right (show (i : Int) ≤ n by omega)
      (Int.mul_nonneg (Int.natCast_nonneg seconds) (show 0 ≤ nanosPerSecond by decide))
    omega

theorem followingPlain_eq (hs : 1 ≤ seconds) (hk : Passes seconds slot started k)
    (trigger : Trigger) :
    followingPlain seconds ⟨slot, started, trigger⟩
      = inCalendar (slot.afterIntervals? seconds k) := by
  have hfirst := Moment.afterIntervals?_succ (Moment.afterIntervals?_zero slot seconds)
  unfold followingPlain
  dsimp only
  rw [hfirst]
  cases hm : slot.afterIntervals? seconds (0 + 1) with
  | none =>
    rw [Moment.afterIntervals?_eq_none hm hk.1.1]
    rfl
  | some m =>
    show (if m ≤ started then inCalendar _ else .ok m) = _
    by_cases hdue : m ≤ started
    · rw [if_pos hdue, ← natCast_wentBy hdue, hk.unique (passes_of_due hs hm hdue),
        ← Moment.afterIntervals?_add hm]
      rfl
    · have hone : k = 1 := by
        have hle := hk.1.1
        by_contra hne
        exact hdue (hk.due le_rfl (by omega) hm)
      rw [if_neg hdue, hone, hm]
      rfl

end

/-! ## machine words -/

def longestSpan : Int := Int64.maxValue.toInt / 1000

/-- the seconds that are left out as 64 bits hold them, where a result that does not fit would wrap -/
def skipWord (behind seconds : Int64) : Int64 := (behind / seconds + 1) * seconds

/-- the search past a slot that lies `behind` seconds back divides by something, and 64 bits hold every
number on its way -/
structure FitsWords (seconds : Nat) (behind : Int) : Prop where
  divisor : (seconds : Int) ≠ 0
  interval : (Int64.ofInt seconds).toInt = seconds
  difference : (Int64.ofInt behind).toInt = behind
  quotient : (Int64.ofInt behind / Int64.ofInt seconds).toInt = behind / seconds
  succ : (Int64.ofInt behind / Int64.ofInt seconds + 1).toInt = behind / seconds + 1
  product : (skipWord (.ofInt behind) (.ofInt seconds)).toInt = (behind / seconds + 1) * seconds
  spans : (seconds : Int) ≤ longestSpan ∧ (behind / seconds + 1) * seconds ≤ longestSpan

theorem toInt_ofInt {x : Int} (h0 : 0 ≤ x) (h1 : x ≤ longestSpan) : (Int64.ofInt x).toInt = x := by
  rw [show longestSpan = 9223372036854775 by decide] at h1
  exact Int64.toInt_ofInt_of_le (by omega) (by omega)

theorem fitsWords {seconds : Nat} {behind : Int} (hs : 1 ≤ seconds) (h0 : 0 ≤ behind)
    (hlong : (seconds : Int) + behind ≤ longestSpan) : FitsWords seconds behind := by
  have hmax : longestSpan ≤ Int64.maxValue.toInt := by decide
  have hmin : Int64.minValue.toInt ≤ 0 := by decide
  have hfloor := Int.ediv_mul_le behind (show (seconds : Int) ≠ 0 by omega)
  have hquot : behind / seconds ≤ behind := Int.ediv_le_self _ h0
  have hnonneg : 0 ≤ behind / seconds := Int.ediv_nonneg h0 (by omega)
  have hskip : (behind / seconds + 1) * seconds = behind / seconds * seconds + seconds := by
    rw [Int.add_mul, Int.one_mul]
  have hpos : 0 ≤ (behind / seconds + 1) * (seconds : Int) :=
    Int.mul_nonneg (by omega) (Int.natCast_nonneg _)
  -- neither number is negative, so truncation rounds down
  have hdiv : Int64.ofInt behind / Int64.ofInt seconds = .ofInt (behind / seconds) := by
    rw [← Int64.ofInt_tdiv (by omega) (by omega) (by omega) (by omega),
      Int.tdiv_eq_ediv_of_nonneg h0]
  have hsucc : Int64.ofInt behind / Int64.ofInt seconds + 1 = .ofInt (behind / seconds + 1) := by
    rw [hdiv, Int64.ofInt_add]
    rfl
  exact {
    divisor := by omega
    interval := toInt_ofInt (by omega) (by omega)
    difference := toInt_ofInt h0 (by omega)
    quotient := by
      rw [hdiv]
      exact toInt_ofInt hnonneg (by omega)
    succ := by
      rw [hsucc]
      exact toInt_ofInt (by omega) (by omega)
    product := by
      rw [skipWord, hsucc, ← Int64.ofInt_mul]
      exact toInt_ofInt hpos (by omega)
    spans := by omega }

theorem fitsWords_of_due {seconds : Nat} (hs : 1 ≤ seconds) (hle : seconds ≤ Interval.longest)
    {started m : Moment} (hdue : m ≤ started) :
    FitsWords seconds ((started.nanos - m.nanos) / nanosPerSecond) := by
  have hm : m.nanos ≤ started.nanos := hdue
  have hfirst := m.first_le
  have hlast := started.le_last
  rw [show Calendar.firstNano = -8334601228800000000000 by decide] at hfirst
  rw [show Calendar.lastNano = 8210266876799999999999 by decide] at hlast
  unfold Interval.longest at hle
  refine fitsWords hs (Int.ediv_nonneg (by omega) (by decide)) ?_
  rw [show longestSpan = 9223372036854775 by decide]
  unfold nanosPerSecond
  omega

end Cadence

/-! ## both at once -/

/-- The run after a scheduled run of a plain interval comes the least number of intervals, one at least,
after the slot of the run that leads past its start, at whatever moments the run was due, started and
ended; it is never if that lies beyond the calendar.  The loop that adds one interval after the other
finds the same, the end of the run does not matter, and the search divides by something and fits machine
words. -/
theorem nextAfter_plain_eq [ZoneDatabase] {config : ScheduleConfig}
    {defaults : ScheduleDefaults} {n : Normalized} (h : config.normalize defaults = .ok n) {seconds : Nat}
    (hplain : n.schedule.cadence = .plainInterval seconds) (slot started : Moment) :
    ∃ k, Cadence.Passes seconds slot started k ∧
      (∀ now, n.schedule.nextAfter ⟨slot, started, .scheduled⟩ now
          = .ok ((slot.afterIntervals? seconds k).getD Moment.last) ∧
        n.schedule.nextAfter ⟨slot, started, .scheduled⟩ now
          = orNever (Cadence.steppingPlain seconds ⟨slot, started, .scheduled⟩)) ∧
      ∀ m, slot.addSeconds? seconds = some m → m ≤ started →
        Cadence.FitsWords seconds ((started.nanos - m.nanos) / nanosPerSecond) := by
  have haccepted := ScheduleConfig.accepted_of_normalize h
  rw [hplain] at haccepted
  obtain ⟨hs, hle⟩ : 1 ≤ seconds ∧ seconds ≤ Interval.longest := by
    cases haccepted with
    | plainInterval h0 h1 => exact ⟨h0, h1⟩
  obtain ⟨k, hk⟩ := Cadence.exists_passes hs slot started
  have hsearch := Cadence.followingPlain_eq hs hk .scheduled
  have hloop := Cadence.steppingPlain_eq hs hk .scheduled
  have hnext (now : Moment) : n.schedule.nextAfter ⟨slot, started, .scheduled⟩ now
      = orNever (Cadence.followingPlain seconds ⟨slot, started, .scheduled⟩) := by
    unfold Schedule.nextAfter
    rw [hplain]
    rfl
  refine ⟨k, hk, fun now => ⟨?_, ?_⟩, fun m _ hdue => Cadence.fitsWords_of_due hs hle hdue⟩
  · rw [hnext, hsearch]
    cases slot.afterIntervals? seconds k <;> rfl
  · rw [hnext, hsearch, hloop]

open ZoneTable

/-- an hourly run that was due at midnight and started a nanosecond after 03:00 is followed by the one at
04:00, four intervals on -/
theorem nextAfter_plain_eq_hourly :
    ∃ config defaults n, ScheduleConfig.normalize config defaults = .ok n ∧
      n.schedule.cadence = .plainInterval 3600 ∧
      Cadence.Passes 3600 ⟨1704067200000000000, by decide, by decide⟩
        ⟨1704078000000000001, by decide, by decide⟩ 4 ∧
      ∀ now, n.schedule.nextAfter ⟨⟨1704067200000000000, by decide, by decide⟩,
          ⟨1704078000000000001, by decide, by decide⟩, .scheduled⟩ now
        = .ok ⟨1704081600000000000, by decide, by decide⟩ := by
  have h : ScheduleConfig.normalize { interval := some (.seconds 3600) } ⟨86400, .host⟩
      = .ok ⟨⟨.plainInterval 3600, false, .host⟩, []⟩ := by decide +kernel
  obtain ⟨k, hk, hnext, -⟩ := nextAfter_plain_eq h rfl
    ⟨1704067200000000000, by decide, by decide⟩ ⟨1704078000000000001, by decide, by decide⟩
  have hfour : k = 4 := by
    refine hk.unique ⟨⟨by decide, by decide⟩, ?_⟩
    rintro j ⟨-, hj⟩
    simp only [nanosPerSecond] at hj
    omega
  subst hfour
  exact ⟨_, _, _, h, rfl, hk, fun now => (hnext now).1⟩

end Rota
