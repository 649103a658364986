import Rota.Proofs.Schedule.Prompt
import Rota.State.Saved

/-!
# Restarts

A run that was announced before a restart is still the next one after it, if the restart comes in
time and the schedule is the same.  Slots of every second week, or of any longer period, are the
exception: the agent restores a run only if it is no later than the one that it would choose itself.

* `Cadence.Published`       the runs that are announced while an agent lives;
* `Cadence.Undisturbed`     no slot of a stretch of time was moved to another day or month;
* `Published.exists_step`   a run that is announced after a firing is one step away from a slot;
* `Published.le_next`       an announced run is no later than the next one after the restart;
* `restart_keeps`           it is restored.
-/

namespace Rota

open Calendar

/-! ## announced runs -/

/-- at the moment `t` the run at `n` is announced; `since` is the moment from which it was looked
for -/
inductive Cadence.Published (z : ZoneClock) (c : Cadence) : Moment → Moment → Moment → Prop
  | start {t n : Moment} (h : c.next z t = .ok n) : Published z c t t n
  | startup {f : Firing} {t n : Moment} (hf : f.trigger = .startup) (h0 : f.scheduled ≤ f.started)
      (h1 : f.started ≤ t) (h : c.nextAfter z f t = .ok n) : Published z c t t n
  | scheduled {s t₀ : Moment} {f : Firing} {t n : Moment} (hf : f.trigger = .scheduled)
      (hprev : Published z c s t₀ f.scheduled) (h0 : f.scheduled ≤ f.started)
      (h1 : f.started ≤ t) (h : c.nextAfter z f t = .ok n) : Published z c f.scheduled t n

/-- the wall clock shows the own day, or month, of every slot from `a` to `b` at that slot -/
def Cadence.Undisturbed (z : ZoneClock) (c : Cadence) (a b : Moment) : Prop :=
  ∀ l time n, c.Follows l time n → ∀ i p, l.slot z time i = .ok p → a ≤ p → p ≤ b →
    l.InPlace z i p

theorem Cadence.undisturbed_weekly {z : ZoneClock} (hz : z.Regular) (weekday : Weekday)
    (time : TimeOfDay) (weeks : Nat) (a b : Moment) :
    (Cadence.weekly weekday time weeks).Undisturbed z a b := by
  intro l time n hc i p hp _ _
  cases hc
  exact DayLine.weekly_inPlace hz hp

/-- the number of days of its line, or of intervals, after which a cadence is due again -/
def Cadence.stride : Cadence → Nat
  | .weekly _ _ weeks => weeks
  | .monthly _ _ months => months
  | .dailyTime _ _ => 1
  | .plainInterval _ => 1

theorem Cadence.Follows.stride_eq {c : Cadence} {l : DayLine} {time : TimeOfDay} {n : Nat}
    (h : c.Follows l time n) : c.stride = n := by
  cases h <;> rfl

/-! ## slots after late firings -/

section
variable {l : DayLine} {z : ZoneClock} {time : TimeOfDay} {c : Cadence} {n : Nat}
  (hz : z.Regular) (hc : c.Follows l time n) (hn : 1 ≤ n)
include hz hc hn

theorem Cadence.catchUp_step {since started now slot : Moment} {fuel : Nat}
    {x : Except SlotFault Moment} (hx : x ≠ .error .unending)
    (h : c.catchUp z started now fuel slot = x)
    (hslot : ∃ m j, l.slot z time j = .ok m ∧ since ≤ m ∧ m ≤ started ∧ c.step z m = .ok slot) :
    ∃ m j, l.slot z time j = .ok m ∧ since ≤ m ∧ m ≤ started ∧ c.step z m = x := by
  induction fuel generalizing slot with
  | zero => exact absurd h.symm hx
  | succ fuel ih =>
    rw [Cadence.catchUp] at h
    split at h
    case isTrue hdue =>
      obtain ⟨m, j, hm, hsince, -, hstep⟩ := hslot
      -- the slot that is stepped over is itself a slot of the line
      obtain ⟨d, hd, -⟩ := DayLine.exists_localDay hz hm
      rw [Cadence.step_slot hz hc hm hd] at hstep
      have hlt := Cadence.lt_step hz hn hm hd hstep
      have hsince' : since ≤ slot := le_trans hsince (le_of_lt hlt)
      cases hs : c.step z slot with
      | ok next =>
        rw [hs] at h
        exact ih h ⟨slot, _, hstep, hsince', hdue.2, hs⟩
      | error e =>
        rw [hs] at h
        exact ⟨slot, _, hstep, hsince', hdue.2, by rw [hs, ← h]⟩
    case isFalse =>
      rw [← h]
      exact hslot

theorem Cadence.following_step {f : Firing} {now : Moment} {i : Int}
    {x : Except SlotFault Moment} (hx : x ≠ .error .unending) (h : c.following z f now = x)
    (hi : l.slot z time i = .ok f.scheduled) (hle : f.scheduled ≤ f.started) :
    ∃ m j, l.slot z time j = .ok m ∧ f.scheduled ≤ m ∧ m ≤ f.started ∧ c.step z m = x := by
  rw [hc.following_eq] at h
  cases hs : c.step z f.scheduled with
  | ok slot =>
    rw [hs] at h
    exact Cadence.catchUp_step hz hc hn hx h ⟨_, i, hi, le_rfl, hle, hs⟩
  | error e =>
    rw [hs] at h
    exact ⟨_, i, hi, le_rfl, hle, by rw [hs, ← h]⟩

omit hz hc hn in
theorem Cadence.lt_of_catchUp {started now slot next : Moment} {fuel : Nat}
    (h : c.catchUp z started now fuel slot = .ok next) (hle : started ≤ now) : started < next := by
  induction fuel generalizing slot with
  | zero => cases h
  | succ fuel ih =>
    rw [Cadence.catchUp] at h
    split at h
    case isTrue =>
      cases hs : c.step z slot with
      | ok slot' =>
        rw [hs] at h
        exact ih h
      | error e =>
        rw [hs] at h
        cases h
    case isFalse hnot =>
      rw [Except.ok.injEq] at h
      subst h
      exact not_le.1 fun hdue => hnot ⟨le_trans hdue hle, hdue⟩

omit hz hn in
theorem Cadence.lt_of_following {f : Firing} {now next : Moment}
    (h : c.following z f now = .ok next) (hle : f.started ≤ now) : f.started < next := by
  rw [hc.following_eq] at h
  cases hs : c.step z f.scheduled with
  | ok slot =>
    rw [hs] at h
    exact Cadence.lt_of_catchUp h hle
  | error e =>
    rw [hs] at h
    cases h

theorem Cadence.Published.slot_or_last {since t next : Moment}
    (h : c.Published z since t next) :
    (∃ i, l.slot z time i = .ok next) ∨ next = Moment.last := by
  have hnext {t next : Moment} (h : c.next z t = .ok next) :
      (∃ i, l.slot z time i = .ok next) ∨ next = Moment.last := by
    obtain ⟨d, k, -, -, hk⟩ := Cadence.next_eq_ok hc h
    rcases orNever_eq_ok hk with hk | ⟨-, e⟩
    · exact .inl ⟨k, hk⟩
    · exact .inr e
  induction h with
  | start h => exact hnext h
  | startup hf _ _ h =>
    rw [Cadence.nextAfter, hf] at h
    exact hnext h
  | @scheduled s t₀ f t next hf hprev h0 h1 h ih =>
    rw [Cadence.nextAfter, hf] at h
    rcases orNever_eq_ok h with h | ⟨-, e⟩
    case inr => exact .inr e
    rcases ih with ⟨i, hi⟩ | hlast
    · obtain ⟨m, j, hm, -, -, hstep⟩ := Cadence.following_step hz hc hn (by simp) h hi h0
      obtain ⟨d, hd, -⟩ := DayLine.exists_localDay hz hm
      rw [Cadence.step_slot hz hc hm hd] at hstep
      exact .inl ⟨_, hstep⟩
    · -- a run that never comes is not followed by another one
      rw [hlast] at h0
      have hlt := lt_of_le_of_lt h0 (Cadence.lt_of_following hc h h1)
      exact absurd next.le_last_moment (not_le.2 hlt)

/-- what an announced run after a firing is, when it is still ahead: one step away from a slot that
was due before -/
theorem Cadence.Published.exists_step {s t₀ t next : Moment} {f : Firing}
    (hf : f.trigger = .scheduled) (hprev : c.Published z s t₀ f.scheduled)
    (h0 : f.scheduled ≤ f.started) (h1 : f.started ≤ t) (h : c.nextAfter z f t = .ok next)
    (htn : t < next) :
    ∃ m j d, l.slot z time j = .ok m ∧ f.scheduled ≤ m ∧ m ≤ t ∧ z.localDay m = .ok d ∧
      orNever (l.slot z time (l.place d + n)) = .ok next := by
  rw [Cadence.nextAfter, hf] at h
  simp only at h
  rcases hprev.slot_or_last hz hc hn with ⟨i, hi⟩ | hlast
  · have hx : c.following z f t ≠ .error .unending := by
      intro e
      rw [e] at h
      exact nomatch h
    obtain ⟨m, j, hm, hsince, hstarted, hstep⟩ :=
      Cadence.following_step hz hc hn hx rfl hi h0
    obtain ⟨d, hd, -⟩ := DayLine.exists_localDay hz hm
    rw [Cadence.step_slot hz hc hm hd] at hstep
    rw [← hstep] at h
    exact ⟨m, j, d, hm, hsince, le_trans hstarted h1, hd, h⟩
  · rw [hlast] at h0
    have hlt := lt_of_le_of_lt (le_trans h0 h1) htn
    exact absurd next.le_last_moment (not_le.2 hlt)

omit hn in
/-- the slot after one that has passed is no later than what a search finds, unless it is
overtaken -/
theorem Cadence.Follows.succ_le_next {m r next q : Moment} {j : Int}
    (hm : l.slot z time j = .ok m) (hnext : orNever (l.slot z time (j + 1)) = .ok next)
    (hmr : m ≤ r) (hr : c.next z r = .ok q) (hover : ¬c.OvertakenAt z r next) : next ≤ q := by
  obtain ⟨e, k, he, hk, hqk⟩ := Cadence.next_eq_ok hc hr
  rcases orNever_eq_ok hqk with hq | ⟨-, rfl⟩
  case inr => exact next.le_last_moment
  obtain ⟨d, hd, hle, -⟩ := DayLine.exists_localDay hz hm
  have hstart := DayLine.start_le_of_isFirst hz hmr hd he hk hq
  have hjk := l.le_start hle
  -- the search does not end with `m`, which has passed
  have hne : k ≠ j := by
    rintro rfl
    rw [hm, Except.ok.injEq] at hq
    rw [hq] at hmr
    exact absurd hmr (not_le.2 (hk.after q (by rw [hm, hq])))
  obtain rfl | hlt := (by omega : k = j + 1 ∨ j + 1 < k)
  · rw [hqk, Except.ok.injEq] at hnext
    exact le_of_eq hnext.symm
  · have hday := l.day_lt_iff.2 (show j < j + 1 by omega)
    have hmem := DayLine.mem_of_slot hm
    exact hc.slot_le_of_lt hz (by omega) he hk hnext hqk hlt hover

end

/-! ## plain intervals -/

theorem Cadence.followingPlain_le {seconds : Nat} (hs : 1 ≤ seconds) {f : Firing} {next : Moment}
    (hle : f.scheduled ≤ f.started)
    (h : orNever (Cadence.followingPlain seconds f) = .ok next) :
    next.nanos ≤ f.started.nanos + seconds * nanosPerSecond := by
  have hl : Moment.last.nanos = lastNano := rfl
  have hfirst := f.scheduled.first_le
  unfold nanosPerSecond
  rw [Moment.le_def] at hle
  unfold Cadence.followingPlain at h
  cases hm : f.scheduled.addSeconds? seconds with
  | none =>
    have hout := Moment.ofNanos?_eq_none_iff.1 hm
    unfold nanosPerSecond at hout
    rw [hm] at h
    rw [← Except.ok.inj h]
    omega
  | some m =>
    have em : m.nanos = _ := Moment.ofNanos?_eq_some_iff.1 hm
    rw [hm] at h
    change orNever (if m ≤ f.started then _ else _) = _ at h
    unfold nanosPerSecond at em
    split at h
    case isFalse =>
      rw [← Except.ok.inj h]
      omega
    case isTrue hdue =>
      rw [Moment.le_def] at hdue
      -- whole intervals that ended before the start make up no more than the time that passed
      have hbehind := Int.ediv_mul_le ((f.started.nanos - m.nanos) / nanosPerSecond)
        (show (seconds : Int) ≠ 0 by omega)
      have hpos : 0 ≤ (f.started.nanos - m.nanos) / nanosPerSecond / (seconds : Int) :=
        Int.ediv_nonneg (Int.ediv_nonneg (by omega) (by decide)) (by omega)
      generalize (f.started.nanos - m.nanos) / nanosPerSecond / (seconds : Int) = k at *
      have hx : 0 ≤ k * (seconds : Int) := Int.mul_nonneg hpos (by omega)
      have hsum : (k + 1) * (seconds : Int) = k * seconds + seconds := by
        rw [Int.add_mul, Int.one_mul]
      rw [hsum] at h
      generalize k * (seconds : Int) = x at *
      unfold nanosPerSecond at hbehind
      cases hm' : m.addSeconds? (x + seconds) with
      | none =>
        have hout := Moment.ofNanos?_eq_none_iff.1 hm'
        have hfirst' := m.first_le
        unfold nanosPerSecond at hout
        rw [hm'] at h
        rw [← Except.ok.inj h]
        omega
      | some m' =>
        have em' : m'.nanos = _ := Moment.ofNanos?_eq_some_iff.1 hm'
        unfold nanosPerSecond at em'
        rw [hm'] at h
        rw [← Except.ok.inj h]
        omega

/-! ## the search after a restart returns -/

/-- the moment lies a day after the beginning of the calendar and a hundred days before its end, or
deeper in it -/
def Moment.Inner (m : Moment) : Prop :=
  firstSecond + 86400 ≤ m.seconds ∧ m.seconds + 8640000 ≤ lastSecond

section
variable {z : ZoneClock} (hz : z.Faithful) {c : Cadence} {r : Moment}
include hz

theorem ZoneClock.localDay_of_inner (h : r.Inner) :
    ∃ d, z.localDay r = .ok d ∧ d + 40 ≤ lastDay := by
  obtain ⟨h0, h1⟩ := h
  have ho := hz.offset_bounds r.seconds
  have hl := lastSecond_eq_lastDay
  refine ⟨z.reading r.seconds / 86400, ?_, ?_⟩
  · rw [ZoneClock.localDay_eq_ok_iff]
    unfold ZoneClock.reading
    exact ⟨by omega, by omega, rfl⟩
  · unfold ZoneClock.reading
    omega

theorem Cadence.Accepted.exists_next (hc : c.Accepted) (h : r.Inner) :
    ∃ q, c.next z r = .ok q := by
  obtain ⟨d, hd, hlast⟩ := ZoneClock.localDay_of_inner hz h
  rcases hc.plain_or_follows with ⟨seconds, -, rfl⟩ | ⟨l, time, n, hf, -⟩
  · unfold Cadence.next Cadence.first
    rw [hd]
    show ∃ q, orNever (inCalendar _) = .ok q
    cases r.addSeconds? seconds with
    | none => exact ⟨_, rfl⟩
    | some m => exact ⟨m, rfl⟩
  · obtain ⟨k, hk⟩ := l.exists_isFirst z time r (l.start d)
    have hkd := hk.day_le hz hd
    obtain ⟨q, hq⟩ : ∃ q, l.slot z time k = .ok q :=
      DayLine.slot_isOk (hk.firstDay_le hd) (by omega)
    refine ⟨q, ?_⟩
    rw [Cadence.next_eq hf hd hk, hq]
    rfl

end

/-! ## the law -/

section
variable {z : ZoneClock} (hz : z.Regular) {c : Cadence} {since t n r q : Moment}
include hz

/-- an announced run is no later than the next one after a restart, if it is the first one after
its announcement or the cadence is due on all days of its line -/
theorem Cadence.Published.le_next (hc : c.Accepted) (hp : c.Published z since t n)
    (hover : ¬c.OvertakenAt z r n)
    (hone : c.next z t = .ok n ∨ c.stride = 1 ∧ c.Undisturbed z since t) (htr : t ≤ r)
    (hrn : r < n) (hq : c.next z r = .ok q) : n ≤ q := by
  rcases hc.plain_or_follows with ⟨seconds, hs, rfl⟩ | ⟨l, time, k, hf, hk⟩
  · -- both come an interval after a start, and the restart was the later one
    by_cases ht : (Cadence.plainInterval seconds).next z t = .ok n
    · exact Cadence.plain_next_le htr ht hq
    · cases hp with
      | start h => exact absurd h ht
      | startup hf _ _ h =>
        rw [Cadence.nextAfter, hf] at h
        exact absurd h ht
      | @scheduled s t₀ f t n hf hprev h0 h1 h =>
        rw [Cadence.nextAfter, hf] at h
        have hle := Cadence.followingPlain_le hs h0 h
        have hlast := n.le_last
        have hl : Moment.last.nanos = lastNano := rfl
        rw [Moment.le_def] at *
        rcases Cadence.plain_next_eq_ok hq with e | ⟨-, rfl⟩ <;> omega
  · by_cases ht : c.next z t = .ok n
    · exact hf.next_le_next hz htr ht hq hover
    · obtain ⟨hone', hund⟩ := hone.resolve_left ht
      rw [hf.stride_eq] at hone'
      subst hone'
      cases hp with
      | start h => exact absurd h ht
      | startup hf' _ _ h =>
        rw [Cadence.nextAfter, hf'] at h
        exact absurd h ht
      | @scheduled s t₀ f t n hf' hprev h0 h1 h =>
        obtain ⟨m, j, d, hm, hsm, hmt, hd, hnext⟩ :=
          hprev.exists_step hz hf hk hf' h0 h1 h (lt_of_le_of_lt htr hrn)
        rw [(hund l time 1 hf j m hm hsm hmt).place_eq hd] at hnext
        exact hf.succ_le_next hz hm hnext (le_trans hmt htr) hq hover

theorem Cadence.Follows.next_le_slot {l : DayLine} {time : TimeOfDay} {k : Nat}
    (hf : c.Follows l time k) (hk : 1 < k) (hq : c.next z r = .ok q) {i d : Int} {p : Moment}
    (hd : z.localDay r = .ok d) (hdi : l.start d ≤ i) (hi : l.slot z time i = .ok p)
    (hrp : r < p) : q ≤ p := by
  obtain ⟨d', j, hd', hj, hqj⟩ := Cadence.next_eq_ok hf hq
  rw [hd, Except.ok.injEq] at hd'
  subst hd'
  have hji : j ≤ i := by
    by_contra hlt
    obtain ⟨m, hm, hle⟩ := hj.before i hdi (by omega)
    rw [hi, Except.ok.injEq] at hm
    rw [← hm] at hle
    exact absurd hle (not_le.2 hrp)
  have hq' : l.slot z time j = .ok q :=
    DayLine.slot_of_orNever hqj (hj.firstDay_le hd)
      (le_trans (l.day_le_iff.2 hji) (DayLine.mem_of_slot hi).2)
  obtain rfl | hlt := (by omega : j = i ∨ j < i)
  · rw [hi, Except.ok.injEq] at hq'
    exact le_of_eq hq'.symm
  · refine le_of_lt (DayLine.slot_lt hz.orderly hq' hi hlt fun _ => ?_)
    have hgap := l.add_gap_le hlt
    obtain ⟨-, rfl, -⟩ | hweek := hf.daily_or_gap <;> omega

end

/-- the saved run of the same schedule is restored unless the next run comes before it -/
theorem Schedule.restoreIn?_eq [ZoneDatabase] {z : ZoneClock} {s : Schedule} {n r q : Moment}
    (lastRun : Option Stamp) (hrn : r < n) (hq : s.cadence.next z r = .ok q) :
    s.restoreIn? z (some ⟨s.fingerprint, .ofMoment n, lastRun⟩) r =
      .ok (if q < n then none else some (.ofMoment n)) := by
  have hafter : (Stamp.ofMoment n).isAfter r = true := by
    rw [Stamp.isAfter_coe]
    exact decide_eq_true hrn
  unfold Schedule.restoreIn?
  simp only [hafter, and_self, if_true, hq, Stamp.isAfter_coe, decide_eq_true_eq]

/-- A run that was announced is restored after a restart that comes in time, in a regular zone and
unless it is overtaken: if it is the first slot after its announcement, or if the schedule is due
every day, every week, every month or after every interval and the slots from the firing to the
announcement were in place.  After more than one week or month it is restored exactly when no slot
of the line lies between the restart and the run. -/
theorem restart_keeps [ZoneDatabase] {z : ZoneClock} (hz : z.Regular) {config : ScheduleConfig}
    {defaults : ScheduleDefaults} {s : Normalized} (h : config.normalize defaults = .ok s)
    {since t n r : Moment} (hp : s.schedule.cadence.Published z since t n)
    (hover : ¬s.schedule.cadence.OvertakenAt z r n) (htr : t ≤ r) (hrn : r < n)
    (hret : r.Inner ∨ ∃ q, s.schedule.cadence.next z r = .ok q) (lastRun : Option Stamp) :
    (s.schedule.cadence.next z t = .ok n ∨
        s.schedule.cadence.stride = 1 ∧ s.schedule.cadence.Undisturbed z since t →
      s.schedule.restoreIn? z (some ⟨s.schedule.fingerprint, .ofMoment n, lastRun⟩) r
        = .ok (some (.ofMoment n))) ∧
    ∀ l time k, s.schedule.cadence.Follows l time k → 1 < k → ∀ d, z.localDay r = .ok d →
      ((∀ i p, l.start d ≤ i → l.slot z time i = .ok p → r < p → n ≤ p) →
        s.schedule.restoreIn? z (some ⟨s.schedule.fingerprint, .ofMoment n, lastRun⟩) r
          = .ok (some (.ofMoment n))) ∧
      ((∃ i p, l.start d ≤ i ∧ l.slot z time i = .ok p ∧ r < p ∧ p < n) →
        s.schedule.restoreIn? z (some ⟨s.schedule.fingerprint, .ofMoment n, lastRun⟩) r
          = .ok none) := by
  have hacc := ScheduleConfig.accepted_of_normalize h
  obtain ⟨q, hq⟩ : ∃ q, s.schedule.cadence.next z r = .ok q := by
    rcases hret with hin | hq
    · exact hacc.exists_next hz.faithful hin
    · exact hq
  have hkeep (hle : n ≤ q) : s.schedule.restoreIn? z
      (some ⟨s.schedule.fingerprint, .ofMoment n, lastRun⟩) r = .ok (some (.ofMoment n)) := by
    rw [Schedule.restoreIn?_eq lastRun hrn hq, if_neg (not_lt.2 hle)]
  refine ⟨fun hone => hkeep (hp.le_next hz hacc hover hone htr hrn hq), ?_⟩
  intro l time k hf hk d hd
  constructor
  · intro hnone
    obtain ⟨d', j, hd', hj, hqj⟩ := Cadence.next_eq_ok hf hq
    rw [hd, Except.ok.injEq] at hd'
    subst hd'
    rcases orNever_eq_ok hqj with hqj | ⟨-, rfl⟩
    · exact hkeep (hnone j q hj.le hqj (hj.after q hqj))
    · exact hkeep n.le_last_moment
  · rintro ⟨i, p, hdi, hi, hrp, hpn⟩
    have hqp := hf.next_le_slot hz hk hq hd hdi hi hrp
    rw [Schedule.restoreIn?_eq lastRun hrn hq, if_pos (lt_of_le_of_lt hqp hpn)]

/-! ## a schedule for Mondays -/

section
variable {weeks : Nat} {n : Moment}

theorem monday_published (hw : 1 ≤ weeks)
    (hn : (DayLine.weekly .monday).slot NamedZone.utc.clock ⟨4, 30⟩ (2818 + weeks) = .ok n) :
    (Cadence.weekly .monday ⟨4, 30⟩ weeks).Published NamedZone.utc.clock
      ⟨1704083400000000000, by decide, by decide⟩ ⟨1704083400000000000, by decide, by decide⟩ n := by
  have hc := Cadence.Follows.weekly .monday ⟨4, 30⟩ weeks
  have hslot : (DayLine.weekly .monday).slot NamedZone.utc.clock ⟨4, 30⟩ 2818
      = .ok ⟨1704083400000000000, by decide, by decide⟩ := by decide +kernel
  have hd : NamedZone.utc.clock.localDay ⟨1704067200000000000, by decide, by decide⟩
      = .ok 19723 := by decide +kernel
  have hk : (DayLine.weekly .monday).IsFirst NamedZone.utc.clock ⟨4, 30⟩
      ⟨1704067200000000000, by decide, by decide⟩ ((DayLine.weekly .monday).start 19723) 2818 :=
    DayLine.isFirst_of_lt hslot (by decide)
  have hstart := Cadence.next_eq hc hd hk
  rw [hslot] at hstart
  have hd' : NamedZone.utc.clock.localDay ⟨1704083400000000000, by decide, by decide⟩
      = .ok 19723 := by decide +kernel
  have hnext := Cadence.nextAfter_prompt NamedZone.utc_regular hc hw hslot hd'
  rw [show (DayLine.weekly .monday).place 19723 = 2818 by decide, hn] at hnext
  exact .scheduled (f := ⟨_, _, .scheduled⟩) rfl (.start hstart) le_rfl le_rfl hnext

end

open ZoneTable

theorem restart_keeps_monday :
    ∃ config defaults s, ScheduleConfig.normalize config defaults = .ok s ∧
      s.schedule.zone = .named .utc ∧ s.schedule.cadence = .weekly .monday ⟨4, 30⟩ 1 ∧
      s.schedule.restoreIn? NamedZone.utc.clock
        (some ⟨s.schedule.fingerprint, .ofMoment ⟨1704688200000000000, by decide, by decide⟩, none⟩)
        ⟨1704412800000000000, by decide, by decide⟩
        = .ok (some (.ofMoment ⟨1704688200000000000, by decide, by decide⟩)) := by
  have hz := NamedZone.utc_regular
  have h : ScheduleConfig.normalize
      { interval := some (.seconds 604800), wday := some (.name "monday"), time := some "04:30",
        timezone := some "UTC" } ⟨86400, .host⟩
      = .ok ⟨⟨.weekly .monday ⟨4, 30⟩ 1, false, .named .utc⟩, []⟩ := by decide +kernel
  have hn : (DayLine.weekly .monday).slot NamedZone.utc.clock ⟨4, 30⟩ (2818 + (1 : Nat))
      = .ok ⟨1704688200000000000, by decide, by decide⟩ := by decide +kernel
  have hund := Cadence.undisturbed_weekly hz .monday ⟨4, 30⟩ 1
    ⟨1704083400000000000, by decide, by decide⟩ ⟨1704083400000000000, by decide, by decide⟩
  have hin : Moment.Inner ⟨1704412800000000000, by decide, by decide⟩ := ⟨by decide, by decide⟩
  exact ⟨_, _, _, h, rfl, rfl, (restart_keeps hz h (monday_published (Nat.le_refl 1) hn)
    (Cadence.not_overtakenAt (by simp)) (by decide) (by decide) (.inl hin) none).1
    (.inr ⟨rfl, hund⟩)⟩

/-- a run of every second Monday is not restored a minute after the one before -/
theorem not_restart_keeps :
    ∃ config defaults s, ScheduleConfig.normalize config defaults = .ok s ∧
      ∃ since t n r : Moment, s.schedule.cadence.Published s.schedule.zone.clock since t n ∧
        t ≤ r ∧ r < n ∧
        s.schedule.restore? (some ⟨s.schedule.fingerprint, .ofMoment n, none⟩) r = .ok none := by
  have h : ScheduleConfig.normalize
      { interval := some (.seconds 1209600), wday := some (.name "monday"), time := some "04:30",
        timezone := some "UTC" } ⟨86400, .host⟩
      = .ok ⟨⟨.weekly .monday ⟨4, 30⟩ 2, false, .named .utc⟩, []⟩ := by decide +kernel
  have hn : (DayLine.weekly .monday).slot NamedZone.utc.clock ⟨4, 30⟩ (2818 + (2 : Nat))
      = .ok ⟨1705293000000000000, by decide, by decide⟩ := by decide +kernel
  have hslot : (DayLine.weekly .monday).slot NamedZone.utc.clock ⟨4, 30⟩ 2818
      = .ok ⟨1704083400000000000, by decide, by decide⟩ := by decide +kernel
  have hslot' : (DayLine.weekly .monday).slot NamedZone.utc.clock ⟨4, 30⟩ 2819
      = .ok ⟨1704688200000000000, by decide, by decide⟩ := by decide +kernel
  have hd : NamedZone.utc.clock.localDay ⟨1704083460000000000, by decide, by decide⟩
      = .ok 19723 := by decide +kernel
  -- at the restart the search comes to the Monday of the next week
  have hk : (DayLine.weekly .monday).IsFirst NamedZone.utc.clock ⟨4, 30⟩
      ⟨1704083460000000000, by decide, by decide⟩ ((DayLine.weekly .monday).start 19723) 2819 := by
    refine ⟨by decide, fun j h0 h1 => ?_, fun m hm => ?_⟩
    · have h0' : 2818 ≤ j := h0
      obtain rfl : j = 2818 := by omega
      exact ⟨_, hslot, by decide⟩
    · rw [hslot', Except.ok.injEq] at hm
      rw [← hm]
      decide
  have hq := Cadence.next_eq (Cadence.Follows.weekly .monday ⟨4, 30⟩ 2) hd hk
  rw [hslot'] at hq
  refine ⟨_, _, _, h, _, _, _, ⟨1704083460000000000, by decide, by decide⟩,
    monday_published (by decide) hn, by decide, by decide, ?_⟩
  show Schedule.restoreIn? NamedZone.utc.clock _ _ _ = _
  rw [Schedule.restoreIn?_eq none (by decide) hq, if_pos (by decide)]

end Rota
