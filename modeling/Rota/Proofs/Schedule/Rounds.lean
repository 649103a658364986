import Rota.Proofs.Schedule.Faults

/-!
# Searches in rounds

The searches for a slot go on in rounds, without a bound on their number: each round tries one slot,
and either it is the last one, or it says where the next round begins.  The loop that makes up for
missed slots goes from moment to moment, and clock changes can move a slot away from its date; but the
wall clock shows a later date after every round, so the days that are left of the calendar count its
rounds.

* `Search.Ends`               a search that begins at a place comes to an end, with a result;
* `DayLine.round`             one round of the search for the first slot, along a line of days;
* `Cadence.catchUpRound`      one round of the loop that makes up for missed slots;
* `Cadence.LeadsOn`           a slot of a later date, also by the wall clock;
* `Cadence.Follows.leadsOn_step`   **a step from any moment leads on to a later date**;
* `Cadence.Follows.ends_catchUp`   the loop ends from wherever it begins;
* `Cadence.SearchesEnd`       what is to hold of all searches of a cadence;
* `searches_end`              it holds in every zone that keeps to its readings.
-/

namespace Rota

open Calendar

/-! ## rounds -/

inductive Round (σ : Type) where
  | again (s : σ)
  | stop (r : Except SlotFault Moment)

/-- a search that begins at a place ends with `r`, after some number of rounds -/
inductive Search.Ends {σ : Type} (round : σ → Round σ) (r : Except SlotFault Moment) : σ → Prop
  | stop {s : σ} (h : round s = .stop r) : Ends round r s
  | again {s t : σ} (h : round s = .again t) (rest : Ends round r t) : Ends round r s

def DayLine.round (l : DayLine) (z : ZoneClock) (time : TimeOfDay) (now : Moment) (i : Int) :
    Round Int :=
  match l.slot z time i with
  | .error e => .stop (.error e)
  | .ok slot => if now < slot then .stop (.ok slot) else .again (i + 1)

def Cadence.catchUpRound (z : ZoneClock) (c : Cadence) (started now slot : Moment) : Round Moment :=
  if slot ≤ now ∧ slot ≤ started then
    match c.step z slot with
    | .ok next => .again next
    | .error e => .stop (.error e)
  else .stop (.ok slot)

/-- a search that began at `base` found a slot after `bound`, or it ran off the calendar, with a date
or with a reading of the wall clock that the calendar does not hold -/
inductive Cadence.Ended (z : ZoneClock) (c : Cadence) (base bound : Moment) :
    Except SlotFault Moment → Prop
  | slot {q : Moment} (isSlot : c.IsSlot z base q) (lt : bound < q) : Ended z c base bound (.ok q)
  | beyondCalendar : Ended z c base bound (.error .beyondCalendar)
  | wallClock : Ended z c base bound (.error .wallClock)

section
variable {z : ZoneClock} {c : Cadence} {l : DayLine} {time : TimeOfDay} {n : Nat}
  {base bound now started p q : Moment} {i k d : Int}

/-! ## the first slot -/

/-- the rounds of a search along a line go on to the day with which `IsFirst` says that it ends -/
theorem DayLine.IsFirst.ends (hk : l.IsFirst z time now i k) :
    Search.Ends (l.round z time now) (l.slot z time k) i := by
  obtain ⟨m, rfl⟩ : ∃ m : Nat, k = i + m := ⟨(k - i).toNat, by have := hk.le; omega⟩
  induction m generalizing i with
  | zero =>
    rw [Int.natCast_zero, Int.add_zero] at hk ⊢
    refine .stop ?_
    unfold DayLine.round
    cases hs : l.slot z time i with
    | error e => rfl
    | ok m => exact if_pos (hk.after m hs)
  | succ m ih =>
    obtain ⟨p, hp, hle⟩ := hk.before i (Int.le_refl i) (by omega)
    have hround : l.round z time now i = .again (i + 1) := by
      unfold DayLine.round
      rw [hp]
      exact if_neg (not_lt.2 hle)
    have htail := hk.tail (by omega)
    rw [show i + ((m + 1 : Nat) : Int) = i + 1 + m by omega] at htail ⊢
    exact .again hround (ih htail)

theorem DayLine.slot_fault {e : SlotFault} (h : l.slot z time i = .error e) :
    e = .beyondCalendar ∨ e = .wallClock :=
  (slot_error h).elim .inr fun h => .inl h.1

theorem Cadence.ended_of_fault {e : SlotFault} (h : e = .beyondCalendar ∨ e = .wallClock) :
    c.Ended z base bound (.error e) := by
  rcases h with rfl | rfl
  · exact .beyondCalendar
  · exact .wallClock

theorem Cadence.ended_of_localDay_error {e : SlotFault} (h : z.localDay p = .error e) :
    c.Ended z base bound (.error e) :=
  ended_of_fault (.inr (ZoneClock.localDay_error h))

namespace Cadence.Follows

variable (hc : c.Follows l time n)
include hc

theorem isSlot_of_slot (hq : l.slot z time i = .ok q) : c.IsSlot z base q := by
  have hslot : c.SlotOn z (l.day i) q := hc.slotOn_iff.2 ⟨i, rfl, hq⟩
  cases hc <;> exact ⟨_, hslot⟩

theorem ended_slot (h : ∀ q, l.slot z time i = .ok q → bound < q) :
    c.Ended z base bound (l.slot z time i) := by
  cases hs : l.slot z time i with
  | error e => exact ended_of_fault (DayLine.slot_fault hs)
  | ok q => exact .slot (hc.isSlot_of_slot hs) (h q hs)

theorem ends_first (hd : z.localDay now = .ok d) :
    Search.Ends (l.round z time now) (c.first z now) (l.start d) := by
  obtain ⟨k, hk⟩ := l.exists_isFirst z time now (l.start d)
  rw [first_eq_slot hc hd hk]
  exact hk.ends

theorem ended_first (now : Moment) : c.Ended z now now (c.first z now) := by
  cases hd : z.localDay now with
  | error e =>
    rw [first, hd]
    exact ended_of_localDay_error hd
  | ok d =>
    obtain ⟨k, hk⟩ := l.exists_isFirst z time now (l.start d)
    rw [first_eq_slot hc hd hk]
    exact hc.ended_slot hk.after

end Cadence.Follows

/-! ## one step -/

/-- `q` is the slot of a date after the day `d`, and the wall clock shows no earlier date at it -/
def Cadence.LeadsOn (z : ZoneClock) (c : Cadence) (d : Int) (q : Moment) : Prop :=
  ∃ e, d < e ∧ c.SlotOn z e q ∧ ∀ shown, z.localDay q = .ok shown → e ≤ shown

theorem DayLine.day_le_localDay (hz : z.Faithful) (hq : l.slot z time i = .ok q)
    (hd : z.localDay q = .ok d) : l.day i ≤ d := by
  obtain ⟨s, hs, hqs⟩ := answer_of_slot hq
  obtain ⟨-, -, e⟩ := ZoneClock.localDay_eq_ok_iff.1 hd
  rw [hqs.seconds_eq] at e
  have hb := hs.bounds hz
  have hw := l.wall_bounds time i
  omega

namespace Cadence.Follows

variable (hc : c.Follows l time n) (hn : 1 ≤ n)
include hc hn

theorem step_fault {e : SlotFault} (h : c.step z p = .error e) :
    e = .beyondCalendar ∨ e = .wallClock := by
  cases hd : z.localDay p with
  | error e' =>
    rw [step, hd] at h
    rw [← Except.error.inj h]
    exact .inr (ZoneClock.localDay_error hd)
  | ok d =>
    rcases hc.exists_step hn hd with hout | ⟨i, -, hi⟩
    · rw [hout] at h
      exact .inl (Except.error.inj h).symm
    · rw [hi] at h
      exact DayLine.slot_fault h

theorem leadsOn_step (hz : z.Faithful) (h : c.step z p = .ok q) :
    ∃ d, z.localDay p = .ok d ∧ c.LeadsOn z d q := by
  cases hd : z.localDay p with
  | error e =>
    rw [step, hd] at h
    exact nomatch h
  | ok d =>
    refine ⟨d, rfl, ?_⟩
    rcases hc.exists_step hn hd with hout | ⟨i, hi, hslot⟩
    · rw [hout] at h
      exact nomatch h
    · rw [hslot] at h
      exact ⟨l.day i, hi, hc.slotOn_iff.2 ⟨i, rfl, h⟩, fun e he => l.day_le_localDay hz h he⟩

theorem isSlot_of_step (hz : z.Faithful) (h : c.step z p = .ok q) : c.IsSlot z base q := by
  obtain ⟨d, -, e, -, hslot, -⟩ := hc.leadsOn_step hn hz h
  cases hc <;> exact ⟨e, hslot⟩

end Cadence.Follows

/-! ## making up for missed slots -/

def ZoneClock.daysLeft (z : ZoneClock) (p : Moment) : Nat :=
  match z.localDay p with
  | .ok d => (lastDay + 1 - d).toNat
  | .error _ => 0

theorem ZoneClock.daysLeft_lt_catchUpFuel (z : ZoneClock) (p : Moment) :
    z.daysLeft p < Cadence.catchUpFuel := by
  have hspan : lastDay + 1 - firstDay < Cadence.catchUpFuel := by decide
  unfold daysLeft
  split
  case h_1 d hd =>
    have hmem := firstDay_le_of_localDay hd
    omega
  case h_2 => decide

namespace Cadence.Follows

variable (hc : c.Follows l time n) (hn : 1 ≤ n) (hz : z.Faithful)
include hc hn hz

/-- every step uses up days of the calendar -/
theorem daysLeft_step (h : c.step z p = .ok q) : z.daysLeft q < z.daysLeft p := by
  obtain ⟨d, hd, e, hlt, hslot, hshown⟩ := hc.leadsOn_step hn hz h
  have hmem := ZoneClock.firstDay_le_of_localDay hd
  unfold ZoneClock.daysLeft
  rw [hd]
  cases hq : z.localDay q with
  | error => simp only; omega
  | ok d' =>
    have hle := hshown d' hq
    simp only
    omega

/-- the loop ends, from any moment; with as much fuel as days are left the fuel does not matter -/
theorem ends_catchUp (started now : Moment) {fuel : Nat} (hfuel : z.daysLeft p < fuel) :
    Search.Ends (c.catchUpRound z started now) (c.catchUp z started now fuel p) p := by
  induction fuel generalizing p with
  | zero => exact absurd hfuel (Nat.not_lt_zero _)
  | succ fuel ih =>
    unfold catchUp
    by_cases hdue : p ≤ now ∧ p ≤ started
    · rw [if_pos hdue]
      cases hstep : c.step z p with
      | error e =>
        refine .stop ?_
        rw [catchUpRound, if_pos hdue, hstep]
      | ok q =>
        have hless := hc.daysLeft_step hn hz hstep
        refine .again (t := q) ?_ (ih (by omega))
        rw [catchUpRound, if_pos hdue, hstep]
    · rw [if_neg hdue]
      exact .stop (if_neg hdue)

omit hz in
theorem ended_of_ends (hz : z.Faithful) {r : Except SlotFault Moment}
    (h : Search.Ends (c.catchUpRound z started now) r p) (hp : c.IsSlot z base p) :
    c.Ended z base (min started now) r := by
  induction h with
  | @stop s hround =>
    unfold catchUpRound at hround
    split at hround
    case isTrue =>
      cases hstep : c.step z s with
      | ok q =>
        rw [hstep] at hround
        exact nomatch hround
      | error e =>
        rw [hstep] at hround
        rw [← Round.stop.inj hround]
        exact ended_of_fault (hc.step_fault hn hstep)
    case isFalse hdue =>
      rw [← Round.stop.inj hround]
      refine .slot hp (not_le.1 fun hle => hdue ?_)
      exact ⟨le_trans hle (min_le_right ..), le_trans hle (min_le_left ..)⟩
  | @again s t hround _ ih =>
    unfold catchUpRound at hround
    split at hround
    case isTrue =>
      cases hstep : c.step z s with
      | ok q =>
        rw [hstep] at hround
        rw [Round.again.inj hround] at hstep
        exact ih (hc.isSlot_of_step hn hz hstep)
      | error e =>
        rw [hstep] at hround
        exact nomatch hround
    case isFalse => exact nomatch hround

theorem ends_following {f : Firing} (h : c.step z f.scheduled = .ok p) (now : Moment) :
    Search.Ends (c.catchUpRound z f.started now) (c.following z f now) p := by
  rw [hc.following_eq, h]
  exact hc.ends_catchUp hn hz f.started now (z.daysLeft_lt_catchUpFuel p)

theorem ended_following (f : Firing) (now : Moment) :
    c.Ended z f.scheduled (min f.started now) (c.following z f now) := by
  cases hstep : c.step z f.scheduled with
  | error e =>
    rw [hc.following_eq, hstep]
    exact ended_of_fault (hc.step_fault hn hstep)
  | ok p =>
    exact hc.ended_of_ends hn hz (hc.ends_following hn hz hstep now) (hc.isSlot_of_step hn hz hstep)

end Cadence.Follows

/-! ## plain intervals -/

theorem Cadence.plain_ended_first {seconds : Nat} (hs : 1 ≤ seconds) (now : Moment) :
    (plainInterval seconds).Ended z now now ((plainInterval seconds).first z now) := by
  cases hd : z.localDay now with
  | error e =>
    rw [first, hd]
    exact ended_of_localDay_error hd
  | ok d =>
    have hfirst : (plainInterval seconds).first z now = inCalendar (now.addSeconds? seconds) := by
      rw [first, hd]
      rfl
    rw [hfirst]
    cases hm : now.addSeconds? seconds with
    | none => exact .beyondCalendar
    | some m =>
      have hplain : m.nanos = now.nanos + seconds * nanosPerSecond :=
        Moment.ofNanos?_eq_some_iff.1 hm
      refine .slot ⟨1, Nat.le_refl 1, by rw [hplain, Int.natCast_one, Int.one_mul]⟩ ?_
      unfold nanosPerSecond at hplain
      exact Moment.lt_def.2 (by omega)

theorem Cadence.plain_ended_following {seconds : Nat} (hs : 1 ≤ seconds) (f : Firing)
    (now : Moment) : (plainInterval seconds).Ended z f.scheduled (min f.started now)
      ((plainInterval seconds).following z f now) := by
  show (plainInterval seconds).Ended z f.scheduled (min f.started now) (followingPlain seconds f)
  cases h : followingPlain seconds f with
  | error e =>
    rw [followingPlain_error h]
    exact .beyondCalendar
  | ok q =>
    obtain ⟨hslot, hafter⟩ := followingPlain_eq_ok hs h
    exact .slot hslot (lt_of_le_of_lt (min_le_left ..) hafter)

end

/-! ## all searches -/

/-- all searches of a cadence come to an end -/
structure Cadence.SearchesEnd (z : ZoneClock) (c : Cadence) : Prop where
  first : ∀ now, c.Ended z now now (c.first z now)
  following : ∀ f now, c.Ended z f.scheduled (min f.started now) (c.following z f now)
  firstRounds : ∀ l time n, c.Follows l time n → ∀ now d, z.localDay now = .ok d →
    Search.Ends (l.round z time now) (c.first z now) (l.start d)
  followingRounds : ∀ time, c.time? = some time → ∀ f now p, c.step z f.scheduled = .ok p →
    Search.Ends (c.catchUpRound z f.started now) (c.following z f now) p
  step : ∀ time, c.time? = some time → ∀ p q, c.step z p = .ok q →
    ∃ d, z.localDay p = .ok d ∧ c.LeadsOn z d q

/-- In every zone whose offset is less than a day, and in which the instant that is found for a reading
shows it, all searches of an accepted schedule come to an end: with a slot, or off the calendar.  Every
step leads on to a later date, from any moment, also from a slot that was moved by a change of the clock
or for which the search gave up. -/
theorem searches_end [ZoneDatabase] {config : ScheduleConfig} {defaults : ScheduleDefaults}
    {s : Normalized} (h : config.normalize defaults = .ok s) {z : ZoneClock} (hz : z.Faithful) :
    s.schedule.cadence.SearchesEnd z := by
  have hc := ScheduleConfig.accepted_of_normalize h
  have hfirst (now : Moment) : s.schedule.cadence.Ended z now now (s.schedule.cadence.first z now) := by
    rcases hc.plain_or_follows with ⟨seconds, hs, e⟩ | ⟨l, time, n, hf, -⟩
    · rw [e]
      exact Cadence.plain_ended_first hs now
    · exact hf.ended_first now
  have hfollowing (f : Firing) (now : Moment) : s.schedule.cadence.Ended z f.scheduled
      (min f.started now) (s.schedule.cadence.following z f now) := by
    rcases hc.plain_or_follows with ⟨seconds, hs, e⟩ | ⟨l, time, n, hf, hn⟩
    · rw [e]
      exact Cadence.plain_ended_following hs f now
    · exact hf.ended_following hn hz f now
  refine ⟨hfirst, hfollowing, fun l time n hf now d hd => hf.ends_first hd, ?_, ?_⟩
  · intro time ht f now p hp
    obtain ⟨l, n, hf, hn⟩ := hc.exists_follows ht
    exact hf.ends_following hn hz hp now
  · intro time ht p q hq
    obtain ⟨l, n, hf, hn⟩ := hc.exists_follows ht
    exact hf.leadsOn_step hn hz hq

open ZoneTable

/-- Apia left out 2011-12-30.  The search for that day's 00:10 gave up and came to a moment of the next
day; the step from there leads on to the day after. -/
theorem searches_end_apia :
    ∃ config defaults s, ScheduleConfig.normalize config defaults = .ok s ∧
      NamedZone.pacificApia.clock.Faithful ∧ s.schedule.cadence.SearchesEnd s.schedule.zone.clock ∧
      s.schedule.cadence.LeadsOn s.schedule.zone.clock 15339
        ⟨1325326200000000000, by decide, by decide⟩ := by
  have hz := NamedZone.pacificApia_regular.faithful
  have h : ScheduleConfig.normalize { time := some "00:10", timezone := some "Pacific/Apia" }
      ⟨86400, .host⟩ = .ok ⟨⟨.dailyTime ⟨0, 10⟩ 86400, false, .named .pacificApia⟩, []⟩ := by
    decide +kernel
  have hends := searches_end h hz
  have hday : NamedZone.pacificApia.clock.localDay ⟨1325290200000000000, by decide, by decide⟩
      = .ok 15339 := by decide +kernel
  obtain ⟨d, hd, hon⟩ := hends.step ⟨0, 10⟩ rfl ⟨1325290200000000000, by decide, by decide⟩
    ⟨1325326200000000000, by decide, by decide⟩ (by decide +kernel)
  rw [hday, Except.ok.injEq] at hd
  subst hd
  exact ⟨_, _, _, h, hz, hends, hon⟩

end Rota
