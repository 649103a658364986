import Rota.Proofs.Schedule.Monotone

/-!
# Firings that follow each other

A firing that starts and ends at its slot is followed by the slot one period later, provided that
the wall clock shows the slot's own day, or month, at the slot.  A slot that was moved on past
midnight is counted as one of the next day, and the next slot is then one of a later period.

* `Cadence.nextAfter_prompt`   what follows such a firing;
* `DayLine.InPlace`            the wall clock shows the period of a slot at the slot;
* `prompt_next_iff`            no day and no month is left out exactly when slots are in place.
-/

namespace Rota

open Calendar

/-! ## the step after a firing -/

section
variable {l : DayLine} {z : ZoneClock} {time : TimeOfDay} {c : Cadence} {n : Nat}

theorem Cadence.Follows.following_eq (hc : c.Follows l time n) (last : Firing) (now : Moment) :
    c.following z last now =
      match c.step z last.scheduled with
      | .ok slot => c.catchUp z last.started now Cadence.catchUpFuel slot
      | .error e => .error e := by
  cases hc <;> rfl

theorem Cadence.catchUp_of_lt {started now slot : Moment} (h : started < slot) :
    c.catchUp z started now Cadence.catchUpFuel slot = .ok slot := by
  have hnot : ¬(slot ≤ now ∧ slot ≤ started) := fun hdue => not_le.2 h hdue.2
  rw [show Cadence.catchUpFuel = 199999999 + 1 from rfl, Cadence.catchUp, if_neg hnot]

theorem Cadence.Follows.nextAfter_eq_step (hc : c.Follows l time n) {p : Moment}
    (hlt : ∀ q, c.step z p = .ok q → p < q) :
    c.nextAfter z ⟨p, p, .scheduled⟩ p = orNever (c.step z p) := by
  show orNever (c.following z ⟨p, p, .scheduled⟩ p) = _
  rw [hc.following_eq]
  cases hq : c.step z p with
  | error e => rfl
  | ok q =>
    simp only
    rw [Cadence.catchUp_of_lt (hlt q hq)]

theorem Cadence.Follows.step_of_localDay (hc : c.Follows l time n) {i : Int} {p : Moment}
    (hp : l.slot z time i = .ok p) (hd : z.localDay p = .ok (l.day i)) :
    c.step z p = l.slot z time (i + n) := by
  have hstep := Cadence.step_eq_slot hc hd
  rw [l.place_day] at hstep
  exact hstep (DayLine.mem_of_slot hp).1

variable (hz : z.Regular) (hc : c.Follows l time n) (hn : 1 ≤ n)
include hz hc

theorem Cadence.step_slot {i d : Int} {p : Moment} (hp : l.slot z time i = .ok p)
    (hd : z.localDay p = .ok d) : c.step z p = l.slot z time (l.place d + n) := by
  obtain ⟨d', hd', hle, -⟩ := DayLine.exists_localDay hz hp
  rw [hd, Except.ok.injEq] at hd'
  subst hd'
  have h0 := l.day_le_iff.2 (l.le_place hle)
  have h1 := DayLine.mem_of_slot hp
  exact Cadence.step_eq_slot hc hd (by omega)

include hn in
omit hc in
theorem Cadence.lt_step {i d : Int} {p q : Moment} (hp : l.slot z time i = .ok p)
    (hd : z.localDay p = .ok d) (hq : l.slot z time (l.place d + n) = .ok q) : p < q := by
  have h0 := l.lt_day_succ d
  have h1 := l.day_le_iff.2 (show l.place d + 1 ≤ l.place d + n by omega)
  exact DayLine.slot_lt_of_localDay hz hp hd hq (by omega)

include hn in
theorem Cadence.nextAfter_prompt {i d : Int} {p : Moment} (hp : l.slot z time i = .ok p)
    (hd : z.localDay p = .ok d) :
    c.nextAfter z ⟨p, p, .scheduled⟩ p = orNever (l.slot z time (l.place d + n)) := by
  have hstep := Cadence.step_slot hz hc hp hd
  rw [hc.nextAfter_eq_step, hstep]
  intro q hq
  rw [hstep] at hq
  exact Cadence.lt_step hz hn hp hd hq

end

/-! ## slots in their place -/

/-- the wall clock shows the day or the month with the number `i` at the moment `p` -/
def DayLine.InPlace (l : DayLine) (z : ZoneClock) (i : Int) (p : Moment) : Prop :=
  ∃ d, z.localDay p = .ok d ∧ l.place d = i

section
variable {l : DayLine} {z : ZoneClock} {time : TimeOfDay}

theorem DayLine.InPlace.place_eq {i d : Int} {p : Moment} (h : l.InPlace z i p)
    (hd : z.localDay p = .ok d) : l.place d = i := by
  obtain ⟨e, he, h⟩ := h
  rw [hd, Except.ok.injEq] at he
  rwa [he]

/-- no slot is the last moment of the calendar, which stands for never -/
theorem DayLine.slot_ne_last {i : Int} : l.slot z time i ≠ .ok Moment.last := by
  intro h
  obtain ⟨s, -, hs⟩ := DayLine.answer_of_slot h
  have hl : Moment.last.nanos = lastSecond * nanosPerSecond + 999999999 := rfl
  unfold Moment.AtSecond nanosPerSecond at hs
  unfold nanosPerSecond at hl
  omega

variable (hz : z.Regular)
include hz

theorem DayLine.weekly_inPlace {weekday : Weekday} {i : Int} {p : Moment}
    (hp : (DayLine.weekly weekday).slot z time i = .ok p) :
    (DayLine.weekly weekday).InPlace z i p := by
  obtain ⟨d, hd, h0, h1⟩ := DayLine.exists_localDay hz hp
  refine ⟨d, hd, ?_⟩
  show (d + 4 - (weekday.number : Int)) / 7 = i
  have hday : (DayLine.weekly weekday).day i = 7 * i + weekday.number - 4 := rfl
  omega

/-- after a slot that was moved on to the next day the search does not give up -/
theorem DayLine.not_givesUp_of_moved {i d : Int} {p q : Moment}
    (hp : DayLine.daily.slot z time i = .ok p) (hd : z.localDay p = .ok d) (hlt : i < d)
    (hq : DayLine.daily.slot z time (i + 1) = .ok q) :
    ¬z.GivesUp (DayLine.daily.wall time (i + 1)) := by
  intro hgives
  obtain ⟨s, hs, hps⟩ := DayLine.answer_of_slot hp
  obtain ⟨-, -, e⟩ := ZoneClock.localDay_eq_ok_iff.1 hd
  rw [hps.seconds_eq] at e
  have hw := DayLine.daily.wall_bounds time i
  have hday : DayLine.daily.day i = i := rfl
  have hm := DayLine.wall_mem hp
  have hm' := DayLine.wall_mem hq
  have hsucc : DayLine.daily.wall time (i + 1) = DayLine.daily.wall time i + 86400 := by
    show (i + 1) * 86400 + time.seconds = i * 86400 + time.seconds + 86400
    omega
  rw [hsucc] at hgives hm'
  have hshown : ¬z.Unshown (DayLine.daily.wall time i) := by
    intro hun
    obtain ⟨y, hy⟩ := hz.shown_next_day hun hm.1 hm'.2
    exact hgives.unshown y hy
  -- so the slot is found at its own reading, and the wall clock shows its own day
  refine hshown fun y hy => ?_
  have hr := hz.shows hy.earliest
  rw [← hs.eq_of_shown hy] at hr
  omega

variable {c : Cadence} {n : Nat} (hc : c.Follows l time n) (hn : 1 ≤ n)
include hc hn

/-- the slot after a firing at its slot is the one a period later, if and only if the slot of the
firing is in its place -/
theorem DayLine.slot_place_eq_iff {i d : Int} {p q : Moment} (hp : l.slot z time i = .ok p)
    (hd : z.localDay p = .ok d) (hq : l.slot z time (i + n) = .ok q) :
    orNever (l.slot z time (l.place d + n)) = .ok q ↔ l.InPlace z i p := by
  constructor
  · intro h
    by_contra hmoved
    obtain ⟨d', hd', hle, -⟩ := DayLine.exists_localDay hz hp
    rw [hd, Except.ok.injEq] at hd'
    subst hd'
    have hlt : i < l.place d := by
      have hle' := l.le_place hle
      have hne : l.place d ≠ i := fun e => hmoved ⟨d, hd, e⟩
      omega
    rcases orNever_eq_ok h with h | ⟨-, rfl⟩
    · have hgap := l.add_gap_le (show i + n < l.place d + n by omega)
      have hself : q < q := by
        refine DayLine.slot_lt hz.orderly hq h (by omega) fun hgives => ?_
        obtain ⟨rfl, rfl, -⟩ | hweek := hc.daily_or_gap
        · exact absurd hgives (DayLine.not_givesUp_of_moved hz hp hd hlt hq)
        · omega
      exact lt_irrefl q hself
    · exact DayLine.slot_ne_last hq
  · rintro ⟨d', hd', e⟩
    rw [hd, Except.ok.injEq] at hd'
    subst hd'
    rw [e, hq]
    rfl

end

/-! ## chains of firings -/

section
variable {l : DayLine} {z : ZoneClock} {time : TimeOfDay} {c : Cadence} {n : Nat}

theorem later_zero (m : Moment) : later m 0 = .ok m := by
  unfold later Moment.addSeconds? Moment.add?
  rw [show m.nanos + 0 * nanosPerSecond = m.nanos by omega, Moment.ofNanos?_nanos]

theorem Cadence.chain_succ_succ (p : Moment) (count : Nat) :
    c.chain z 0 0 p (count + 2) = (do
      let q ← c.nextAfter z ⟨p, p, .scheduled⟩ p
      return p :: (← c.chain z 0 0 q (count + 1))) := by
  rw [Cadence.chain, later_zero]
  · simp only [bind, Except.bind, later_zero]
  · exact nofun

theorem Cadence.head_chain {p : Moment} {count : Nat} {ps : List Moment}
    (h : c.chain z 0 0 p (count + 1) = .ok ps) : ps.head? = some p := by
  cases count with
  | zero =>
    rw [← Except.ok.inj h]
    rfl
  | succ count =>
    rw [Cadence.chain_succ_succ] at h
    obtain ⟨q, -, h⟩ := bind_eq_ok.1 h
    obtain ⟨qs, -, h⟩ := bind_eq_ok.1 h
    rw [← Except.ok.inj h]
    rfl

variable (hz : z.Regular) (hc : c.Follows l time n) (hn : 1 ≤ n)
include hz hc hn

theorem Cadence.chain_eq_iff {i : Int} {slots : Nat → Moment} {count : Nat}
    (h : ∀ j : Nat, j < count → l.slot z time (i + j * n) = .ok (slots j)) :
    c.chain z 0 0 (slots 0) count = .ok ((List.range count).map slots) ↔
      ∀ j : Nat, j + 1 < count → l.InPlace z (i + j * n) (slots j) := by
  induction count generalizing i slots with
  | zero => exact ⟨fun _ j hj => absurd hj (by omega), fun _ => rfl⟩
  | succ count ih =>
    cases count with
    | zero => exact ⟨fun _ j hj => absurd hj (by omega), fun _ => rfl⟩
    | succ count =>
      have hslot0 : l.slot z time i = .ok (slots 0) := by simpa using h 0 (by omega)
      have hslot1 : l.slot z time (i + n) = .ok (slots 1) := by simpa using h 1 (by omega)
      obtain ⟨d, hd, -⟩ := DayLine.exists_localDay hz hslot0
      have hstep : c.nextAfter z ⟨slots 0, slots 0, .scheduled⟩ (slots 0) = .ok (slots 1) ↔
          l.InPlace z i (slots 0) := by
        rw [Cadence.nextAfter_prompt hz hc hn hslot0 hd]
        exact DayLine.slot_place_eq_iff hz hc hn hslot0 hd hslot1
      have e (j : Nat) : i + ((j + 1 : Nat) : Int) * n = i + n + j * n := by
        rw [Int.natCast_add_one, Int.add_mul]
        omega
      -- the chain without its first slot
      have htail := @ih (i + n) (fun j => slots (j + 1)) fun j hj => by
        rw [← e]
        exact h (j + 1) (by omega)
      have hmap : (List.range (count + 2)).map slots =
          slots 0 :: (List.range (count + 1)).map fun j => slots (j + 1) := by
        rw [List.range_succ_eq_map, List.map_cons, List.map_map]
        rfl
      rw [Cadence.chain_succ_succ, hmap]
      constructor
      · intro hchain j hj
        obtain ⟨q, hq, hrest⟩ := bind_eq_ok.1 hchain
        obtain ⟨qs, hqs, hcons⟩ := bind_eq_ok.1 hrest
        have hlist := (List.cons.inj (Except.ok.inj hcons)).2
        -- the second slot of the chain is the one that the first firing led to
        have hq1 : q = slots 1 := by
          have hhead := Cadence.head_chain hqs
          rw [hlist, List.range_succ_eq_map, List.map_cons, List.head?_cons,
            Option.some.injEq] at hhead
          exact hhead.symm
        rw [hq1] at hq hqs
        rw [hlist] at hqs
        cases j with
        | zero => simpa using hstep.1 hq
        | succ j =>
          rw [e]
          exact htail.1 hqs j (by omega)
      · intro hplace
        have h0 : l.InPlace z i (slots 0) := by simpa using hplace 0 (by omega)
        have hrest := htail.2 fun j hj => by
          rw [← e]
          exact hplace (j + 1) (by omega)
        rw [hstep.2 h0]
        show (do return slots 0 :: (← c.chain z 0 0 (slots 1) (count + 1))) = _
        rw [show slots 1 = slots (0 + 1) from rfl, hrest]
        rfl

end

/-! ## the law and its exception -/

/-- In a regular zone, a firing of an accepted schedule that starts and ends at its slot is followed
by a slot of the line: by never after the last one, and by the slot one period later exactly when
its own slot is in place.  A chain of such firings leaves out no slot exactly when its slots are in
place. -/
theorem prompt_next_iff [ZoneDatabase] {z : ZoneClock} (hz : z.Regular) {config : ScheduleConfig}
    {defaults : ScheduleDefaults} {s : Normalized} (h : config.normalize defaults = .ok s)
    {l : DayLine} {time : TimeOfDay} {n : Nat} (hc : s.schedule.cadence.Follows l time n) :
    (∀ i p, l.slot z time i = .ok p →
      (∃ d, z.localDay p = .ok d ∧ i ≤ l.place d ∧
        s.schedule.cadence.nextAfter z ⟨p, p, .scheduled⟩ p
          = orNever (l.slot z time (l.place d + n))) ∧
      (lastDay < l.day (i + n) →
        s.schedule.cadence.nextAfter z ⟨p, p, .scheduled⟩ p = .ok Moment.last) ∧
      ∀ q, l.slot z time (i + n) = .ok q →
        (s.schedule.cadence.nextAfter z ⟨p, p, .scheduled⟩ p = .ok q ↔ l.InPlace z i p)) ∧
    ∀ (i : Int) (slots : Nat → Moment) (count : Nat),
      (∀ j : Nat, j < count → l.slot z time (i + j * n) = .ok (slots j)) →
      (s.schedule.cadence.chain z 0 0 (slots 0) count = .ok ((List.range count).map slots) ↔
        ∀ j : Nat, j + 1 < count → l.InPlace z (i + j * n) (slots j)) := by
  have hn := (ScheduleConfig.accepted_of_normalize h).one_le hc
  refine ⟨fun i p hp => ?_, fun i slots count hs => Cadence.chain_eq_iff hz hc hn hs⟩
  obtain ⟨d, hd, hle, -⟩ := DayLine.exists_localDay hz hp
  have hnext := Cadence.nextAfter_prompt hz hc hn hp hd
  have hplace := l.le_place hle
  refine ⟨⟨d, hd, hplace, hnext⟩, fun hlast => ?_, fun q hq => ?_⟩
  · have hday := l.day_le_iff.2 (show i + n ≤ l.place d + n by omega)
    rw [hnext, DayLine.slot_of_lt (by omega)]
    rfl
  · rw [hnext]
    exact DayLine.slot_place_eq_iff hz hc hn hp hd hq

open ZoneTable

/-- on 2024-03-31 the clock in Berlin was set forward over 02:30; the slot of that day was moved on
to 03:00, and the slot of the next day follows it -/
theorem prompt_next_iff_berlin :
    ∃ config defaults s, ScheduleConfig.normalize config defaults = .ok s ∧
      NamedZone.europeBerlin.clock.Regular ∧ s.schedule.cadence.Follows .daily ⟨2, 30⟩ 1 ∧
      DayLine.daily.slot NamedZone.europeBerlin.clock ⟨2, 30⟩ 19813
        = .ok ⟨1711846800000000000, by decide, by decide⟩ ∧
      DayLine.daily.slot NamedZone.europeBerlin.clock ⟨2, 30⟩ (19813 + (1 : Nat))
        = .ok ⟨1711931400000000000, by decide, by decide⟩ ∧
      s.schedule.cadence.nextAfter NamedZone.europeBerlin.clock
        ⟨⟨1711846800000000000, by decide, by decide⟩, ⟨1711846800000000000, by decide, by decide⟩,
          .scheduled⟩ ⟨1711846800000000000, by decide, by decide⟩
        = .ok ⟨1711931400000000000, by decide, by decide⟩ := by
  have hz := NamedZone.europeBerlin_regular
  have h : ScheduleConfig.normalize { time := some "02:30", timezone := some "Europe/Berlin" }
      ⟨86400, .host⟩ = .ok ⟨⟨.dailyTime ⟨2, 30⟩ 86400, false, .named .europeBerlin⟩, []⟩ := by
    decide +kernel
  have hc := Cadence.Follows.daily ⟨2, 30⟩ 86400
  have hp : DayLine.daily.slot NamedZone.europeBerlin.clock ⟨2, 30⟩ 19813
      = .ok ⟨1711846800000000000, by decide, by decide⟩ := by decide +kernel
  have hq : DayLine.daily.slot NamedZone.europeBerlin.clock ⟨2, 30⟩ (19813 + (1 : Nat))
      = .ok ⟨1711931400000000000, by decide, by decide⟩ := by decide +kernel
  refine ⟨_, _, _, h, hz, hc, hp, hq, ?_⟩
  exact (((prompt_next_iff hz h hc).1 19813 _ hp).2.2 _ hq).2 ⟨19813, by decide +kernel, rfl⟩

/-! ## a day that is left out -/

/-- On 2018-05-04 the clock in Pyongyang was set forward from 23:30 to midnight.  The slot at 23:45
of that day was moved on to the next day, and the slot of the next day is left out. -/
theorem not_prompt_next :
    ∃ config defaults s, ScheduleConfig.normalize config defaults = .ok s ∧
      s.schedule.cadence.Follows .daily ⟨23, 45⟩ 1 ∧
      ∃ p q r : Moment, DayLine.daily.slot s.schedule.zone.clock ⟨23, 45⟩ 17655 = .ok p ∧
        DayLine.daily.slot s.schedule.zone.clock ⟨23, 45⟩ 17656 = .ok q ∧
        s.schedule.nextAfter ⟨p, p, .scheduled⟩ p = .ok r ∧ q < r := by
  have hz := NamedZone.asiaPyongyang_regular
  have h : ScheduleConfig.normalize { time := some "23:45", timezone := some "Asia/Pyongyang" }
      ⟨86400, .host⟩ = .ok ⟨⟨.dailyTime ⟨23, 45⟩ 86400, false, .named .asiaPyongyang⟩, []⟩ := by
    decide +kernel
  have hc := Cadence.Follows.daily ⟨23, 45⟩ 86400
  have hp : DayLine.daily.slot NamedZone.asiaPyongyang.clock ⟨23, 45⟩ 17655
      = .ok ⟨1525446000000000000, by decide, by decide⟩ := by decide +kernel
  have hq : DayLine.daily.slot NamedZone.asiaPyongyang.clock ⟨23, 45⟩ 17656
      = .ok ⟨1525531500000000000, by decide, by decide⟩ := by decide +kernel
  have hr : DayLine.daily.slot NamedZone.asiaPyongyang.clock ⟨23, 45⟩ (17656 + (1 : Nat))
      = .ok ⟨1525617900000000000, by decide, by decide⟩ := by decide +kernel
  have hd : NamedZone.asiaPyongyang.clock.localDay ⟨1525446000000000000, by decide, by decide⟩
      = .ok 17656 := by decide +kernel
  have hnext := Cadence.nextAfter_prompt hz hc (Nat.le_refl 1) hp hd
  refine ⟨_, _, _, h, hc, _, _, ⟨1525617900000000000, by decide, by decide⟩, hp, hq, ?_, by decide⟩
  rw [← show orNever _ = Except.ok _ from congrArg orNever hr]
  exact hnext

end Rota
