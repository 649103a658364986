import Rota.Proofs.Runner.Runs
import Rota.Proofs.Schedule.Advance
import Rota.Zone.Table

/-!
# A loop and a clock that is set

The clock of a loop can be set at any time, forward or back, while it waits and during a run.  For a
plain interval, and in UTC, it makes progress all the same: every slot it runs for comes after the one
before, and once a run has started late, the slots that were due then are behind it.

* `Stamp.Before`           the order of stamps, in which a leap second comes before the next minute;
* `Runner.Climbs`          the invariant: the slots of the runs so far increase, and the slot that is
                           waited for, or run for, comes after all of them;
* `Runner.Climbs.step`     what one step keeps of it;
* `Runner.Course.climbs`   and a whole history;
* `Runner.Onward`          what a loop waits for after a run;
* `slots_climb`            the slots increase, runs start when they are due, and a run leads on.

A slot that never comes, `Moment.last`, is left out.
-/

namespace Rota

namespace Stamp

/-- where a stamp lies when every second is followed by a leap second -/
def position (s : Stamp) : Int :=
  (2 * s.moment.seconds + if s.isLeap then 1 else 0) * nanosPerSecond +
    s.moment.nanos % nanosPerSecond

def Before (a b : Stamp) : Prop := a.position < b.position

theorem Before.trans {a b c : Stamp} (h : a.Before b) (h' : b.Before c) : a.Before c :=
  Int.lt_trans h h'

theorem before_of_seconds_lt {a b : Stamp} (h : a.moment.seconds < b.moment.seconds) :
    a.Before b := by
  unfold Before position nanosPerSecond
  split <;> split <;> omega

/-- a stamp comes after a moment exactly when the loop takes it to be ahead -/
theorem before_iff_isAfter (m : Moment) (s : Stamp) :
    (ofMoment m).Before s ↔ s.isAfter m = true := by
  obtain ⟨p, isLeap⟩ := s
  unfold isAfter due Before position ofMoment
  rw [decide_eq_true_iff]
  unfold Moment.seconds nanosPerSecond
  cases isLeap <;> simp <;> omega

theorem not_last_before (m : Moment) : ¬Before Moment.last m := by
  rw [before_iff_isAfter, isAfter_coe, decide_eq_true_iff]
  exact not_lt.2 m.le_last_moment

end Stamp

namespace Runner

variable [ZoneDatabase]

/-- the slots that a loop ran for increase, and it goes on after them -/
structure Climbs (r : Runner) (slots : List Stamp) : Prop where
  increase : slots.Pairwise Stamp.Before
  startup : r.phase = .fresh ∨ r.trigger = .startup → slots = []
  waiting : r.phase = .waiting → r.slot = Moment.last ∨ ∀ s ∈ slots, s.Before r.slot
  running : ∀ m, r.phase = .running m →
    r.slot = Moment.last ∨ ∀ s ∈ slots, s = r.slot ∨ s.Before r.slot

/-- what a loop waits for after a run for `slot` that started at `started`: a slot after it, and not one
that was due already, unless the clock was set back during the run -/
structure Onward (r : Runner) (slot : Stamp) (started now : Moment) (next : Stamp) : Prop where
  phase : r.phase = .waiting
  trigger : r.trigger = .scheduled
  next_eq : r.slot = next
  published : r.status.nextRun = some next
  slot_lt : next = Moment.last ∨ slot.Before next
  start_lt : started ≤ now → next = Moment.last ∨ next.isAfter started = true

section
variable {r r' : Runner} {store store' : Option StateStore} {i : RunnerInput}
  {deeds new : List RunnerEvent} {slots : List Stamp} {done : Option Run}

theorem Climbs.freshIn (z : ZoneClock) (name : String) (s : Schedule) :
    (Runner.freshIn z name s).Climbs [] where
  increase := .nil
  startup _ := rfl
  waiting := nofun
  running _ := nofun

theorem Climbs.over (h : r.Climbs slots) (hover : r'.phase = .stopped ∨ r'.phase = .brokenDown)
    (htrigger : r'.trigger = r.trigger) : r'.Climbs slots := by
  have hphase {phase : Phase} (h0 : phase ≠ .stopped) (h1 : phase ≠ .brokenDown) :
      r'.phase ≠ phase := by
    rcases hover with e | e
    · exact e ▸ h0.symm
    · exact e ▸ h1.symm
  refine ⟨h.increase, fun hs => h.startup (.inr ?_), fun hw => ?_, fun m hm => ?_⟩
  · exact htrigger ▸ hs.resolve_left (hphase nofun nofun)
  · exact absurd hw (hphase nofun nofun)
  · exact absurd hm (hphase nofun nofun)

theorem Climbs.calling (h : r.Climbs slots) (hphase : r.phase = .waiting) (now : Moment) :
    (r.calling now).Climbs (slots ++ [RunnerEvent.entered .running,
      .called r.slot now r.trigger].filterMap RunnerEvent.slot?) := by
  have hslot := h.waiting hphase
  rw [slots_called]
  split
  case isTrue hnew =>
    have hbefore := hslot.resolve_left hnew.2
    refine ⟨?_, ?_, nofun, fun m _ => .inr ?_⟩
    · rw [List.pairwise_append]
      exact ⟨h.increase, List.pairwise_singleton .., by simpa using hbefore⟩
    · rintro (hfresh | hstartup)
      · exact nomatch hfresh
      · exact nomatch hnew.1.symm.trans hstartup
    · intro s hs
      rcases List.mem_append.1 hs with hs | hs
      · exact .inr (hbefore s hs)
      · exact .inl (List.mem_singleton.1 hs)
  case isFalse =>
    rw [List.append_nil]
    refine ⟨h.increase, fun hs => h.startup (hs.imp_left nofun), nofun, fun m _ => ?_⟩
    exact hslot.imp_right fun hbefore s hs => .inr (hbefore s hs)

/-! ## the slot after a run -/

section
variable (hz : r.schedule.cadence.Steady r.clock) (hc : r.schedule.cadence.Accepted)
include hz hc

theorem slotAfter_ahead (ht : r.trigger = .scheduled) (started now : Moment) :
    ∃ next, r.slotAfter started now = .ok next ∧ (next = Moment.last ∨ r.slot.Before next ∧
      (started ≤ now → started < next)) := by
  obtain ⟨next, hnext, hahead⟩ := hz.progress hc r.slot.moment started now
  refine ⟨next, ?_, hahead.imp_right fun h => ?_⟩
  · rw [slotAfter, ht]
    exact hnext
  · exact ⟨Stamp.before_of_seconds_lt h.1, fun hle => min_eq_left hle ▸ h.2⟩

theorem Climbs.counted (h : r.Climbs slots) {started now next : Moment}
    (hphase : r.phase = .running started) (hnext : r.slotAfter started now = .ok next)
    (stats : RunStatistics) : ((r.counting stats).awaiting next .scheduled).Climbs slots := by
  have hslot : (next : Stamp) = Moment.last ∨ ∀ s ∈ slots, s.Before next := by
    cases ht : r.trigger with
    | startup =>
      -- the run at the start is the first one: there is no slot to come after
      right
      simp [h.startup (.inr ht)]
    | scheduled =>
      obtain ⟨q, hq, hahead⟩ := slotAfter_ahead hz hc ht started now
      obtain rfl : next = q := Except.ok.inj (hnext.symm.trans hq)
      rcases hahead with rfl | ⟨hlt, -⟩
      · exact .inl rfl
      rcases h.running started hphase with hlast | hbefore
      · rw [hlast] at hlt
        exact absurd hlt (Stamp.not_last_before next)
      · right
        intro s hs
        rcases hbefore s hs with rfl | hs
        · exact hlt
        · exact hs.trans hlt
  refine ⟨h.increase, ?_, fun _ => hslot, fun _ => nofun⟩
  rintro (hfresh | hstartup)
  · exact nomatch hfresh
  · exact nomatch hstartup

/-- a step goes on after the slots so far, and so does the run that it may start -/
theorem Climbs.step (h : r.Climbs slots) (does : r.Does store i r' store' new done) :
    r'.Climbs (slots ++ new.filterMap RunnerEvent.slot?) := by
  cases does with
  | nothing => rwa [List.filterMap_nil, List.append_nil]
  | obey =>
    rw [List.filterMap_nil, List.append_nil]
    exact ⟨h.increase, h.startup, h.waiting, h.running⟩
  | plan hphase =>
    obtain rfl := h.startup (.inl hphase)
    exact ⟨.nil, fun _ => rfl, fun _ => .inr (List.forall_mem_nil _), fun _ => nofun⟩
  | lose =>
    rw [List.filterMap_nil, List.append_nil]
    exact h.over (.inr rfl) rfl
  | leave => exact (List.append_nil slots).symm ▸ h.over (.inl rfl) rfl
  | call hphase => exact h.calling hphase _
  | collapse =>
    rw [List.filterMap_nil, List.append_nil]
    exact h.over (.inr rfl) rfl
  | strand => exact (List.append_nil slots).symm ▸ h.over (.inr rfl) rfl
  | goOn hphase hnext =>
    exact (List.append_nil slots).symm ▸ h.counted hz hc hphase hnext _

end

end

/-! ## a whole history -/

section
variable {r₀ r : Runner} {store₀ store : Option StateStore} {inputs : List RunnerInput}
  {deeds : List RunnerEvent} {runs : List Run} {slots : List Stamp}

theorem Course.climbs (hz : r₀.schedule.cadence.Steady r₀.clock)
    (hc : r₀.schedule.cadence.Accepted) (h₀ : r₀.Climbs slots)
    (h : r₀.Course store₀ inputs r store deeds runs) :
    r.Climbs (slots ++ deeds.filterMap RunnerEvent.slot?) := by
  induction h with
  | start => rwa [List.filterMap_nil, List.append_nil]
  | step before does ih =>
    rw [List.filterMap_append, ← List.append_assoc]
    rw [← before.schedule, ← before.clock] at hz
    rw [← before.schedule] at hc
    exact ih.step hz hc does

theorem Climbs.replay (hz : r₀.schedule.cadence.Steady r₀.clock)
    (hc : r₀.schedule.cadence.Accepted) (h₀ : r₀.Climbs slots) (store : Option StateStore)
    (inputs : List RunnerInput) : (r₀.replay store inputs).runner.Climbs
      (slots ++ (r₀.replay store inputs).events.filterMap RunnerEvent.slot?) := by
  have h := (course r₀ store inputs).climbs hz hc h₀
  rwa [RunnerEvent.filterMap_deeds fun _ => rfl] at h

theorem Course.due (h : r₀.Course store₀ inputs r store deeds runs) {slot : Stamp}
    {started : Moment} {trigger : Trigger} (hcall : .called slot started trigger ∈ deeds) :
    slot.isAfter started = false := by
  induction h with
  | start => exact nomatch hcall
  | step _ does ih =>
    rcases List.mem_append.1 hcall with hcall | hcall
    · exact ih hcall
    · cases does <;> simp_all

end

/-! ## after a run -/

section
variable {r : Runner} (hz : r.schedule.cadence.Steady r.clock) (hc : r.schedule.cadence.Accepted)
  {started : Moment} (hphase : r.phase = .running started) (ht : r.trigger = .scheduled)
  (store : Option StateStore) (now : Moment) (ms : Nat) (result : Except RunError Unit)
include hz hc hphase ht

theorem exists_onward :
    ∃ next, (r.finish store now ms (.returned result)).runner.Onward r.slot started now next := by
  obtain ⟨next, hnext, hahead⟩ := slotAfter_ahead hz hc ht started now
  have does := r.finish_does store now ms (.returned result)
  generalize r.finish store now ms (.returned result) = t at does ⊢
  obtain ⟨r', store', events⟩ := t
  dsimp only at does ⊢
  generalize events.filter RunnerEvent.isDeed = deeds at does
  generalize r.completed? (.finish now ms (.returned result)) = done at does
  cases does with
  | nothing h => exact absurd hphase (h started)
  | strand hphase' herror =>
    cases hphase.symm.trans hphase'
    exact nomatch hnext.symm.trans herror
  | goOn hphase' hnext' =>
    cases hphase.symm.trans hphase'
    cases hnext.symm.trans hnext'
    refine ⟨next, rfl, rfl, rfl, rfl, hahead.imp (congrArg _) And.left, fun hle => ?_⟩
    exact hahead.imp (congrArg _) fun h => decide_eq_true (h.2 hle)

/-- unless the clock is set back during a run, all slots that are run for later lie behind the start of
the run -/
theorem later_slots (hle : started ≤ now) (inputs : List RunnerInput) (slot : Stamp)
    (hslot : slot ∈ ((r.finish store now ms (.returned result)).runner.replay
      (r.finish store now ms (.returned result)).store inputs).events.filterMap RunnerEvent.slot?) :
    slot.isAfter started = true := by
  obtain ⟨next, h⟩ := exists_onward hz hc hphase ht store now ms result
  have does := r.finish_does store now ms (.returned result)
  -- the loop goes on as if its only run so far had been for the moment at which this one started
  have hclimbs : (r.finish store now ms (.returned result)).runner.Climbs
      [Stamp.ofMoment started] := by
    refine ⟨List.pairwise_singleton .., ?_, fun _ => ?_, fun m hm => ?_⟩
    · rintro (hfresh | hstartup)
      · exact nomatch h.phase.symm.trans hfresh
      · exact nomatch h.trigger.symm.trans hstartup
    · rw [h.next_eq]
      refine (h.start_lt hle).imp_right fun hafter s hs => ?_
      rw [List.mem_singleton.1 hs]
      exact (Stamp.before_iff_isAfter started next).2 hafter
    · exact nomatch h.phase.symm.trans hm
  have hall := (hclimbs.replay (by rwa [does.schedule, does.clock]) (by rwa [does.schedule])
    (r.finish store now ms (.returned result)).store inputs).increase
  exact (Stamp.before_iff_isAfter started slot).1 (List.rel_of_pairwise_cons hall hslot)

end

end Runner

/-! ## the law -/

/-- Whatever the clock of a loop shows, and however it is set: the slots that the loop runs for
increase, no run starts before its slot is due, and after a scheduled run the loop waits for a slot
that comes after the one it ran for.  Unless the clock is set back during the run, that slot, and every
slot that the loop runs for later, comes after the start of the run. -/
theorem slots_climb [ZoneDatabase] {config : ScheduleConfig} {defaults : ScheduleDefaults}
    {s : Normalized} (h : config.normalize defaults = .ok s) {z : ZoneClock} (hz : s.schedule.cadence.Steady z)
    (name : String) (store : Option StateStore) (inputs : List RunnerInput) :
    let t := (Runner.freshIn z name s.schedule).replay store inputs
    (t.events.filterMap RunnerEvent.slot?).Pairwise Stamp.Before ∧
      (∀ slot started trigger, .called slot started trigger ∈ t.events →
        slot.isAfter started = false) ∧
      ∀ started, t.runner.phase = .running started → t.runner.trigger = .scheduled →
        ∀ now ms result,
          let t' := t.runner.finish t.store now ms (.returned result)
          (∃ next, t'.runner.Onward t.runner.slot started now next) ∧
            (started ≤ now → ∀ later, ∀ slot ∈
              (t'.runner.replay t'.store later).events.filterMap RunnerEvent.slot?,
                slot.isAfter started = true) := by
  intro t
  have hc := ScheduleConfig.accepted_of_normalize h
  have hcourse := Runner.course (.freshIn z name s.schedule) store inputs
  have hclimbs := (Runner.Climbs.freshIn z name s.schedule).replay hz hc store inputs
  have hz' : t.runner.schedule.cadence.Steady t.runner.clock := by
    rwa [hcourse.schedule, hcourse.clock]
  have hc' : t.runner.schedule.cadence.Accepted := by rwa [hcourse.schedule]
  refine ⟨hclimbs.increase, fun slot started trigger hcall => ?_, ?_⟩
  · exact hcourse.due (List.mem_filter.2 ⟨hcall, rfl⟩)
  · intro started hphase htrigger now ms result t'
    exact ⟨Runner.exists_onward hz' hc' hphase htrigger t.store now ms result,
      fun hle later slot hslot =>
        Runner.later_slots hz' hc' hphase htrigger t.store now ms result hle later slot hslot⟩

open ZoneTable

/-- a daily module whose clock was set three days ahead runs once for the days that were left out, and
then waits for the next morning -/
theorem slots_climb_daily :
    ∃ (config : ScheduleConfig) (defaults : ScheduleDefaults) (s : Normalized)
      (inputs : List RunnerInput) (started now : Moment),
      config.normalize defaults = .ok s ∧ s.schedule.cadence.Steady (.fixed 0) ∧
        started.nanos = 1704369600000000000 ∧ started ≤ now ∧
        let t := (Runner.freshIn (.fixed 0) "daily" s.schedule).replay none inputs
        t.events.filterMap RunnerEvent.slot? =
            [Stamp.ofMoment ⟨1704087000000000000, by decide, by decide⟩] ∧
          t.runner.phase = .running started ∧ t.runner.trigger = .scheduled ∧
            (t.runner.finish t.store now 60000 (.returned (.ok ()))).runner.Onward t.runner.slot
              started now (Stamp.ofMoment ⟨1704432600000000000, by decide, by decide⟩) := by
  have h : ScheduleConfig.normalize { time := some "05:30" } ⟨86400, .host⟩
      = .ok ⟨⟨.dailyTime ⟨5, 30⟩ 86400, false, .host⟩, []⟩ := by decide +kernel
  let inputs : List RunnerInput :=
    [.begin ⟨1704067200000000000, by decide, by decide⟩ (.ok none),
      .look ⟨1704369600000000000, by decide, by decide⟩]
  let started : Moment := ⟨1704369600000000000, by decide, by decide⟩
  let now : Moment := ⟨1704369660000000000, by decide, by decide⟩
  have hz : (Cadence.dailyTime ⟨5, 30⟩ 86400).Steady (.fixed 0) := .inr rfl
  obtain ⟨-, -, hrun⟩ := slots_climb h hz "daily" none inputs
  obtain ⟨⟨next, hnext⟩, -⟩ :=
    hrun started (by decide +kernel) (by decide +kernel) now 60000 (.ok ())
  have e : next = Stamp.ofMoment ⟨1704432600000000000, by decide, by decide⟩ := by
    apply Option.some.inj
    rw [← hnext.published]
    decide +kernel
  rw [e] at hnext
  exact ⟨_, _, _, inputs, started, now, h, hz, rfl, by decide, by decide +kernel,
    by decide +kernel, by decide +kernel, hnext⟩

end Rota
