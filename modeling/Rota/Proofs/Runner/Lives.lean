import Rota.Proofs.Schedule.Ahead
import Rota.Runner.Basic
import Rota.Zone.Table

/-!
# The lives of a module

A module is started again and again, and each of its lives may end at any point.  Between two lives
nothing is kept but the state file, and that may hold anything.  While the clock does not go back, no
slot is run for twice.

* `Life`            one life: the state directory that it finds, and all that happens to it;
* `Runner.At`       the invariant: where a loop stands, behind it the slots up to a nanosecond;
* `Runner.At.step`  what one step keeps of it, and the run that the step may start;
* `Runner.At.replay`    what a whole life runs for;
* `Lives.slots_pairwise`    what all the lives run for;
* `slots_increase`  the slots of all lives increase, and the first one of a life lies ahead.

A slot that never comes, `Moment.last`, is left out.  The bound of the invariant is the slot that was
run for last; a run starts when its slot is due, so that no bound is ever ahead of the clock.
-/

namespace Rota

def RunnerInput.reading? : RunnerInput → Option Moment
  | .begin now _ => some now
  | .look now => some now
  | .finish now _ _ => some now
  | .stop => none

def RunnerEvent.slot? : RunnerEvent → Option Stamp
  | .called slot _ .scheduled => if slot = Moment.last then none else some slot
  | _ => none

/-- one life of a module -/
structure Life where
  store : Option StateStore
  inputs : List RunnerInput

namespace Life

def readings (l : Life) : List Moment := l.inputs.filterMap RunnerInput.reading?

end Life

namespace Runner

theorem slots_called (slot : Stamp) (started : Moment) (trigger : Trigger) :
    [.entered .running, .called slot started trigger].filterMap RunnerEvent.slot? =
      if trigger = .scheduled ∧ slot ≠ Moment.last then [slot] else [] := by
  cases trigger with
  | startup => rfl
  | scheduled => by_cases h : slot = Moment.last <;> simp [RunnerEvent.slot?, List.filterMap, h]

theorem slots_resultEvents (ms : Nat) (result : Except RunError Unit) :
    (resultEvents ms result).filterMap RunnerEvent.slot? = [] := by
  cases result <;> rfl

/-- what the clock shows after an input, if it showed `c` before -/
def after (c : Moment) (i : RunnerInput) : Moment := i.reading?.getD c

theorem after_sublist (c : Moment) (i : RunnerInput) (inputs : List RunnerInput) :
    (after c i :: inputs.filterMap RunnerInput.reading?).Sublist
      (c :: (i :: inputs).filterMap RunnerInput.reading?) := by
  cases i with
  | stop => exact .refl _
  | _ => exact List.sublist_cons_self _ _

theorem le_reading {c : Moment} {i : RunnerInput} {inputs : List RunnerInput}
    (hc : (c :: (i :: inputs).filterMap RunnerInput.reading?).Pairwise (· ≤ ·)) :
    ∀ m ∈ i.reading?, c ≤ m := by
  intro m hm
  refine List.rel_of_pairwise_cons hc ?_
  rw [List.filterMap_cons_some hm]
  exact List.mem_cons_self

end Runner

section
variable [ZoneDatabase]

def Life.slots (r : Runner) (l : Life) : List Stamp :=
  (r.replay l.store l.inputs).events.filterMap RunnerEvent.slot?

namespace Runner

variable {r : Runner} {b : Int} {c : Moment}

/-- a loop when the clock shows `c`, with all the slots it ran for at `b` or before -/
structure At (r : Runner) (b : Int) (c : Moment) : Prop where
  accepted : r.schedule.cadence.Accepted
  le : b ≤ c.nanos
  waiting : r.phase = .waiting → r.trigger = .scheduled →
    r.slot = Moment.last ∨ b < r.slot.due
  running : ∀ m, r.phase = .running m → b ≤ m.nanos ∧ m ≤ c

/-- a loop waits for a scheduled run after `now`, but not after `q` -/
structure WaitsAhead (r : Runner) (now q : Moment) : Prop where
  phase : r.phase = .waiting
  trigger : r.trigger = .scheduled
  ahead : r.slot = Moment.last ∨ r.slot.isAfter now = true
  notAfter : r.slot.isAfter q = false

namespace At

theorem mono (h : r.At b c) {c' : Moment} (hc : c ≤ c') : r.At b c' where
  accepted := h.accepted
  le := h.le.trans hc
  waiting := h.waiting
  running m hm := (h.running m hm).imp_right (le_trans · hc)

theorem idle (h : r.schedule.cadence.Accepted) (hb : b ≤ c.nanos) (hw : r.phase ≠ .waiting)
    (hr : ∀ m, r.phase ≠ .running m) : r.At b c :=
  ⟨h, hb, fun e => absurd e hw, fun m e => absurd e (hr m)⟩

theorem freshIn {s : Schedule} (h : s.cadence.Accepted) (z : ZoneClock) (name : String) :
    (Runner.freshIn z name s).At c.nanos c :=
  idle h le_rfl (nofun) (fun _ => nofun)

end At

/-! ## waiting for a slot -/

section
variable (r) (store : Option StateStore) (slot : Stamp) (trigger : Trigger)
  (lastRun : Option Moment)

theorem await_runner : (r.await store slot trigger lastRun).runner =
    { r with phase := .waiting, slot, trigger,
             status := { r.status with nextRun := some slot } } := by
  unfold await
  cases store with
  | none => rfl
  | some s =>
    dsimp only
    split <;> rfl

theorem slots_await :
    (r.await store slot trigger lastRun).events.filterMap RunnerEvent.slot? = [] := by
  unfold await
  cases store with
  | none => rfl
  | some s =>
    dsimp only
    split <;> rfl

variable {r slot trigger}

theorem At.await (h : r.schedule.cadence.Accepted) (hb : b ≤ c.nanos)
    (hslot : trigger = .scheduled → slot = Moment.last ∨ b < slot.due) :
    (r.await store slot trigger lastRun).runner.At b c := by
  rw [await_runner]
  exact ⟨h, hb, fun _ => hslot, fun _ => nofun⟩

end

/-! ## the first slot -/

section
variable {saved : Except StateFault (Option SavedState)} {now : Moment}

theorem firstSlot_eq_ok {slot : Stamp} (hc : r.schedule.cadence.Accepted)
    (h : (r.firstSlot saved now).1 = .ok slot) :
    (slot = Moment.last ∨ slot.isAfter now = true) ∧
      ∃ q, r.schedule.cadence.next r.clock now = .ok q ∧ slot.isAfter q = false := by
  have hnext : (r.schedule.cadence.next r.clock now).map Stamp.ofMoment = .ok slot →
      (slot = Moment.last ∨ slot.isAfter now = true) ∧
        ∃ q, r.schedule.cadence.next r.clock now = .ok q ∧ slot.isAfter q = false := by
    intro hn
    cases hq : r.schedule.cadence.next r.clock now with
    | error => rw [hq] at hn; exact nomatch hn
    | ok q =>
      rw [hq] at hn
      rw [← Except.ok.inj hn]
      have hself : (Stamp.ofMoment q).isAfter q = false := decide_eq_false (lt_irrefl q)
      exact ⟨(hc.lt_next hq).imp (congrArg Stamp.ofMoment) (decide_eq_true ·), q, rfl, hself⟩
  unfold firstSlot at h
  cases saved with
  | error => exact hnext h
  | ok saved =>
    dsimp only at h
    split at h
    case h_1 restored hr =>
      rw [← Except.ok.inj h]
      exact (Schedule.restoreIn?_eq_some hr).imp_left .inr
    case h_2 => exact hnext h
    case h_3 => exact nomatch h

theorem firstSlot_isOk {q : Moment} (hq : r.schedule.cadence.next r.clock now = .ok q)
    (saved : Except StateFault (Option SavedState)) :
    ∃ slot, (r.firstSlot saved now).1 = .ok slot := by
  unfold firstSlot
  rw [hq]
  cases saved with
  | error => exact ⟨_, rfl⟩
  | ok saved =>
    obtain ⟨restored, hr⟩ := Schedule.restoreIn?_isOk saved hq
    dsimp only
    rw [hr]
    cases restored <;> exact ⟨_, rfl⟩

theorem slots_firstSlot : (r.firstSlot saved now).2.filterMap RunnerEvent.slot? = [] := by
  unfold firstSlot
  cases saved with
  | error => rfl
  | ok saved =>
    dsimp only
    split <;> rfl

end

/-! ## one step -/

section
variable (store : Option StateStore)

theorem At.begin (h : r.At b c) (saved : Except StateFault (Option SavedState)) :
    (r.begin store c saved).runner.At b c ∧
      (r.begin store c saved).events.filterMap RunnerEvent.slot? = [] := by
  unfold Runner.begin
  split
  case h_2 => exact ⟨h, rfl⟩
  case h_1 =>
    split
    case isTrue => exact ⟨.await store none h.accepted h.le nofun, slots_await ..⟩
    case isFalse =>
      have hquiet : (r.firstSlot saved c).2.filterMap RunnerEvent.slot? = [] := slots_firstSlot
      split
      case h_1 slot events he =>
        obtain ⟨hslot, -⟩ := firstSlot_eq_ok h.accepted (congrArg Prod.fst he)
        have hnew : slot = Moment.last ∨ b < slot.due :=
          hslot.imp_right fun hlt => h.le.trans_lt (of_decide_eq_true hlt)
        rw [he] at hquiet
        dsimp only at hquiet ⊢
        rw [List.filterMap_append, hquiet, slots_await]
        exact ⟨.await store none h.accepted h.le fun _ => hnew, rfl⟩
      case h_2 events he =>
        rw [he] at hquiet
        exact ⟨.idle h.accepted h.le nofun fun _ => nofun, hquiet⟩

theorem At.look (h : r.At b c) :
    ((r.look store c).runner.At b c ∧
        (r.look store c).events.filterMap RunnerEvent.slot? = []) ∨
      ∃ slot : Stamp, b < slot.due ∧ (r.look store c).runner.At slot.due c ∧
        (r.look store c).events.filterMap RunnerEvent.slot? = [slot] := by
  rw [look_eq]
  split
  case isFalse => exact .inl ⟨h, rfl⟩
  case isTrue hphase =>
    split
    case isTrue => exact .inl ⟨.idle h.accepted h.le nofun fun _ => nofun, rfl⟩
    case isFalse =>
      split
      case isTrue => exact .inl ⟨h, rfl⟩
      case isFalse hdue =>
        -- the slot is due, so that it can be the new bound
        have hdue : r.slot.due ≤ c.nanos := by
          simpa [Stamp.isAfter] using hdue
        have hrun {b' : Int} (hb : b' ≤ c.nanos) : (r.call store c).runner.At b' c :=
          ⟨h.accepted, hb, nofun, fun m hm => by cases hm; exact ⟨hb, le_rfl⟩⟩
        rw [call, slots_called]
        split
        case isTrue hnew =>
          exact .inr ⟨r.slot, (h.waiting hphase hnew.1).resolve_left hnew.2, hrun hdue, rfl⟩
        case isFalse => exact .inl ⟨hrun h.le, rfl⟩

theorem finish_of_not_running (h : ∀ m, r.phase ≠ .running m) (ms : Nat) (ending : RunEnd) :
    r.finish store c ms ending = ⟨r, store, []⟩ := by
  unfold Runner.finish
  cases hphase : r.phase with
  | running m => exact absurd hphase (h m)
  | _ => rfl

theorem At.finish (h : r.At b c) (ms : Nat) (ending : RunEnd) :
    (r.finish store c ms ending).runner.At b c ∧
      (r.finish store c ms ending).events.filterMap RunnerEvent.slot? = [] := by
  by_cases hrun : ∀ m, r.phase ≠ .running m
  · rw [finish_of_not_running store hrun]
    exact ⟨h, rfl⟩
  obtain ⟨started, hphase⟩ : ∃ m, r.phase = .running m := by simpa using hrun
  obtain ⟨hb, hstarted⟩ := h.running started hphase
  unfold Runner.finish
  rw [hphase]
  cases ending with
  | breakdown => exact ⟨.idle h.accepted h.le nofun fun _ => nofun, rfl⟩
  | returned result =>
    dsimp only
    cases hnext : r.schedule.cadence.nextAfter r.clock ⟨r.slot.moment, started, r.trigger⟩ c with
    | error => exact ⟨.idle h.accepted h.le nofun fun _ => nofun, slots_resultEvents ms result⟩
    | ok next =>
      -- the next slot comes after the start of the run, and that is not behind the bound
      have hslot : next = Moment.last ∨ b < next.nanos :=
        (h.accepted.lt_nextAfter hstarted hnext).imp_right hb.trans_lt
      refine ⟨.await store _ h.accepted h.le fun _ => hslot.imp_left (congrArg Stamp.ofMoment), ?_⟩
      simp only [List.filterMap_append, slots_resultEvents, slots_await]
      split <;> rfl

theorem At.step (h : r.At b c) (i : RunnerInput) (hi : ∀ m ∈ i.reading?, c ≤ m) :
    ((r.step store i).runner.At b (after c i) ∧
        (r.step store i).events.filterMap RunnerEvent.slot? = []) ∨
      ∃ slot : Stamp, b < slot.due ∧ (r.step store i).runner.At slot.due (after c i) ∧
        (r.step store i).events.filterMap RunnerEvent.slot? = [slot] := by
  cases i with
  | begin now saved => exact .inl ((h.mono (hi now rfl)).begin store saved)
  | look now => exact (h.mono (hi now rfl)).look store
  | finish now ms ending => exact .inl ((h.mono (hi now rfl)).finish store ms ending)
  | stop => exact .inl ⟨⟨h.accepted, h.le, h.waiting, h.running⟩, rfl⟩

/-- a life that begins behind `b` runs for later slots only, one after the other, and the clock
reaches each of them -/
theorem At.replay {inputs : List RunnerInput} (h : r.At b c)
    (hc : (c :: inputs.filterMap RunnerInput.reading?).Pairwise (· ≤ ·)) :
    ((r.replay store inputs).events.filterMap RunnerEvent.slot?).Pairwise (·.due < ·.due) ∧
      ∀ slot ∈ (r.replay store inputs).events.filterMap RunnerEvent.slot?, b < slot.due ∧
        ∃ m ∈ c :: inputs.filterMap RunnerInput.reading?, slot.due ≤ m.nanos := by
  induction inputs generalizing r b c store with
  | nil =>
    rw [replay_nil]
    exact ⟨.nil, List.forall_mem_nil _⟩
  | cons i inputs ih =>
    have hsub := after_sublist c i inputs
    have hrest := hc.sublist hsub
    have hevents : (r.replay store (i :: inputs)).events = (r.step store i).events
        ++ ((r.step store i).runner.replay (r.step store i).store inputs).events := rfl
    rw [hevents, List.filterMap_append]
    rcases h.step store i (le_reading hc) with ⟨hat, hquiet⟩ | ⟨slot, hnew, hat, hslot⟩
    · -- no run starts
      obtain ⟨hpair, hmem⟩ := ih (r.step store i).store hat hrest
      rw [hquiet, List.nil_append]
      refine ⟨hpair, fun s hs => ?_⟩
      obtain ⟨hb, m, hm, hdue⟩ := hmem s hs
      exact ⟨hb, m, hsub.subset hm, hdue⟩
    · -- the slot that is run for becomes the bound of the rest
      obtain ⟨hpair, hmem⟩ := ih (r.step store i).store hat hrest
      rw [hslot, List.singleton_append]
      refine ⟨.cons (fun s hs => (hmem s hs).1) hpair, fun s hs => ?_⟩
      rcases List.mem_cons.1 hs with rfl | hs
      · exact ⟨hnew, after c i, hsub.subset List.mem_cons_self, hat.le⟩
      · obtain ⟨hb, m, hm, hdue⟩ := hmem s hs
        exact ⟨hnew.trans hb, m, hsub.subset hm, hdue⟩

end

end Runner

/-! ## all the lives -/

section
variable {s : Schedule} (z : ZoneClock) (name : String)

/-- the slots of all the lives increase, and come after anything that the clock showed before -/
theorem Lives.slots_pairwise (hs : s.cadence.Accepted) {c : Moment} {lives : List Life}
    (hc : (c :: lives.flatMap Life.readings).Pairwise (· ≤ ·)) :
    (lives.flatMap (Life.slots (.freshIn z name s))).Pairwise (·.due < ·.due) ∧
      ∀ slot ∈ lives.flatMap (Life.slots (.freshIn z name s)), c.nanos < slot.due := by
  induction lives generalizing c with
  | nil => exact ⟨.nil, List.forall_mem_nil _⟩
  | cons l lives ih =>
    rw [List.flatMap_cons, ← List.cons_append, List.pairwise_append] at hc
    obtain ⟨hlife, hrest, horder⟩ := hc
    obtain ⟨hpair, hmem⟩ := (Runner.At.freshIn hs z name).replay l.store hlife
    -- whatever the clock showed in this life lies behind the lives to come
    have hlater (m : Moment) (hm : m ∈ c :: l.readings) := ih (.cons (horder m hm) hrest)
    rw [List.flatMap_cons, List.pairwise_append]
    refine ⟨⟨hpair, (hlater c List.mem_cons_self).1, fun a ha b hb => ?_⟩, fun slot hslot => ?_⟩
    · obtain ⟨-, m, hm, hdue⟩ := hmem a ha
      exact hdue.trans_lt ((hlater m hm).2 b hb)
    · rcases List.mem_append.1 hslot with h | h
      · exact (hmem slot h).1
      · exact (hlater c List.mem_cons_self).2 slot h

/-- a life that does not run at once waits for a slot that lies ahead, and no further than the next
one -/
theorem Runner.begin_ahead (hs : s.cadence.Accepted) (hr : s.runOnStart = false)
    (store : Option StateStore) (saved : Except StateFault (Option SavedState)) {now q : Moment}
    (hq : s.cadence.next z now = .ok q) :
    ((freshIn z name s).begin store now saved).runner.WaitsAhead now q := by
  obtain ⟨slot, hslot⟩ := firstSlot_isOk (r := freshIn z name s) hq saved
  obtain ⟨hahead, q', hq', hlate⟩ := firstSlot_eq_ok (r := freshIn z name s) hs hslot
  obtain rfl : q = q' := Except.ok.inj (hq.symm.trans hq')
  have hbegin : ((freshIn z name s).begin store now saved).runner =
      ((freshIn z name s).await store slot .scheduled none).runner := by
    unfold begin
    have hpair : (freshIn z name s).firstSlot saved now
        = (.ok slot, ((freshIn z name s).firstSlot saved now).2) := Prod.ext hslot rfl
    have hstart : (freshIn z name s).schedule.runOnStart = false := hr
    rw [hpair]
    simp only [hstart]
    rfl
  rw [hbegin, await_runner]
  exact ⟨rfl, rfl, hahead, hlate⟩

end

/-- while the clock does not go back, the slots that the lives of a module run for increase, and the
first slot of a life that does not run at once lies ahead and no further than the next one, whatever
the state files held and wherever the lives ended -/
theorem slots_increase {config : ScheduleConfig} {defaults : ScheduleDefaults} {s : Normalized}
    (h : config.normalize defaults = .ok s) (z : ZoneClock) (name : String) (lives : List Life)
    (hclock : (lives.flatMap Life.readings).Pairwise (· ≤ ·)) :
    (lives.flatMap (Life.slots (.freshIn z name s.schedule))).Pairwise (·.due < ·.due) ∧
      (s.schedule.runOnStart = false → ∀ store saved now q,
        s.schedule.cadence.next z now = .ok q →
          ((Runner.freshIn z name s.schedule).begin store now saved).runner.WaitsAhead now q) := by
  have hs := ScheduleConfig.accepted_of_normalize h
  have hc : (Moment.first :: lives.flatMap Life.readings).Pairwise (· ≤ ·) :=
    .cons (fun m _ => m.first_le_moment) hclock
  exact ⟨(Lives.slots_pairwise z name hs hc).1,
    fun hr store saved now q hq => Runner.begin_ahead z name hs hr store saved hq⟩

end

open ZoneTable

/-- a run that was cut off is not repeated, though the state file still holds its slot -/
theorem slots_increase_hourly :
    ∃ (config : ScheduleConfig) (defaults : ScheduleDefaults) (s : Normalized) (lives : List Life),
      config.normalize defaults = .ok s ∧ (lives.flatMap Life.readings).Pairwise (· ≤ ·) ∧
        lives.flatMap (Life.slots (.freshIn NamedZone.utc.clock "hourly" s.schedule)) =
          [Stamp.ofMoment ⟨1704070800000000000, by decide, by decide⟩,
            Stamp.ofMoment ⟨1704074410000000000, by decide, by decide⟩] ∧
        (lives.flatMap (Life.slots (.freshIn NamedZone.utc.clock "hourly" s.schedule))).Pairwise
          (·.due < ·.due) := by
  have h : ScheduleConfig.normalize
      { interval := some (.seconds 3600), timezone := some "UTC" } ⟨86400, .host⟩
      = .ok ⟨⟨.plainInterval 3600, false, .named .utc⟩, []⟩ := by decide +kernel
  let killed : Life :=
    { store := none
      inputs := [.begin ⟨1704067200000000000, by decide, by decide⟩ (.ok none),
        .look ⟨1704070800000000000, by decide, by decide⟩] }
  let resumed : Life :=
    { store := none
      inputs := [.begin ⟨1704070810000000000, by decide, by decide⟩
          (.ok (some ⟨Schedule.fingerprint ⟨.plainInterval 3600, false, .named .utc⟩,
            Stamp.ofMoment ⟨1704070800000000000, by decide, by decide⟩, none⟩)),
        .look ⟨1704074410000000000, by decide, by decide⟩] }
  have hclock : ([killed, resumed].flatMap Life.readings).Pairwise (· ≤ ·) := by decide +kernel
  have hinc := slots_increase h NamedZone.utc.clock "hourly" [killed, resumed] hclock
  exact ⟨_, _, _, _, h, hclock, by decide +kernel, hinc.1⟩

end Rota
