import Rota.Module.Behaviour
import Rota.Runner.Notice
import Rota.State.Store
import Rota.Status.Basic

/-!
# The loop of a module

A module is run by a loop: wait for the slot, run, find the next slot, and so on until it is told to
stop.  The loop is a state here, and each thing that can happen to it is a step.  A step says what
the clock reads; how time passes is not its business.

* `Runner`             the loop of one module;
* `Runner.fresh`       before it starts, by the clock of its zone (`Runner.freshIn`: by any clock);
* `Runner.begin`       the first slot: at once, or the saved one, or the next one of the schedule;
* `Runner.finish`      the end of a run;
* `Runner.stop`        the order to stop;
* `Loop`               a loop in the midst of a look at the clock, step by step: it checks whether it was
                       told to stop, reads the clock, and reads it once more when a run starts;
* `Runner.look`        a look from beginning to end that nothing comes between;
* `Runner.step`        begin, look, finish and stop as one function on `RunnerInput`;
* `Runner.replay`      a whole history.

A run under way is never cut short.  Steps that do not fit the phase change nothing.
-/

namespace Rota

/-- where a loop stands -/
inductive Phase where
  | fresh
  | waiting
  | running (started : Moment)
  | stopped
  | brokenDown
deriving DecidableEq

inductive RunnerEvent where
  | scheduled (next : Stamp) (lastRun : Option Moment)
  | entered (state : RunnerState)
  | called (slot : Stamp) (started : Moment) (trigger : Trigger)
  | returned (result : Except RunError Unit)
  | measured (ms : Nat) (success : Bool)
  | dismissed
  | notice (n : Notice)

variable [ZoneDatabase]

/-- the loop of a module -/
structure Runner where
  schedule : Schedule
  clock : ZoneClock := schedule.zone.clock
  phase : Phase := .fresh
  /-- the slot that the loop waits for or runs for -/
  slot : Stamp := Moment.last
  trigger : Trigger := .scheduled
  stats : RunStatistics := {}
  status : ModuleStatus
  stopping : Bool := false

structure Turn where
  runner : Runner
  store : Option StateStore
  events : List RunnerEvent := []

namespace Runner

def freshIn (z : ZoneClock) (name : String) (schedule : Schedule) : Runner where
  schedule := schedule
  clock := z
  status := .fresh name schedule

def fresh (name : String) (schedule : Schedule) : Runner :=
  freshIn schedule.zone.clock name schedule

def name (r : Runner) : String := r.status.module

def breakDown (r : Runner) : Runner := { r with phase := .brokenDown }

def enter (r : Runner) (state : RunnerState) : Runner :=
  { r with status := { r.status with state := state } }

def await (r : Runner) (store : Option StateStore) (slot : Stamp) (trigger : Trigger)
    (lastRun : Option Moment) : Turn :=
  let r :=
    { r with
      phase := .waiting
      slot := slot
      trigger := trigger
      status := { r.status with nextRun := some slot } }
  match store with
  | none => ⟨r, none, [.scheduled slot lastRun]⟩
  | some s =>
    match s.save r.name ⟨r.schedule.fingerprint, slot, lastRun.map .ofMoment⟩ with
    | (s, .ok ()) => ⟨r, some s, [.scheduled slot lastRun]⟩
    | (s, .error _) => ⟨r, some s, [.scheduled slot lastRun, .notice .unsavedState]⟩

/-- the first slot of a loop that does not run at the start, and the notice that goes with it -/
def firstSlot (r : Runner) (saved : Except StateFault (Option SavedState)) (now : Moment) :
    Except SlotFault Stamp × List RunnerEvent :=
  let next : Except SlotFault Stamp := (r.schedule.cadence.next r.clock now).map .ofMoment
  match saved with
  | .error _ => (next, [.notice .unreadableState])
  | .ok saved =>
    match r.schedule.restoreIn? r.clock saved now with
    | .ok (some slot) => (.ok slot, [])
    | .ok none => (next, [])
    | .error e => (.error e, [])

def begin (r : Runner) (store : Option StateStore) (now : Moment)
    (saved : Except StateFault (Option SavedState)) : Turn :=
  match r.phase with
  | .fresh =>
    if r.schedule.runOnStart then r.await store now .startup none
    else
      match r.firstSlot saved now with
      | (.ok slot, events) =>
        let t := r.await store slot .scheduled none
        { t with events := events ++ t.events }
      | (.error _, events) => ⟨r.breakDown, store, events⟩
  | _ => ⟨r, store, []⟩

def leave (r : Runner) (store : Option StateStore) : Turn :=
  ⟨{ r.enter .stopped with phase := .stopped }, store, [.dismissed, .entered .stopped]⟩

def call (r : Runner) (store : Option StateStore) (now : Moment) : Turn :=
  ⟨{ r.enter .running with phase := .running now }, store,
    [.entered .running, .called r.slot now r.trigger]⟩

def count (stats : RunStatistics) (started finished : Moment) (ms : Nat)
    (result : Except RunError Unit) : RunStatistics where
  runs := stats.runs + 1
  failures := match result with
    | .ok () => stats.failures
    | .error _ => stats.failures + 1
  lastStarted := some started
  lastFinished := some finished
  lastDurationMs := some ms
  lastError := match result with
    | .ok () => none
    | .error e => some e.message

def succeeded : Except RunError Unit → Bool
  | .ok () => true
  | .error _ => false

def resultEvents (ms : Nat) (result : Except RunError Unit) : List RunnerEvent :=
  [.returned result] ++ (if succeeded result then [] else [.notice .runFailed])
    ++ [.measured ms (succeeded result)]

/-- the end of a run: it is counted, and the loop waits for the next slot -/
def finish (r : Runner) (store : Option StateStore) (now : Moment) (ms : Nat) (ending : RunEnd) :
    Turn :=
  match r.phase, ending with
  | .running _, .breakdown => ⟨r.breakDown, store, []⟩
  | .running started, .returned result =>
    let stats := count r.stats started now ms result
    let events := resultEvents ms result
    match r.schedule.cadence.nextAfter r.clock ⟨r.slot.moment, started, r.trigger⟩ now with
    | .error _ => ⟨{ r.breakDown with stats := stats }, store, events⟩
    | .ok next =>
      let idle := { r with stats := stats, status := { r.status with state := .idle, stats := stats } }
      let t := idle.await store next .scheduled (some started)
      let late := if next ≤ now then [RunnerEvent.notice .overran] else []
      { t with events := events ++ late ++ [.entered .idle] ++ t.events }
  | _, _ => ⟨r, store, []⟩

def stop (r : Runner) : Runner := { r with stopping := true }

end Runner

/-! ## a look at the clock -/

/-- how far a loop has come in a look at the clock -/
inductive Stage where
  | outside
  /-- it was not told to stop when it checked -/
  | unstopped
  /-- and its slot was due when it read the clock -/
  | due
deriving DecidableEq

structure Loop where
  runner : Runner
  stage : Stage := .outside

structure LoopTurn where
  loop : Loop
  store : Option StateStore
  events : List RunnerEvent := []

/-- what happens to a loop, step by step -/
inductive LoopInput where
  | begin (now : Moment) (saved : Except StateFault (Option SavedState))
  | check
  | read (now : Moment)
  | start (now : Moment)
  | finish (now : Moment) (ms : Nat) (ending : RunEnd)
  | stop

namespace Loop

def freshIn (z : ZoneClock) (name : String) (schedule : Schedule) : Loop :=
  { runner := .freshIn z name schedule }

def ofTurn (t : Turn) (stage : Stage) : LoopTurn := ⟨⟨t.runner, stage⟩, t.store, t.events⟩

/-- the beginning of a look: the loop is left if it was told to stop -/
def check (l : Loop) (store : Option StateStore) : LoopTurn :=
  match l.runner.phase, l.stage with
  | .waiting, .outside =>
    if l.runner.stopping then ofTurn (l.runner.leave store) .outside
    else ⟨{ l with stage := .unstopped }, store, []⟩
  | _, _ => ⟨l, store, []⟩

/-- the clock is read; when the slot is not due yet, the look is over -/
def read (l : Loop) (store : Option StateStore) (now : Moment) : LoopTurn :=
  match l.stage with
  | .unstopped =>
    ⟨{ l with stage := if l.runner.slot.isAfter now then .outside else .due }, store, []⟩
  | _ => ⟨l, store, []⟩

/-- the module runs, whatever the clock reads now, and whether or not there is an order to stop -/
def start (l : Loop) (store : Option StateStore) (now : Moment) : LoopTurn :=
  match l.stage with
  | .due => ofTurn (l.runner.call store now) .outside
  | _ => ⟨l, store, []⟩

def step (l : Loop) (store : Option StateStore) : LoopInput → LoopTurn
  | .begin now saved => ofTurn (l.runner.begin store now saved) l.stage
  | .check => l.check store
  | .read now => l.read store now
  | .start now => l.start store now
  | .finish now ms ending => ofTurn (l.runner.finish store now ms ending) l.stage
  | .stop => ⟨{ l with runner := l.runner.stop }, store, []⟩

def replay (l : Loop) (store : Option StateStore) : List LoopInput → LoopTurn
  | [] => ⟨l, store, []⟩
  | i :: inputs =>
    let t := l.step store i
    let rest := t.loop.replay t.store inputs
    { rest with events := t.events ++ rest.events }

end Loop

/-- what happens to a loop from outside -/
inductive RunnerInput where
  | begin (now : Moment) (saved : Except StateFault (Option SavedState))
  /-- it looks at the clock, which reads `now` all the while -/
  | look (now : Moment)
  | finish (now : Moment) (ms : Nat) (ending : RunEnd)
  | stop

namespace Runner

/-- a look at the clock that nothing comes between: the loop ends if it was told to, and the module
runs if its slot is due -/
def look (r : Runner) (store : Option StateStore) (now : Moment) : Turn :=
  let t := Loop.replay ⟨r, .outside⟩ store [.check, .read now, .start now]
  ⟨t.loop.runner, t.store, t.events⟩

def step (r : Runner) (store : Option StateStore) : RunnerInput → Turn
  | .begin now saved => r.begin store now saved
  | .look now => r.look store now
  | .finish now ms ending => r.finish store now ms ending
  | .stop => ⟨r.stop, store, []⟩

def replay (r : Runner) (store : Option StateStore) : List RunnerInput → Turn
  | [] => ⟨r, store, []⟩
  | i :: inputs =>
    let t := r.step store i
    let rest := t.runner.replay t.store inputs
    { rest with events := t.events ++ rest.events }

/-- how long to sleep before the next look, in whole milliseconds rounded up: until the slot, but no
longer than `wake` -/
def pauseMs (r : Runner) (now : Moment) (wake : Nat) : Nat :=
  let left := ((r.slot.since now + (nanosPerMilli - 1)) / nanosPerMilli).toNat
  max 1 (min left wake)

/-! ## small laws -/

theorem look_eq (r : Runner) (store : Option StateStore) (now : Moment) :
    r.look store now =
      if r.phase = .waiting then
        if r.stopping = true then r.leave store
        else if r.slot.isAfter now = true then ⟨r, store, []⟩ else r.call store now
      else ⟨r, store, []⟩ := by
  unfold look
  by_cases hphase : r.phase = .waiting
  · rw [if_pos hphase]
    cases hstop : r.stopping with
    | true => simp [Loop.replay, Loop.step, Loop.check, Loop.read, Loop.start, Loop.ofTurn, hphase, hstop]
    | false =>
      cases hdue : r.slot.isAfter now <;>
        simp [Loop.replay, Loop.step, Loop.check, Loop.read, Loop.start, Loop.ofTurn, hphase, hstop, hdue]
  · rw [if_neg hphase]
    simp [Loop.replay, Loop.step, Loop.check, Loop.read, Loop.start, hphase]

theorem replay_nil (r : Runner) (store : Option StateStore) :
    r.replay store [] = ⟨r, store, []⟩ := rfl

theorem replay_append (r : Runner) (store : Option StateStore) (xs ys : List RunnerInput) :
    r.replay store (xs ++ ys) =
      { (r.replay store xs).runner.replay (r.replay store xs).store ys with
        events := (r.replay store xs).events
          ++ ((r.replay store xs).runner.replay (r.replay store xs).store ys).events } := by
  induction xs generalizing r store with
  | nil => rfl
  | cons i xs ih => simp [replay, ih]

end Runner

end Rota
