import Rota.Proofs.Runner.Lives

/-!
# What one step of a loop can do

A step of a loop does one of nine things, or nothing.  Here they are told apart once, with the guard
of each, the loop and the state directory that it leaves, and what it does that is seen.  Notices are
for the reader of a log and left out: what counts are the deeds.

* `RunnerEvent.isDeed`   whether an event is more than a notice;
* `Run`                  a run that came to its end, and `Runner.completed?` the one an input ends;
* `Runner.awaiting`      the loop that waits for a slot, and `Runner.keep` what it leaves in the state
                         directory;
* `Runner.First`         what a loop waits for first;
* `Runner.Does`          what a step does;
* `Runner.step_does`     every step does that;
* `Runner.Effect`        the same without inputs and their guards.

Later proofs take `Runner.Does` apart and do not open `Runner.step` again.
-/

namespace Rota

def RunnerEvent.isDeed : RunnerEvent → Bool
  | .notice _ => false
  | _ => true

structure Run where
  slot : Stamp
  trigger : Trigger
  started : Moment
  finished : Moment
  ms : Nat
  result : Except RunError Unit

namespace Runner

theorem deeds_resultEvents (ms : Nat) (result : Except RunError Unit) :
    (resultEvents ms result).filter RunnerEvent.isDeed =
      [.returned result, .measured ms (succeeded result)] := by
  cases result <;> rfl

variable [ZoneDatabase]

def completed? (r : Runner) : RunnerInput → Option Run
  | .finish now ms (.returned result) =>
    match r.phase with
    | .running started => some ⟨r.slot, r.trigger, started, now, ms, result⟩
    | _ => none
  | _ => none

def awaiting (r : Runner) (slot : Stamp) (trigger : Trigger) : Runner :=
  { r with
    phase := .waiting
    slot
    trigger
    status := { r.status with nextRun := some slot } }

def toSave (r : Runner) (slot : Stamp) (lastRun : Option Moment) : SavedState :=
  ⟨r.schedule.fingerprint, slot, lastRun.map .ofMoment⟩

def keep (r : Runner) (store : Option StateStore) (slot : Stamp) (lastRun : Option Moment) :
    Option StateStore :=
  store.map fun s => (s.save r.name (r.toSave slot lastRun)).1

def calling (r : Runner) (now : Moment) : Runner :=
  { r.enter .running with phase := .running now }

def leaving (r : Runner) : Runner := { r.enter .stopped with phase := .stopped }

def counting (r : Runner) (stats : RunStatistics) : Runner :=
  { r with stats, status := { r.status with state := .idle, stats } }

def slotAfter (r : Runner) (started now : Moment) : Except SlotFault Moment :=
  r.schedule.cadence.nextAfter r.clock ⟨r.slot.moment, started, r.trigger⟩ now

inductive First (r : Runner) (now : Moment) (saved : Except StateFault (Option SavedState)) :
    Stamp → Trigger → Prop
  | atOnce (h : r.schedule.runOnStart = true) : First r now saved now .startup
  | found (h : r.schedule.runOnStart = false) {slot} (hslot : (r.firstSlot saved now).1 = .ok slot) :
    First r now saved slot .scheduled

/-- the loop takes no notice of an input -/
def Ignores (r : Runner) : RunnerInput → Prop
  | .begin _ _ => r.phase ≠ .fresh
  | .look now => r.phase = .waiting → r.stopping = false ∧ r.slot.isAfter now = true
  | .finish _ _ _ => ∀ m, r.phase ≠ .running m
  | .stop => False

/-- what a step does: the input, then the loop and the state directory that it leaves, its deeds, and
the run that it ends -/
inductive Does (r : Runner) (store : Option StateStore) :
    RunnerInput → Runner → Option StateStore → List RunnerEvent → Option Run → Prop
  | nothing {i} (h : r.Ignores i) : Does r store i r store [] none
  | obey : Does r store .stop r.stop store [] none
  | plan {now saved slot trigger} (hphase : r.phase = .fresh) (hfirst : r.First now saved slot trigger) :
    Does r store (.begin now saved) (r.awaiting slot trigger) (r.keep store slot none)
      [.scheduled slot none] none
  | lose {now saved e} (hphase : r.phase = .fresh) (hrun : r.schedule.runOnStart = false)
      (hslot : (r.firstSlot saved now).1 = .error e) :
    Does r store (.begin now saved) r.breakDown store [] none
  | leave {now} (hphase : r.phase = .waiting) (hstop : r.stopping = true) :
    Does r store (.look now) r.leaving store [.dismissed, .entered .stopped] none
  | call {now} (hphase : r.phase = .waiting) (hstop : r.stopping = false)
      (hdue : r.slot.isAfter now = false) :
    Does r store (.look now) (r.calling now) store [.entered .running, .called r.slot now r.trigger]
      none
  | collapse {now ms started} (hphase : r.phase = .running started) :
    Does r store (.finish now ms .breakdown) r.breakDown store [] none
  | strand {now ms started result e} (hphase : r.phase = .running started)
      (hnext : r.slotAfter started now = .error e) :
    Does r store (.finish now ms (.returned result))
      { r.breakDown with stats := count r.stats started now ms result } store
      [.returned result, .measured ms (succeeded result)]
      (some ⟨r.slot, r.trigger, started, now, ms, result⟩)
  | goOn {now ms started result next} (hphase : r.phase = .running started)
      (hnext : r.slotAfter started now = .ok next) :
    Does r store (.finish now ms (.returned result))
      ((r.counting (count r.stats started now ms result)).awaiting next .scheduled)
      (r.keep store next (some started))
      [.returned result, .measured ms (succeeded result), .entered .idle,
        .scheduled next (some started)]
      (some ⟨r.slot, r.trigger, started, now, ms, result⟩)

/-! ## a step does that -/

section
variable (r : Runner) (store : Option StateStore)

section
variable (slot : Stamp) (trigger : Trigger) (lastRun : Option Moment)

theorem await_store : (r.await store slot trigger lastRun).store = r.keep store slot lastRun := by
  cases store with
  | none => rfl
  | some s =>
    unfold await
    dsimp only
    split <;> rename_i h <;> exact congrArg (some ·.1) h.symm

theorem deeds_await : (r.await store slot trigger lastRun).events.filter RunnerEvent.isDeed =
    [.scheduled slot lastRun] := by
  unfold await
  cases store with
  | none => rfl
  | some s =>
    dsimp only
    split <;> rfl

end

theorem deeds_firstSlot (saved : Except StateFault (Option SavedState)) (now : Moment) :
    (r.firstSlot saved now).2.filter RunnerEvent.isDeed = [] := by
  unfold firstSlot
  cases saved with
  | error => rfl
  | ok saved =>
    dsimp only
    split <;> rfl

theorem begin_does (now : Moment) (saved : Except StateFault (Option SavedState)) :
    r.Does store (.begin now saved) (r.begin store now saved).runner (r.begin store now saved).store
      ((r.begin store now saved).events.filter RunnerEvent.isDeed) none := by
  unfold Runner.begin
  split
  case h_2 hphase => exact .nothing hphase
  case h_1 hphase =>
    split
    case isTrue hrun =>
      rw [await_runner, await_store, deeds_await]
      exact .plan hphase (.atOnce hrun)
    case isFalse hrun =>
      have hrun : r.schedule.runOnStart = false := Bool.eq_false_iff.2 hrun
      have hquiet := deeds_firstSlot r saved now
      split
      case h_1 slot events he =>
        rw [he] at hquiet
        dsimp only at hquiet ⊢
        rw [List.filter_append, hquiet, await_runner, await_store, deeds_await]
        exact .plan hphase (.found hrun (congrArg Prod.fst he))
      case h_2 events he =>
        rw [he] at hquiet
        dsimp only at hquiet ⊢
        rw [hquiet]
        exact .lose hphase hrun (congrArg Prod.fst he)

theorem look_does (now : Moment) :
    r.Does store (.look now) (r.look store now).runner (r.look store now).store
      ((r.look store now).events.filter RunnerEvent.isDeed) none := by
  rw [look_eq]
  split
  case isFalse hphase => exact .nothing fun h => absurd h hphase
  case isTrue hphase =>
    split
    case isTrue hstop => exact .leave hphase hstop
    case isFalse hstop =>
      have hstop : r.stopping = false := Bool.eq_false_iff.2 hstop
      split
      case isTrue hearly => exact .nothing fun _ => ⟨hstop, hearly⟩
      case isFalse hdue => exact .call hphase hstop (Bool.eq_false_iff.2 hdue)

theorem completed?_of_not_running {r : Runner} (h : ∀ m, r.phase ≠ .running m) {now : Moment}
    {ms : Nat} {ending : RunEnd} : r.completed? (.finish now ms ending) = none := by
  unfold completed?
  cases ending with
  | breakdown => rfl
  | returned result =>
    cases hphase : r.phase with
    | running m => exact absurd hphase (h m)
    | _ => rfl

theorem finish_does (now : Moment) (ms : Nat) (ending : RunEnd) :
    r.Does store (.finish now ms ending) (r.finish store now ms ending).runner
      (r.finish store now ms ending).store
      ((r.finish store now ms ending).events.filter RunnerEvent.isDeed)
      (r.completed? (.finish now ms ending)) := by
  by_cases hrun : ∀ m, r.phase ≠ .running m
  · rw [finish_of_not_running store hrun, completed?_of_not_running hrun]
    exact .nothing hrun
  obtain ⟨started, hphase⟩ : ∃ m, r.phase = .running m := by simpa using hrun
  unfold Runner.finish
  rw [hphase]
  cases ending with
  | breakdown => exact .collapse hphase
  | returned result =>
    unfold completed?
    rw [hphase]
    dsimp only
    split
    case h_1 hnext =>
      rw [deeds_resultEvents]
      exact .strand hphase hnext
    case h_2 next hnext =>
      -- a warning that the next slot is overdue is no deed
      have hlate : (if next ≤ now then [RunnerEvent.notice .overran] else []).filter
          RunnerEvent.isDeed = [] := by split <;> rfl
      simp only [List.filter_append, deeds_resultEvents, hlate, await_runner, await_store,
        deeds_await]
      exact .goOn hphase hnext

theorem step_does (i : RunnerInput) :
    r.Does store i (r.step store i).runner (r.step store i).store
      ((r.step store i).events.filter RunnerEvent.isDeed) (r.completed? i) := by
  cases i with
  | begin now saved => exact begin_does r store now saved
  | look now => exact look_does r store now
  | finish now ms ending => exact finish_does r store now ms ending
  | stop => exact .obey

end

/-! ## what is done, whatever the guard -/

/-- what a step does to a loop, but for its guard and its input: the loop and the state directory that it
leaves, its deeds, and the run that it ends -/
inductive Effect (r : Runner) (store : Option StateStore) :
    Runner → Option StateStore → List RunnerEvent → Option Run → Prop
  | nothing : Effect r store r store [] none
  | obey : Effect r store r.stop store [] none
  | plan {slot trigger} (hphase : r.phase = .fresh) :
    Effect r store (r.awaiting slot trigger) (r.keep store slot none) [.scheduled slot none] none
  | lose (hphase : r.phase = .fresh) : Effect r store r.breakDown store [] none
  | leave (hphase : r.phase = .waiting) :
    Effect r store r.leaving store [.dismissed, .entered .stopped] none
  | call {now} (hphase : r.phase = .waiting) :
    Effect r store (r.calling now) store [.entered .running, .called r.slot now r.trigger] none
  | collapse {started} (hphase : r.phase = .running started) :
    Effect r store r.breakDown store [] none
  | strand {now ms started result} (hphase : r.phase = .running started) :
    Effect r store { r.breakDown with stats := count r.stats started now ms result } store
      [.returned result, .measured ms (succeeded result)]
      (some ⟨r.slot, r.trigger, started, now, ms, result⟩)
  | goOn {now ms started result next} (hphase : r.phase = .running started) :
    Effect r store ((r.counting (count r.stats started now ms result)).awaiting next .scheduled)
      (r.keep store next (some started))
      [.returned result, .measured ms (succeeded result), .entered .idle,
        .scheduled next (some started)]
      (some ⟨r.slot, r.trigger, started, now, ms, result⟩)

section
variable {r r' : Runner} {store store' : Option StateStore} {i : RunnerInput}
  {deeds : List RunnerEvent} {done : Option Run}

theorem Does.effect (h : r.Does store i r' store' deeds done) :
    r.Effect store r' store' deeds done := by
  cases h with
  | nothing => exact .nothing
  | obey => exact .obey
  | plan hphase => exact .plan hphase
  | lose hphase => exact .lose hphase
  | leave hphase => exact .leave hphase
  | call hphase => exact .call hphase
  | collapse hphase => exact .collapse hphase
  | strand hphase => exact .strand hphase
  | goOn hphase => exact .goOn hphase

/-! ## what no step changes -/

theorem Effect.schedule (h : r.Effect store r' store' deeds done) : r'.schedule = r.schedule := by
  cases h <;> rfl

theorem Effect.clock (h : r.Effect store r' store' deeds done) : r'.clock = r.clock := by
  cases h <;> rfl

theorem Effect.name (h : r.Effect store r' store' deeds done) : r'.name = r.name := by
  cases h <;> rfl

theorem Effect.stopping (h : r.Effect store r' store' deeds done) (hstop : r.stopping = true) :
    r'.stopping = true := by
  cases h with
  | obey => rfl
  | _ => exact hstop

namespace Does

variable (h : r.Does store i r' store' deeds done)
include h

theorem schedule : r'.schedule = r.schedule := h.effect.schedule

theorem clock : r'.clock = r.clock := h.effect.clock

theorem name : r'.name = r.name := h.effect.name

theorem stopping (hstop : r.stopping = true) : r'.stopping = true := h.effect.stopping hstop

end Does

end

end Runner

/-! ## notices say nothing of what was done -/

namespace RunnerEvent

theorem filter_deeds {p : RunnerEvent → Bool} (hp : ∀ n, p (.notice n) = false)
    (events : List RunnerEvent) : (events.filter isDeed).filter p = events.filter p := by
  rw [List.filter_filter]
  congr 1
  funext e
  cases e with
  | notice n => rw [hp n, Bool.false_and]
  | _ => exact Bool.and_true _

theorem filterMap_filter {α : Type} {p : RunnerEvent → Bool} {f : RunnerEvent → Option α}
    (h : ∀ e, p e = false → f e = none) (events : List RunnerEvent) :
    (events.filter p).filterMap f = events.filterMap f := by
  rw [List.filterMap_filter]
  congr 1
  funext e
  cases hp : p e with
  | false => rw [h e hp]; rfl
  | true => rfl

theorem filterMap_deeds {α : Type} {f : RunnerEvent → Option α} (hf : ∀ n, f (.notice n) = none)
    (events : List RunnerEvent) : (events.filter isDeed).filterMap f = events.filterMap f := by
  apply filterMap_filter
  intro e he
  cases e with
  | notice n => exact hf n
  | _ => exact nomatch he

end RunnerEvent

end Rota
