import Rota.Runner.Basic
import Rota.Simulation.Clock

/-!
# Tasks

A task is the loop of a module together with what the module does, in simulated time.

* `Task`          the loop and the behaviour of the module;
* `Task.turn`     what an awake task does next: one step of its loop;
* `Task.answer`   the run of a task ends because its report was sent, or could not be sent;
* `Next`          whether the task goes on, sleeps, has a report to send, or is done.
-/

namespace Rota

inductive Next where
  | again
  | sleep (ms : Nat)
  | send (report : Report)
  | over

variable [ZoneDatabase]

structure Task where
  runner : Runner
  behaviour : Behaviour
  /-- what the state file of the module held at the start -/
  saved : Except StateFault (Option SavedState) := .ok none
  runs : Nat := 0
  since : Nat := 0
  isSending : Bool := false

structure TaskTurn where
  task : Task
  store : Option StateStore
  events : List RunnerEvent := []
  next : Next

namespace Task

def fresh (name : String) (schedule : Schedule) (behaviour : Behaviour)
    (store : Option StateStore) : Task where
  runner := .fresh name schedule
  behaviour := behaviour
  saved := match store with
    | some s => s.load name
    | none => .ok none

def after (t : Task) (turn : Turn) (next : Next) : TaskTurn :=
  ⟨{ t with runner := turn.runner }, turn.store, turn.events, next⟩

def plan (t : Task) : RunPlan := t.behaviour (t.runs - 1)

def startRun (t : Task) (clock : SimClock) : Task × Next :=
  let ms := (t.behaviour t.runs).ms
  ({ t with runs := t.runs + 1, since := clock.elapsed }, if ms = 0 then .again else .sleep ms)

def endRun (t : Task) (clock : SimClock) (store : Option StateStore) (ending : RunEnd) :
    TaskTurn :=
  { t with isSending := false }.after
    (t.runner.finish store clock.now (clock.elapsed - t.since) ending) .again

/-- the work is done, and the run sends its report, or ends -/
def goOn (t : Task) (clock : SimClock) (store : Option StateStore) : TaskTurn :=
  match t.plan.report? with
  | some r => ⟨{ t with isSending := true }, store, [], .send r⟩
  | none => t.endRun clock store t.plan.ending

/-- what an awake task does next; between looks at the clock it sleeps no longer than `wake` -/
def turn (t : Task) (wake : Nat) (clock : SimClock) (store : Option StateStore) : TaskTurn :=
  match t.runner.phase with
  | .fresh => t.after (t.runner.begin store clock.now t.saved) .again
  | .waiting =>
    let turn := t.runner.look store clock.now
    let looked := { t with runner := turn.runner }
    match turn.runner.phase with
    | .running _ =>
      let (task, next) := looked.startRun clock
      ⟨task, turn.store, turn.events, next⟩
    | .waiting => ⟨looked, turn.store, turn.events, .sleep (turn.runner.pauseMs clock.now wake)⟩
    | _ => ⟨looked, turn.store, turn.events, .over⟩
  | .running _ => t.goOn clock store
  | .stopped => ⟨t, store, [], .over⟩
  | .brokenDown => ⟨t, store, [], .over⟩

def answer (t : Task) (clock : SimClock) (store : Option StateStore) (sent : Bool) : TaskTurn :=
  t.endRun clock store (t.plan.endingAfter sent)

end Task

end Rota
