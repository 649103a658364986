import Rota.Agent.Assembly
import Rota.Simulation.Session

/-!
# Running an agent

An agent runs all its modules in one session until it is told to stop.

* `Agent.start`       the session of the accepted modules;
* `Session.registry`  the statuses of the modules;
* `Session.summary`   what the modules have done, and how many reports were published;
* `Session.closing`   what the log says once all loops have ended, in order or not.
-/

namespace Rota

variable [ZoneDatabase]

structure Summary where
  modules : List (String × RunStatistics)
  published : Nat

namespace Agent

/-- the longest sleep of the loops: a millisecond at least -/
def wake (a : AgentSettings) : Nat := max 1 a.wakeResolutionMs

def start (host : Host) (settings : AgentSettings) (accepted : List Accepted) (origin : Moment)
    (store : Option StateStore) (publisher : Publisher) : Session where
  clock := { origin := origin }
  wake := wake settings
  tasks := accepted.map fun m => .fresh m.name m.schedule (m.behaviour host) store
  store := store
  channel := .ofCapacity settings.reportCapacity
  publisher := publisher

end Agent

namespace Session

def registry (s : Session) : Registry :=
  s.tasks.foldl (fun r t => r.register t.runner.name t.runner.status) {}

def isStopped (t : Task) : Bool := t.runner.phase = .stopped

/-- what the modules have done; the reports do not count when the forwarder broke down -/
def summary (s : Session) : Summary where
  modules := (s.tasks.filter isStopped).map fun t => (t.runner.name, t.runner.stats)
  published := if s.isBroken then 0 else s.forwarder.published

/-- whether the loop of a task has ended, in order or not -/
def hasEnded (t : Task) : Bool := t.runner.phase = .stopped || t.runner.phase = .brokenDown

/-- what the log says about those that broke down, once all loops have ended: the agent waits for the
last of them, which without an order to stop is when the last one breaks down -/
def closing (s : Session) : List Notice :=
  if s.tasks.all hasEnded then
    (s.tasks.filter fun t => !isStopped t).map (fun _ => Notice.taskFailed)
      ++ (if s.isBroken then [.forwarderFailed] else [])
  else []

def notices (s : Session) : List Notice := s.events.filterMap (·.notice?) ++ s.closing

end Session

end Rota
