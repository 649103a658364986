import Rota.Module.Command
import Rota.Report.Channel
import Rota.Runner.Notice
import Rota.Schedule.Normalize
import Rota.Status.Registry

/-!
# Putting an agent together

Modules are added one after the other.  A module whose schedule cannot be used, or whose name is
taken, is rejected and left out; the others are not touched by that.

* `Assembly`                 the modules that were accepted and those that were rejected;
* `Assembly.add`             adds a module with a schedule;
* `Assembly.addConfigured`   adds a module of the settings, if it is enabled;
* `Assembly.ofSettings`      all modules of the settings.
-/

namespace Rota

variable [ZoneDatabase]

structure Accepted where
  name : String
  schedule : Schedule
  behaviour : Host → Behaviour

/-- a module that will not run, and why -/
structure Rejected where
  name : String
  error : ScheduleError
deriving DecidableEq

/-- why there is no agent -/
inductive AssemblyFault where
  | invalid (error : ScheduleError)
  /-- the report channel is to have more places than a channel can have -/
  | panic
deriving DecidableEq

structure Assembly where
  zone : Zone
  accepted : List Accepted := []
  rejected : List Rejected := []
  notices : List Notice := []

namespace Assembly

/-- an agent without modules; its zone has to be known, and then its report channel is opened -/
def ofAgent (a : AgentSettings) : Except AssemblyFault Assembly :=
  match Zone.parse a.timezone with
  | .error e => .error (.invalid e)
  | .ok zone =>
    match Channel.open? a.reportCapacity with
    | some _ => .ok { zone }
    | none => .error .panic

def names (a : Assembly) : List String := a.accepted.map (·.name)

def scheduleFor (a : Assembly) (name : String) (config : ScheduleConfig) (defaultSeconds : Nat) :
    Except ScheduleError Normalized :=
  if name ∈ a.names then .error (.invalidValue (.alreadyScheduled name))
  else config.normalize ⟨defaultSeconds, a.zone⟩

def reject (a : Assembly) (name : String) (error : ScheduleError) (notice : Notice) : Assembly :=
  { a with rejected := a.rejected ++ [⟨name, error⟩], notices := a.notices ++ [notice] }

/-- adds a module; gives the error if it was rejected -/
def add (a : Assembly) (name : String) (behaviour : Host → Behaviour) (config : ScheduleConfig)
    (defaultSeconds : Nat) : Assembly × Except ScheduleError Unit :=
  match a.scheduleFor name config defaultSeconds with
  | .error e => (a.reject name e .scheduleRejected, .error e)
  | .ok n =>
    ({ a with
       accepted := a.accepted ++ [⟨name, n.schedule, behaviour⟩]
       notices := a.notices ++ n.adjustments.map fun x => .adjusted x.message }, .ok ())

def addConfigured (a : Assembly) (m : ModuleSettings) : Assembly × Except ScheduleError Unit :=
  if m.enabled then
    match m.defaultInterval with
    | .seconds n => a.add m.name m.behaviour m.schedule n
    | .months _ =>
      let e := ScheduleError.invalidValue .defaultInMonths
      (a.reject m.name e .moduleRejected, .error e)
  else (a, .ok ())

/-- adds the modules of the settings, in order -/
def addAll (a : Assembly) (ms : List ModuleSettings) : Assembly :=
  ms.foldl (fun a m => (a.addConfigured m).1) a

/-- the agent of the settings; no module stands in its way -/
def ofSettings (s : Settings) : Except AssemblyFault Assembly :=
  match ofAgent s.agent with
  | .ok a => .ok (a.addAll s.modules)
  | .error e => .error e

def registry (a : Assembly) : Registry :=
  a.accepted.foldl (fun r m => r.register m.name (.fresh m.name m.schedule)) {}

end Assembly

end Rota
