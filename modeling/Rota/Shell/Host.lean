import Rota.Module.Command
import Rota.Shell.Launch

/-!
# A host with a shell

* `execution`       what becomes of the program of a command module that is launched;
* `lateExecution`   the same in simulated time, where a program that can be started does not end in time;
* `pausedHost`      the host of simulated time.
-/

namespace Rota.Shell

def executionOf (m : CommandModule) (l : Launched) : Execution :=
  match l.micros with
  | none => .late
  | some t =>
    if m.timeoutMs * 1000 ≤ t then .late
    else .ended ⟨l.status.map Int.ofNat, .ofPieces [l.stdout.bytes], .ofPieces [l.stderr.bytes]⟩

def execution (m : CommandModule) : Execution :=
  match Launch.startFault? m.program m.args with
  | some reason => .unstarted reason
  | none => executionOf m (launch (m.timeoutMs * 1000) m.program m.args)

def lateExecution (m : CommandModule) : Execution :=
  match Launch.startFault? m.program m.args with
  | some reason => .unstarted reason
  | none => .late

def pausedHost : Host := fun m _ => (lateExecution m, 0)

end Rota.Shell
