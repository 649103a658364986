import Rota.Metrics.Basic
import Rota.Runner.Basic

/-!
# What a loop adds to the metrics

* `Metrics.observe`      one event of a loop;
* `Metrics.observeAll`   all of them.
-/

namespace Rota.Metrics

/-- what an event of a module's loop adds -/
def observe (name : String) (m : Metrics) : RunnerEvent → Metrics
  | .measured ms success => m.countRun name ms success
  | .scheduled next _ => m.setNextRun name next
  | _ => m

def observeAll (name : String) (m : Metrics) (events : List RunnerEvent) : Metrics :=
  events.foldl (observe name) m

/-! ## small laws -/

end Rota.Metrics
