import Rota.Module.Error
import Rota.Report.Basic

/-!
# What modules do

* `RunEnd`      how a run ends;
* `RunPlan`     what a run does: it works for a time, sends a report if it has one, and ends;
* `Behaviour`   the plan of every run of a module, the runs being counted from zero.

`Behaviour.heartbeat`, `Behaviour.reporter` and `Behaviour.recorder` are the modules that need
nothing but themselves.
-/

namespace Rota

inductive RunEnd where
  | returned (result : Except RunError Unit)
  | breakdown

structure RunPlan where
  ms : Nat := 0
  report? : Option Report := none
  ending : RunEnd := .returned (.ok ())

/-- how a run ends whose report was sent, or was not because the channel is closed -/
def RunPlan.endingAfter (p : RunPlan) (sent : Bool) : RunEnd :=
  if sent then p.ending else .returned (.error .channelClosed)

abbrev Behaviour := Nat → RunPlan

namespace Behaviour

def beat (name : String) (sequence : Nat) : Report :=
  ⟨name, "heartbeat", .obj [("status", .str "alive"), ("sequence", .ofNat sequence)]⟩

def heartbeat (name : String) : Behaviour := fun n => { report? := some (beat name (n + 1)) }

def reporter (name : String) : Behaviour := fun _ =>
  { report? := some ⟨name, "custom", .arr [.str name]⟩ }

/-- works for the listed times and ends as listed; without an entry a run takes no time and
succeeds -/
def recorder (times : List Nat) (endings : List RunEnd) : Behaviour := fun n =>
  { ms := times.getD n 0, ending := endings.getD n (.returned (.ok ())) }

end Behaviour

end Rota
