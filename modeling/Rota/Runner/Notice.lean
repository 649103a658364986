/-!
# Notices

What the agent tells the person who reads its log, warnings and errors only.

* `Notice`        what can be told;
* `Notice.text`   the wording, with the level in front.
-/

namespace Rota

inductive Notice where
  /-- the next slot was due already when the run ended -/
  | overran
  | unreadableState
  | unsavedState
  | unpublishedReport
  | adjusted (message : String)
  | runFailed
  | scheduleRejected
  | moduleRejected
  | taskFailed
  | forwarderFailed
deriving DecidableEq, Repr

namespace Notice

def isError : Notice → Bool
  | .runFailed | .scheduleRejected | .moduleRejected | .taskFailed | .forwarderFailed => true
  | _ => false

def message : Notice → String
  | .overran => "Module run overran its next slot, running again immediately"
  | .unreadableState => "Ignoring unreadable module state"
  | .unsavedState => "Failed to save module state"
  | .unpublishedReport => "Failed to publish report"
  | .adjusted message => message
  | .runFailed => "Module run failed"
  | .scheduleRejected => "Module schedule rejected, module will not start"
  | .moduleRejected => "Module rejected"
  | .taskFailed => "Module task failed"
  | .forwarderFailed => "Report forwarder failed"

def text (n : Notice) : String := (if n.isError then "ERROR " else "WARN ") ++ n.message

end Notice

end Rota
