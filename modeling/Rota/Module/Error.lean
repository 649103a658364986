import Rota.Text.Numeral

/-!
# Failing runs

* `RunError`           the ways in which the run of a module fails;
* `RunError.message`   the wording.
-/

namespace Rota

open Text

inductive RunError where
  | spawn (program reason : String)
  | timeout (seconds : Nat)
  /-- a program ended with a status other than zero; without a status a signal ended it -/
  | exitStatus (code : Option Int) (stderr : String)
  | channelClosed
  | failed (reason : String)
deriving DecidableEq, Repr

def statusText : Option Int → String
  | some code => "Some(" ++ String.ofList (Numeral.integer code) ++ ")"
  | none => "None"

def RunError.message : RunError → String
  | .spawn program reason => "Failed to start '" ++ program ++ "': " ++ reason
  | .timeout seconds => "Run timed out after " ++ toString seconds ++ " seconds"
  | .exitStatus code stderr => "Command exited with status " ++ statusText code ++ ": " ++ stderr
  | .channelClosed => "Report channel closed"
  | .failed reason => "Module run failed: " ++ reason

end Rota
