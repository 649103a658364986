import Rota.Module.Behaviour
import Rota.Module.Output
import Rota.Settings.Basic

/-!
# Command modules

A command module runs a program and reports its status and its output.

* `CommandModule`             the program, its arguments, and the time it may take;
* `Finished`, `Child`         a program that ended, before and after its outputs are read;
* `CommandModule.report`      the report on a program that ended;
* `CommandModule.result`      whether the run succeeded;
* `CommandModule.run`         a whole run;
* `Host`                      what becomes of the programs that are started;
* `CommandModule.behaviour`   what a command module does on a host.
-/

namespace Rota

structure CommandModule where
  name : String
  program : String
  args : List String
  timeoutMs : Nat
deriving DecidableEq, Repr

structure Child where
  status : Option Int
  stdout : List UInt8
  stderr : List UInt8
deriving DecidableEq, Repr

structure Finished where
  status : Option Int
  stdout : Output
  stderr : Output
deriving DecidableEq, Repr

def Finished.child (f : Finished) : Except String Child := do
  let stdout ← f.stdout.capture
  let stderr ← f.stderr.capture
  return ⟨f.status, stdout, stderr⟩

/-- what becomes of a program that is started -/
inductive Execution where
  | unstarted (reason : String)
  | ended (finished : Finished)
  | late

namespace CommandModule

def ofSettings (name program : String) (args : List String) (timeoutSeconds : Nat) : CommandModule :=
  ⟨name, program, args, timeoutSeconds * 1000⟩

def report (m : CommandModule) (c : Child) : Report where
  module := m.name
  kind := "command"
  payload :=
    .obj
      [("program", .str m.program), ("args", .arr (m.args.map .str)),
       ("exit_code", .ofOption .int c.status), ("stdout", .str (captured c.stdout)),
       ("stderr", .str (captured c.stderr))]

def result (c : Child) : Except RunError Unit :=
  if c.status = some 0 then .ok () else .error (.exitStatus c.status (captured c.stderr))

def timeout (m : CommandModule) : RunError := .timeout (m.timeoutMs / 1000)

/-- a whole run: its result, and the report if it could be sent.  A read that fails is told like a
program that cannot be started. -/
def run (m : CommandModule) (e : Execution) (isOpen : Bool) :
    Except RunError Unit × Option Report :=
  match e with
  | .unstarted reason => (.error (.spawn m.program reason), none)
  | .late => (.error m.timeout, none)
  | .ended f =>
    match f.child with
    | .error reason => (.error (.spawn m.program reason), none)
    | .ok c => if isOpen then (result c, some (m.report c)) else (.error .channelClosed, none)

/-- how many milliseconds a run takes whose program was done after `ms` -/
def runMs (m : CommandModule) (ms : Nat) : Execution → Nat
  | .late => m.timeoutMs
  | _ => ms

end CommandModule

/-- what becomes of the program of every run of a module, and after how many milliseconds.  It is not
for the agent to say what a program does. -/
abbrev Host := CommandModule → Nat → Execution × Nat

def CommandModule.behaviour (m : CommandModule) (host : Host) : Behaviour := fun n =>
  let (execution, ms) := host m n
  let (result, report?) := m.run execution true
  { ms := m.runMs ms execution, report?, ending := .returned result }

def ModuleSettings.behaviour (m : ModuleSettings) (host : Host) : Behaviour :=
  match m.kind with
  | .heartbeat => .heartbeat m.name
  | .command program args timeout => (CommandModule.ofSettings m.name program args timeout).behaviour host

end Rota
