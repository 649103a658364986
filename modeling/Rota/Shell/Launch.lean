import Rota.Shell.Evaluation

/-!
# Launching programs

A program is launched with no input, and with one channel for its output and one for its messages.

* `startFault?`   why a program cannot be started;
* `Launched`      what it leaves behind;
* `launch`        starts a program and waits for its end.

It is done when every process that can still write to one of its channels has ended.
-/

namespace Rota.Shell

open Text Program

structure Launched where
  status : Option Nat
  stdout : Raw
  stderr : Raw
  micros : Option Nat

namespace Launch

def startFault? (program : String) (args : List String) : Option String :=
  if (program :: args).any fun s => s.toList.contains '\x00' then
    some "nul byte found in provided data"
  else
    match ({} : Disk).program Disk.standardSearch (raw program) with
    | .ok _ => none
    | .error f => some s!"{f.text} (os error {f.number})"

def inherited : List (Raw × Variable) :=
  [("PATH", Disk.standardSearch), ("HOME", raw "/root"), ("PWD", raw "/srv/agent")].map fun v =>
    (raw v.1, { value := some v.2, isExported := true })

def initial (deadline : Nat) : State where
  vars := inherited
  channels := [(0, .null), (1, .writes 0), (2, .writes 1)]
  world := { sinks := #[{}, {}], deadline := deadline }

/-- tasks may be inside each other as deep as this -/
def depth : Nat := 100000

def ending (program : Raw) (args : List Raw) : Act Ending :=
  match ({} : Disk).program Disk.standardSearch program with
  | .error _ => return .exits 127
  | .ok .sh => do
    Act.world fun w => w.pass startMicros
    finish (runTask depth) (runTask depth (.shell program args))
  | .ok t => finish (runTask depth) (runTool t args)

/-- until when something can still be written to the channels of a program -/
def openUntil (w : World) : Nat := max (w.sink 0).heldUntil (w.sink 1).heldUntil

end Launch

/-- starts a program and waits for its end, but not longer than until a deadline in microseconds -/
def launch (deadline : Nat) (program : String) (args : List String) : Launched :=
  let make (e : Ending) (s : State) : Launched :=
    let time := max s.world.clock (Launch.openUntil s.world)
    { status := match e with
        | .exits n => some n
        | _ => none
      stdout := (s.world.sink 0).text
      stderr := (s.world.sink 1).text
      micros := if e = .endless ∨ never ≤ time then none else some time }
  match Launch.ending (raw program) (args.map raw) (Launch.initial deadline) with
  | .ok e s => make e s
  | .error _ s => make .endless s

end Rota.Shell
