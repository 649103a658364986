import Rota.Shell.Builtin.Letters
import Rota.Shell.Signal

/-!
# Signals and jobs

* `Builtin.trap`    sets the actions of signals;
* `Builtin.kill`    sends signals;
* `Builtin.wait`    waits for jobs.
-/

namespace Rota.Shell

open Text Program

namespace Builtin

def showTraps : Act Unit := do
  let s ← get
  for n in List.range Signal.count do
    match s.traps.lookup n with
    | some action => Act.print (raw "trap -- " ++ shown action ++ ' ' :: Signal.name n ++ ['\n'])
    | none => pure ()

def trap (args : List Raw) : Act Nat := do
  match ← plain args with
  | [] =>
    showTraps
    return 0
  | r :: rest =>
    let resets := rest = [] || (Signal.ofNumber? r).isSome
    let action : Option Raw := if resets || r = ['-'] then none else some r
    let rec go : List Raw → Act Nat
      | [] => return 0
      | name :: names => do
        match Signal.ofText? 0 name with
        | none =>
          let _ ← Act.emit ((← get).channel? 2) (rawLine [raw "trap: ", name, raw ": bad trap"])
          return 1
        | some n =>
          modify fun s =>
            let others := s.traps.filter (·.1 != n)
            { s with
              traps := match action with
                | some a => (n, a) :: others
                | none => others }
          go names
    go (if resets then r :: rest else rest)

def killUsage : Raw :=
  raw "Usage: kill [-s sigspec | -signum | -sigspec] [pid | job]... or\nkill -l [exitstatus]"

def endJob (j : Job) (signal : Nat) : Act Unit := do
  let now := (← get).world.clock
  match Signal.effect signal with
  | .nothing => return
  | .halts =>
    modify fun s =>
      { s with
        jobs := s.jobs.map fun k =>
          if k.process = j.process then { k with endsAt := never, ending := .endless } else k }
  | .ends =>
    modify fun s =>
      { s with
        jobs := s.jobs.map fun k =>
          if k.process = j.process then { k with endsAt := now, ending := .killed signal } else k
        world :=
          { s.world with sinks := s.world.sinks.map fun k => k.cutProcess j.process now } }

/-- sends a signal to a process; the answer says whether there is one -/
def send (signal : Nat) (r : Raw) : Act Bool := do
  let s ← get
  let job? : Option Job := match r with
    | '%' :: r =>
      if r = [] || r = ['%'] || r = ['+'] then s.jobs.getLast?
      else s.jobs[Numeral.value r - 1]?
    | _ => none
  let process ← match r with
    | '%' :: r =>
      match job? with
      | some j => pure j.process
      | none => Act.fail (raw "No such job: %" ++ r)
    | '-' :: r => do let _ ← Act.number r; pure s.process
    | r => do pure (← Act.number r)
  let process := if process = 0 then s.process else process
  match s.jobs.find? fun j => j.process = process with
  | some j =>
    if s.world.clock < j.endsAt then
      endJob j signal
      return true
    else return false
  | none =>
    if process = s.process || process = s.mainProcess then
      Act.world fun w => { w with signals := w.signals ++ [(process, signal)] }
      return true
    else return false

def listSignals (args : List Raw) : Act Nat := do
  match args with
  | [] =>
    Act.print (raw "0\n")
    for n in (List.range Signal.count).drop 1 do Act.print (Signal.name n ++ ['\n'])
    return 0
  | r :: _ =>
    let n ← Act.number r
    let n := if 128 < n then n - 128 else n
    if 0 < n && n < Signal.count then
      Act.print (Signal.name n ++ ['\n'])
      return 0
    else Act.fail (raw "invalid signal number or exit status: " ++ r)

def kill (args : List Raw) : Act Nat := do
  let rec go (signal : Nat) : List Raw → Act Nat
    | [] => return 0
    | r :: rest => do
      let found ← send signal r
      if !found then Act.warn (raw "No such process\n")
      let status ← go signal rest
      return if found then status else 1
  let signalled (signal : Nat) (rest : List Raw) : Act Nat :=
    if rest = [] then Act.fail killUsage else go signal rest
  match args with
  | [] => Act.fail killUsage
  | ('-' :: r) :: rest =>
    match Signal.ofText? 1 r with
    | some n => signalled n rest
    | none =>
      let (options, rest) ← letters ['l'] ['s'] args
      match options.getLast? with
      | none => signalled 15 rest
      | some ('s', name) =>
        match Signal.ofText? 1 name with
        | some n => signalled n rest
        | none => Act.fail (raw "invalid signal number or name: " ++ name)
      | some _ => listSignals rest
  | args => signalled 15 args

def tellEnding (e : Ending) : Act Unit := do
  match e with
  | .killed n =>
    if !Signal.isSilent n then
      let _ ← Act.emit ((← get).channel? 2) (Signal.text n ++ ['\n'])
  | _ => return

def waitFor (j : Job) : Act Nat := do
  if never ≤ j.endsAt then throw .endless
  Act.world fun w => w.waitFor j.endsAt
  return j.ending.status

def wait (args : List Raw) : Act Nat := do
  match ← plain args with
  | [] =>
    for j in (← get).jobs do
      let _ ← waitFor j
    return 0
  | args =>
    let rec go (status : Nat) : List Raw → Act Nat
      | [] => return status
      | r :: rest => do
        let s ← get
        let job? ← match r with
          | '%' :: n => pure (s.jobs[Numeral.value n - 1]?)
          | r => do
            let n ← Act.number r
            pure (s.jobs.find? fun j => j.process = n)
        match job? with
        | none => go status rest
        | some j =>
          let n ← waitFor j
          tellEnding j.ending
          go n rest
    go 127 args

end Builtin

end Rota.Shell
