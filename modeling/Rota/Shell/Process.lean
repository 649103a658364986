import Rota.Shell.State

/-!
# Processes

* `Task`             what a shell is asked to do; `Runner` does it;
* `finish`           the end of a process, with the action for the end of a shell;
* `asProcess`        runs something as a process of its own: only what shells share is kept;
* `runTool`          runs a tool with the channels of the shell.
-/

namespace Rota.Shell

open Text Program

structure Place where
  /-- whether its status is looked at -/
  isTested : Bool := false
  /-- whether nothing follows it -/
  isLast : Bool := false

inductive Task where
  | command (p : Place) (c : Command)
  | script (p : Place) (r : Raw)
  | shell (name : Raw) (args : List Raw)

/-- does a task; the answer is its status -/
abbrev Runner := Task → Act Nat

def endingOf (n : Nat) : Option Stop → Ending
  | none => .exits n
  | some (.exits n) => .exits (Act.byteOf n)
  | some (.returns n) => .exits (Act.byteOf n)
  | some .fails => .exits 2
  | some (.replaced n) => .exits n
  | some (.killed s) => .killed s
  | some .endless => .endless
  | some _ => .exits n

def caught (act : Act Nat) : Act (Nat × Option Stop) := fun s =>
  match act s with
  | .ok n s => .ok (n, none) s
  | .error e s => .ok (0, some e) s

def runsAction : Option Stop → Bool
  | some (.replaced _) => false
  | some (.killed _) => false
  | some .endless => false
  | _ => true

def finish (run : Runner) (act : Act Nat) : Act Ending := do
  let (n, stop) ← caught act
  let ending := endingOf n stop
  let s ← get
  match ending, s.traps.lookup 0 with
  | .exits n, some (c :: action) =>
    if runsAction stop then
      set { s with traps := s.traps.filter (·.1 != 0), status := n }
      let (_, stop) ← caught (run (.script {} (c :: action)))
      match stop with
      | some .fails => return .exits 2
      | some stop => return endingOf n (some stop)
      | none => return ending
    else return ending
  | _, _ => return ending

/-- runs something as a process of its own, which begins with the state changed by `change`; the
number of the process is answered too -/
def asProcess (change : State → State) (act : Act Ending) : Act (Ending × Nat) := fun s =>
  let process := s.world.processes + 1
  let child :=
    { s with
      process := process
      jobs := []
      traps := s.traps.filter fun t => t.2 = [] && t.1 != 0
      loops := 0
      world := { s.world with processes := process } }
  match act (change child) with
  | .ok ending t =>
    let time := if ending = .endless then never else t.world.clock
    .ok (ending, process) { s with world := t.world.hold process time (t.channels.map (·.2)) }
  | .error _ t =>
    .ok (.endless, process) { s with world := t.world.hold process never (t.channels.map (·.2)) }

/-! ## tools -/

def startMicros : Nat := 1000

def writeFault (t : Tool) (f : FileFault) : Raw :=
  rawLine
    [raw t.name,
     raw (if t = .cat && f.number = 9 then ": standard output: " else ": write error: "),
     raw f.text]

def inputOf (s : State) : Input where
  stdin :=
    match s.channel? 0 with
    | some h => (s.world.source h).stream
    | none => .error .closed
  takesBack := ((s.channel? 0).map fun h => (s.world.source h).isFile).getD false
  file := s.world.content s.channels

def writeAll : List (Outlet × Raw) → Act (Option FileFault)
  | [] => return none
  | (.errors, r) :: rest => do
    let _ ← Act.emit ((← get).channel? 2) r
    writeAll rest
  | (.output, r) :: rest => do
    if r = [] then writeAll rest
    else
      match ← Act.emit ((← get).channel? 1) r with
      | some f => return some f
      | none => writeAll rest

/-- runs a tool with the channels of the shell -/
def runTool (t : Tool) (args : List Raw) : Act Nat := do
  let s ← get
  match t.run? args (inputOf s) with
  | none => return 0
  | some o =>
    match o.left, s.channel? 0 with
    | some rest, some h => Act.world fun w => w.leave h rest
    | _, _ => pure ()
    Act.world fun w => w.pass (startMicros + o.micros)
    match ← writeAll o.writes with
    | some f =>
      let _ ← Act.emit (s.channel? 2) (writeFault t f)
      return 1
    | none =>
      if o.tail = .ends then return o.status
      else
        match s.channel? 1 with
        | some (.writes n) => Act.world fun w => w.changeSink n fun k => { k with tail := o.tail }
        | _ => pure ()
        throw .endless

end Rota.Shell
