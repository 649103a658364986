import Rota.Shell.Builtin
import Rota.Shell.Parser
import Rota.Shell.Redirection

/-!
# Running words

The first word of a command names a function, a command of the shell, or a program.

* `Invocation.function`   runs a function with arguments;
* `Invocation.program`    runs a program as a process of its own;
* `Invocation.builtin`    runs a command of the shell;
* `Invocation.words`      runs words.
-/

namespace Rota.Shell

open Text Program

namespace Invocation

def statusOf (e : Ending) : Act Nat := do
  if e = .endless then throw .endless
  Builtin.tellEnding e
  return e.status

/-- puts back what local variables hid -/
def restore (frame : List (Raw × Option Variable)) (s : State) : State :=
  frame.foldl (fun s h => s.put h.1 h.2) s

section
variable (run : Runner)

/-- functions may be inside each other as deep as this -/
def deepest : Nat := 1000

def function (p : Place) (body : Command) (args : List Raw) : Act Nat := do
  if deepest ≤ (← get).calls then
    Act.fail (raw s!"Maximum function recursion depth ({deepest}) reached")
  guarded
    (fun s t =>
      restore (t.hidden.headD [])
        { t with
          args := s.args
          loops := s.loops
          calls := s.calls
          optionPlace := s.optionPlace
          hidden := s.hidden })
    (do
      modify fun s =>
        { s with
          args := args
          loops := 0
          calls := s.calls + 1
          optionPlace := 0
          hidden := [] :: s.hidden }
      let (n, stop) ← caught (run (.command { isTested := p.isTested } body))
      match stop with
      | none => return n
      | some (.returns n) => return n
      | some stop => throw stop)

def noProgram (name : Raw) (f : FileFault) : Raw × Nat :=
  if f = .missing || f = .notDirectory then (name ++ raw ": not found", 127)
  else (name ++ raw ": " ++ raw f.text, if f = .nameTooLong then 127 else 126)

def shell (p : Place) (name : Raw) (args : List Raw) : Act Nat := do
  Act.world fun w => w.pass startMicros
  let (ending, _) ← asProcess id (finish run (run (.shell name args)))
  let replaces := p.isLast && (← get).traps = []
  match ending with
  | .killed n => if replaces then throw (.killed n) else statusOf ending
  | _ => statusOf ending

def program (p : Place) (name : Raw) (args : List Raw) : Act Nat := do
  match (← get).program name with
  | .error f =>
    let (text, n) := noProgram name f
    Act.warn text
    return if name.contains '/' then n else 127
  | .ok .sh => shell run p name args
  | .ok t => runTool t args

def replace (args : List Raw) : Act Nat := do
  match args with
  | [] => return 0
  | name :: args =>
    match (← get).program name with
    | .error f =>
      let (text, n) := noProgram name f
      Act.warn text
      throw (.exits n)
    | .ok _ =>
      modify fun s => { s with traps := s.traps.filter fun t => t.2 = [] && t.1 != 0 }
      let n ← program run { isLast := true } name args
      throw (.replaced n)

def source (p : Place) (args : List Raw) : Act Nat := do
  match args with
  | [] => return 0
  | path :: _ =>
    let s ← get
    let text ←
      if path.contains '/' then
        match s.world.content s.channels path with
        | .ok (.ok stream) => pure stream.text
        | .ok (.error _) => pure []
        | .error f => Redirection.cannot .read path f
      else Act.fail (path ++ raw ": not found")
    let (n, stop) ← caught (run (.script { isTested := p.isTested } text))
    match stop with
    | none => return n
    | some (.returns n) => return n
    | some stop => throw stop

def action? (p : Place) (name : Raw) : Option (List Raw → Act Nat) :=
  match String.ofList name with
  | "eval" => some fun args =>
    run (.script { isTested := p.isTested } (Raw.joined [' '] args))
  | "exec" => some (replace run)
  | "." => some (source run p)
  | _ => Builtin.action? name

def labelled {α : Type} (name : Raw) (act : Act α) : Act α :=
  guarded (fun s t => { t with command := s.command }) do
    modify fun s => { s with command := some name }
    act

/-- runs a command of the shell; output that is lost is a fault -/
def builtin (name : Raw) (act : Act Nat) : Act Nat :=
  labelled name do
    modify fun s => { s with hasLost := false }
    let n ← act
    if (← get).hasLost then
      Act.warn (name ++ raw ": I/O error")
      modify fun s => { s with hasLost := false }
      return n ||| 1
    else return n

/-- runs words; `seesFunctions` says whether the first one may name a function -/
def words (p : Place) (seesFunctions : Bool) (name : Raw) (args : List Raw) : Act Nat := do
  match (← get).functions.lookup name, seesFunctions with
  | some body, true => function run p body args
  | _, _ =>
    match action? run p name with
    | some act => builtin name (act args)
    | none => program run p name args

inductive Lookup where
  | runs (args : List Raw)
  | describes (isBrief : Bool) (names : List Raw)

def lookupOf (args : List Raw) : Act Lookup := do
  let (options, rest) ← Builtin.letters ['p', 'v', 'V'] [] args
  match (options.filter (·.1 ≠ 'p')).getLast? with
  | none => return .runs rest
  | some (c, _) => return .describes (c = 'v') rest

/-- runs words after `command` has been taken from their front as often as it is there -/
def withoutFunctions (p : Place) : Nat → List Raw → Act Nat
  | 0, _ => return 0
  | _, [] => return 0
  | fuel + 1, name :: args => do
    if name = raw "command" then
      match ← labelled name (lookupOf args) with
      | .runs rest => withoutFunctions p fuel rest
      | .describes isBrief names =>
        let mut status := 0
        for r in names do
          let n ← builtin name (Builtin.describe isBrief r)
          if n ≠ 0 then status := n
        return status
    else words run p false name args

def all (p : Place) (name : Raw) (args : List Raw) : Act Nat := do
  if name = raw "command" && ((← get).functions.lookup name).isNone then
    withoutFunctions run p (args.length + 2) (name :: args)
  else words run p true name args

end

end Invocation

end Rota.Shell
