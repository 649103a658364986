import Rota.Shell.Builtin.Letters

/-!
# Variables

* `Builtin.exportNames`   hands variables to programs;
* `Builtin.freezeNames`   keeps variables from being changed;
* `Builtin.makeLocal`     keeps the changes of a variable inside a function;
* `Builtin.unset`         takes variables or functions away;
* `Builtin.nameTexts`     gives words other texts.
-/

namespace Rota.Shell

open Text Program

namespace Builtin

def showVariables (front : Raw) (p : Variable → Bool) : Act Unit := do
  let s ← get
  let vs := (s.vars.filter fun v => p v.2).mergeSort fun a b => Raw.isUpTo a.1 b.1
  for (name, v) in vs do
    Act.print (front ++ name ++ (match v.value with
      | some r => '=' :: shown r
      | none => []) ++ ['\n'])

def mark (front : Raw) (change : Variable → Variable) (isMarked : Variable → Bool)
    (args : List Raw) : Act Nat := do
  let (options, names) ← letters ['p'] [] args
  if options ≠ [] || names = [] then
    showVariables (front ++ [' ']) isMarked
    return 0
  else
    for r in names do
      let (name, value) := Raw.upTo (· = '=') r
      if !Raw.isName name then Act.fail (name ++ raw ": bad variable name")
      match value with
      | [] => pure ()
      | _ :: v => Act.assign name v false
      modify fun s => s.put name (some (change ((s.named? name).getD {})))
    return 0

def exportNames (args : List Raw) : Act Nat :=
  mark (raw "export") (fun v => { v with isExported := true }) Variable.isExported args

def freezeNames (args : List Raw) : Act Nat :=
  mark (raw "readonly") (fun v => { v with isReadOnly := true }) Variable.isReadOnly args

/-- remembers a variable that a function hides -/
def hide (name : Raw) : Act Unit := modify fun s =>
  match s.hidden with
  | [] => s
  | frame :: rest =>
    if frame.any fun h => h.1 = name then s
    else { s with hidden := ((name, s.named? name) :: frame) :: rest }

def makeLocal (args : List Raw) : Act Nat := do
  if (← get).hidden = [] then Act.fail (raw "not in a function")
  for r in args do
    let (name, value) := Raw.upTo (· = '=') r
    if !Raw.isName name then Act.fail (name ++ raw ": bad variable name")
    hide name
    match value with
    | [] => pure ()
    | _ :: v => Act.assign name v false
  return 0

def unset (args : List Raw) : Act Nat := do
  let (options, names) ← letters ['f', 'v'] [] args
  let isFunction := options.getLast?.map (·.1) = some 'f'
  for name in names do
    if isFunction then
      modify fun s => { s with functions := s.functions.filter (·.1 != name) }
    else
      if !Raw.isName name then Act.fail (name ++ raw ": bad variable name")
      match (← get).named? name with
      | some v =>
        if v.isReadOnly then Act.fail (name ++ raw ": is read only")
        modify fun s => s.put name none
      | none => pure ()
  return 0

def showAlias (name text : Raw) : Act Unit := Act.print (name ++ '=' :: shown text ++ ['\n'])

def noAlias (command : String) (name : Raw) : Act Unit := do
  let _ ← Act.emit ((← get).channel? 2) (rawLine [raw command, raw ": ", name, raw " not found"])

def nameTexts (args : List Raw) : Act Nat := do
  if args = [] then
    for (name, text) in (← get).aliases.mergeSort fun a b => Raw.isUpTo a.1 b.1 do
      showAlias name text
  let mut status := 0
  for r in args do
    let (name, text) := Raw.upTo (· = '=') r
    match name, text with
    | _ :: _, _ :: text =>
      modify fun s => { s with aliases := (name, text) :: s.aliases.filter (·.1 != name) }
    | _, _ =>
      match (← get).aliases.lookup r with
      | some text => showAlias r text
      | none =>
        noAlias "alias" r
        status := 1
  return status

def unalias (args : List Raw) : Act Nat := do
  let (options, names) ← letters ['a'] [] args
  if options ≠ [] then
    modify fun s => { s with aliases := [] }
    return 0
  let mut status := 0
  for name in names do
    if ((← get).aliases.lookup name).isNone then
      noAlias "unalias" name
      status := 1
    modify fun s => { s with aliases := s.aliases.filter (·.1 != name) }
  return status

end Builtin

end Rota.Shell
