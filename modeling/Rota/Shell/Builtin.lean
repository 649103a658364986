import Rota.Shell.Builtin.Control
import Rota.Shell.Builtin.Options
import Rota.Shell.Builtin.Printing
import Rota.Shell.Builtin.Reading
import Rota.Shell.Builtin.Signals
import Rota.Shell.Cursor

/-!
# Commands of the shell itself

These commands act on the shell, or are so small that it does them itself.  Each one is a function
of its arguments.

* `Builtin.describe`   what a name means;
* `Builtin.action?`    the command of a name.

A message about a fault names the command.
-/

namespace Rota.Shell

open Text Program

namespace Builtin

/-! ## directories -/

def pathOf (way : List Raw) : Raw :=
  if way = [] then ['/'] else way.flatMap fun name => '/' :: name

def pwd : Act Nat := do
  Act.print (pathOf (← get).world.disk.home ++ ['\n'])
  return 0

def cd (args : List Raw) : Act Nat := do
  let (_, args) ← letters ['L', 'P'] [] args
  let s ← get
  let target := match args with
    | [] => s.value? (raw "HOME")
    | ['-'] :: _ => s.value? (raw "OLDPWD")
    | r :: _ => some r
  match target with
  | none => return 0
  | some [] => return 0
  | some r =>
    match s.world.disk.resolve r with
    | .ok (way, .directory) =>
      let old := pathOf s.world.disk.home
      Act.world fun w => { w with disk := { w.disk with home := way } }
      Act.assign (raw "OLDPWD") old false
      Act.assign (raw "PWD") (pathOf way) false
      if args.head? = some ['-'] then Act.print (pathOf way ++ ['\n'])
      return 0
    | _ => Act.fail (raw "can't cd to " ++ r)

/-! ## names -/

def names : List String :=
  specialNames ++
    ["[", "alias", "bg", "cd", "chdir", "command", "echo", "false", "fg", "getopts", "hash", "jobs",
     "kill", "printf", "pwd", "read", "test", "true", "type", "ulimit", "umask", "unalias", "wait"]

def isName (r : Raw) : Bool := names.any fun s => s.toList = r

def programPath? (s : State) (name : Raw) : Option Raw :=
  if name.contains '/' then
    match s.program name with
    | .ok _ => some name
    | .error _ => none
  else
    let directories := Raw.splitOn ':' ((s.value? (raw "PATH")).getD [])
    (directories.map fun dir => Disk.within dir name).find? fun path =>
      (s.world.disk.programAt path).toOption.isSome

def describe (isBrief : Bool) (name : Raw) : Act Nat := do
  let s ← get
  let say (text : String) : Act Nat := do
    Act.print (if isBrief then name ++ ['\n'] else name ++ raw text ++ ['\n'])
    return 0
  if (Keyword.ofText? name).isSome then say " is a shell keyword"
  else if let some text := s.aliases.lookup name then
    Act.print
      (if isBrief then raw "alias " ++ name ++ '=' :: shown text ++ ['\n']
        else rawLine [name, raw " is an alias for ", text])
    return 0
  else if (s.functions.lookup name).isSome then say " is a shell function"
  else if isSpecialName name then say " is a special shell builtin"
  else if isName name then say " is a shell builtin"
  else
    match programPath? s name with
    | some path =>
      Act.print (if isBrief then path ++ ['\n'] else name ++ raw " is " ++ path ++ ['\n'])
      return 0
    | none =>
      if !isBrief then Act.print (name ++ raw ": not found\n")
      return 127

def type (args : List Raw) : Act Nat := do
  let rec go : List Raw → Act Nat
    | [] => return 0
    | r :: rest => do
      let n ← describe false r
      let m ← go rest
      return if n = 0 then m else n
  go args

/-- the letters of what is left of three bits: reading, writing and running -/
def grants (bits : Nat) : Raw :=
  (if bits.testBit 2 then ['r'] else []) ++ (if bits.testBit 1 then ['w'] else [])
    ++ (if bits.testBit 0 then ['x'] else [])

def umask (args : List Raw) : Act Nat := do
  let (options, args) ← letters ['S'] [] args
  match args with
  | [] =>
    let mask := (← get).mask
    let part (n : Nat) : Raw := grants (7 - mask / n % 8)
    let digits := Radix.digits 8 false mask
    Act.print
      (if options = [] then List.replicate (4 - digits.length) '0' ++ digits ++ ['\n']
        else rawLine [raw "u=", part 64, raw ",g=", part 8, raw ",o=", part 1])
    return 0
  | r :: _ =>
    if r.all Char.isDigit then
      if r.all (Radix.isDigit 8) && decide (Radix.value 8 r < 512) then
        modify fun s => { s with mask := Radix.value 8 r }
        return 0
      else Act.fail (raw "Illegal number: " ++ r)
    else Act.fail (raw "Illegal mode: " ++ r)

/-- the command of a name, if it needs nothing but its arguments -/
def action? (name : Raw) : Option (List Raw → Act Nat) :=
  match String.ofList name with
  | ":" => some fun _ => return 0
  | "true" => some fun _ => return 0
  | "false" => some fun _ => return 1
  | "echo" => some echo
  | "printf" => some printf
  | "test" => some (test false)
  | "[" => some (test true)
  | "break" => some breakLoops
  | "continue" => some continueLoops
  | "exit" => some exit
  | "return" => some returnFrom
  | "shift" => some shift
  | "export" => some exportNames
  | "readonly" => some freezeNames
  | "local" => some makeLocal
  | "unset" => some unset
  | "set" => some setShell
  | "getopts" => some getopts
  | "read" => some read
  | "pwd" => some fun _ => pwd
  | "cd" => some cd
  | "chdir" => some cd
  | "trap" => some trap
  | "kill" => some kill
  | "wait" => some wait
  | "type" => some type
  | "umask" => some umask
  | "times" => some fun _ => do
    Act.print (raw "0m0.00s 0m0.00s\n0m0.00s 0m0.00s\n")
    return 0
  | "fg" => some fun _ => Act.fail (raw "No current job")
  | "bg" => some fun _ => Act.fail (raw "No current job")
  | "alias" => some nameTexts
  | "unalias" => some unalias
  | "hash" => some fun _ => return 0
  | "jobs" => some fun _ => return 0
  | "ulimit" => some fun args => do
    if args = [] then Act.print (raw "unlimited\n")
    return 0
  | _ => none

end Builtin

end Rota.Shell
