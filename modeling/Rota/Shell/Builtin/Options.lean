import Rota.Shell.Builtin.Variables

/-!
# Options of a shell

* `Builtin.setOptions`    sets options, and answers with new arguments;
* `Builtin.setShell`      the command for it.

The letters of the options that are set stay in one order.
-/

namespace Rota.Shell

open Text Program

namespace Builtin

def optionNames : List (String × Option Char) :=
  [("errexit", some 'e'), ("noglob", some 'f'), ("ignoreeof", some 'I'), ("interactive", some 'i'),
   ("monitor", some 'm'), ("noexec", some 'n'), ("stdin", some 's'), ("xtrace", some 'x'),
   ("verbose", some 'v'), ("vi", some 'V'), ("emacs", some 'E'), ("noclobber", some 'C'),
   ("allexport", some 'a'), ("notify", some 'b'), ("nounset", some 'u'), ("nolog", none),
   ("debug", none)]

def withLetter (options : List Char) (c : Char) (isSet : Bool) : List Char :=
  optionNames.filterMap fun o =>
    match o.2 with
    | none => none
    | some d =>
      if d = c then if isSet then some d else none
      else if options.contains d then some d
      else none

def isLetter (c : Char) : Bool := optionNames.any fun o => o.2 = some c

def setLetter (c : Char) (isSet : Bool) : Act Unit := do
  if isLetter c then modify fun s => { s with options := withLetter s.options c isSet }
  else Act.fail (raw "Illegal option -" ++ [c])

def setNamed (name : Raw) (isSet : Bool) : Act Unit := do
  match optionNames.find? fun o => o.1.toList = name with
  | some (_, some c) => setLetter c isSet
  | some (_, none) => return
  | none => Act.fail (raw "Illegal option -o " ++ name)

def showOptions (isSet : Bool) : Act Unit := do
  let s ← get
  if isSet then Act.print (raw "Current option settings\n")
  for (name, letter) in optionNames do
    let isOn := (letter.map s.options.contains).getD false
    let r := raw name
    if isSet then
      Act.print (r ++ List.replicate (16 - r.length) ' ' ++ raw (if isOn then "on\n" else "off\n"))
    else Act.print (raw (if isOn then "set -o " else "set +o ") ++ r ++ ['\n'])

/-- the options in one argument, after its first byte; the answer says whether the next argument is
the name of an option -/
def setLetters (isSet : Bool) : Raw → Act Bool
  | [] => return false
  | 'o' :: r => do
    let _ ← setLetters isSet r
    return true
  | c :: r => do
    setLetter c isSet
    setLetters isSet r

def setOptions : List Raw → Act (Option (List Raw))
  | [] => return none
  | ['-'] :: rest => do
    modify fun s => { s with options := withLetter (withLetter s.options 'x' false) 'v' false }
    return if rest = [] then none else some rest
  | ['-', '-'] :: rest => return some rest
  | r :: rest => do
    let isSet? := match r with
      | '-' :: _ => some true
      | '+' :: _ => some false
      | _ => none
    match isSet?, r with
    | some isSet, _ :: cs =>
      let needsName ← setLetters isSet cs
      match needsName, rest with
      | true, name :: rest =>
        setNamed name isSet
        setOptions rest
      | true, [] =>
        showOptions isSet
        return none
      | false, rest => setOptions rest
    | _, _ => return some (r :: rest)

def setShell (args : List Raw) : Act Nat := do
  if args = [] then
    showVariables [] fun v => v.value.isSome
    return 0
  else
    match ← setOptions args with
    | some new => modify fun s => { s with args := new, optionPlace := 0 }
    | none => pure ()
    return 0

end Builtin

end Rota.Shell
