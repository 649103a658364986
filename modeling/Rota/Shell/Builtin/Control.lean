import Rota.Shell.Builtin.Letters

/-!
# Leaving loops, functions and shells

* `Builtin.breakLoops`, `Builtin.continueLoops`   leave loops, or begin their next round;
* `Builtin.returnFrom`, `Builtin.exit`            leave a function, or the shell;
* `Builtin.shift`                                 drops arguments.

A number that is none is a fault.
-/

namespace Rota.Shell

open Text Program

namespace Builtin

def loopCount (args : List Raw) : Act Nat := do
  match args with
  | [] => return 1
  | r :: _ =>
    let n ← Act.number r
    if n = 0 then Act.fail (raw "Illegal number: " ++ r) else return n

def breakLoops (args : List Raw) : Act Nat := do
  let n := min (← loopCount args) (← get).loops
  if n = 0 then return 0 else throw (.breaks n)

def continueLoops (args : List Raw) : Act Nat := do
  let n := min (← loopCount args) (← get).loops
  if n = 0 then return 0 else throw (.continues n)

def exit (args : List Raw) : Act Nat := do
  match args with
  | [] => throw (.exits (← get).status)
  | r :: _ => throw (.exits (Act.byteOf (← Act.number r)))

def returnFrom (args : List Raw) : Act Nat := do
  match args with
  | [] => throw (.returns (← get).status)
  | r :: _ => throw (.returns (← Act.number r))

def shift (args : List Raw) : Act Nat := do
  let n ← match args with
    | [] => pure 1
    | r :: _ => Act.number r
  let s ← get
  if s.args.length < n then Act.fail (raw "can't shift that many")
  else
    set { s with args := s.args.drop n, optionPlace := 0 }
    return 0

end Builtin

end Rota.Shell
