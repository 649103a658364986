import Rota.Shell.Builtin.Letters
import Rota.Shell.Condition
import Rota.Shell.Printf

/-!
# Printing and testing

* `Builtin.echo`      prints its arguments, in which escapes count;
* `Builtin.printf`    prints by a format;
* `Builtin.test`      decides a condition.
-/

namespace Rota.Shell

open Text Program

namespace Builtin

def echoed : List Raw → Raw × Bool
  | [] => ([], false)
  | [r] => Escape.printed r
  | r :: s :: rest =>
    let (front, stops) := Escape.printed r
    if stops then (front, true)
    else
      let (more, stops) := echoed (s :: rest)
      (front ++ ' ' :: more, stops)

def echo (args : List Raw) : Act Nat := do
  let (noLine, args) := match args with
    | ['-', 'n'] :: rest => (true, rest)
    | args => (false, args)
  let (r, stops) := echoed args
  Act.print (if stops || noLine then r else r ++ ['\n'])
  return 0

def printf (args : List Raw) : Act Nat := do
  match ← plain args with
  | [] => Act.fail (raw "usage: printf format [arg ...]")
  | format :: args =>
    let p := Printf.run format args
    for w in p.warnings do Act.warn w
    Act.print p.done.reverse
    match p.fault with
    | some f => Act.fail f
    | none => return if p.warnings = [] then 0 else 1

/-- a condition; under the name of a bracket it ends with the other one -/
def test (isBracket : Bool) (args : List Raw) : Act Nat := do
  let args ← if isBracket then
      if args.getLast? = some [']'] then pure args.dropLast else Act.fail (raw "missing ]")
    else pure args
  let s ← get
  let sizes : Condition.Sizes := ⟨fun n => (s.world.sink n).text.length⟩
  match Condition.holds? s.world.disk sizes args with
  | .ok b => return if b then 0 else 1
  | .error f => Act.fail f.text

end Builtin

end Rota.Shell
