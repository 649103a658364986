import Rota.Shell.State

/-!
# Letters and values

* `Builtin.shown`     a value so that a shell reads it back;
* `Builtin.letters`   the options in front of the arguments of a command.
-/

namespace Rota.Shell

open Text Program

namespace Builtin

/-- what values are shown as, `fuel` being more than their length: in single quotes, and single
quotes in double ones -/
def shownFrom : Nat → Raw → Raw
  | 0, _ => []
  | fuel + 1, r =>
    let (front, rest) := Raw.upTo (· = '\'') r
    let quotes := rest.takeWhile (· = '\'')
    let rest := rest.dropWhile (· = '\'')
    let here := '\'' :: front ++ ['\'']
    if quotes = [] then here
    else
      let here := here ++ '"' :: quotes ++ ['"']
      if rest = [] then here else here ++ shownFrom fuel rest

def shown (r : Raw) : Raw := shownFrom (r.length + 1) r

/-- the letters in front of the arguments, of which `known` are allowed, and the other arguments; a
letter in `valued` takes a value -/
def letters (known valued : List Char) : List Raw → Act (List (Char × Raw) × List Raw)
  | [] => return ([], [])
  | ['-', '-'] :: rest => return ([], rest)
  | ('-' :: c :: r) :: rest => do
    let rec go : Raw → Act (List (Char × Raw) × Option Char)
      | [] => return ([], none)
      | c :: r => do
        if valued.contains c then return if r = [] then ([], some c) else ([(c, r)], none)
        else if known.contains c then
          let (os, needs) ← go r
          return ((c, []) :: os, needs)
        else Act.fail (raw "Illegal option -" ++ [c])
    let (os, needs) ← go (c :: r)
    match needs, rest with
    | none, rest => do
      let (more, rest) ← letters known valued rest
      return (os ++ more, rest)
    | some c, v :: rest => do
      let (more, rest) ← letters known valued rest
      return (os ++ (c, v) :: more, rest)
    | some c, [] => Act.fail (raw "No arg for -" ++ c :: raw " option")
  | args => return ([], args)

def plain (args : List Raw) : Act (List Raw) := do return (← letters [] [] args).2

end Builtin

end Rota.Shell
