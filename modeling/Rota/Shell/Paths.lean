import Rota.Program.Disk
import Rota.Shell.Pattern

/-!
# Paths that match

A word with a star, a question mark or brackets outside quotes stands for the paths that match it,
name by name.  A dot in front of a name is only matched by a dot.

* `Paths.isPattern`   whether a word is such a pattern;
* `Paths.matching`    the paths that match, in order.
-/

namespace Rota.Shell.Paths

open Text Program

def isPattern (p : List Pattern.Cell) : Bool :=
  p.any fun c => !c.2 && (c.1 = '*' || c.1 = '?' || c.1 = '[')

def entries (d : Disk) (way : List Raw) : List Raw :=
  let ways := Disk.directories ++ Disk.nodes.map (·.1) ++ Disk.links.map (·.1) ++ d.files.map (·.1)
    ++ Tool.all.map fun t => Disk.programs ++ [raw t.name]
  ((ways.filter fun w => decide (w.dropLast = way)).filterMap List.getLast?).eraseDups

/-- the way to the directory that a path in front of a name leads to -/
def wayOf? (d : Disk) (front : Raw) : Option (List Raw) :=
  if front = [] then some d.home
  else
    match d.resolve front with
    | .ok (way, .directory) => some way
    | _ => none

def names (d : Disk) (front : Raw) (p : List Pattern.Cell) : List Raw :=
  match wayOf? d front with
  | none => []
  | some way =>
    let seesDots := decide ((p.head?.map (·.1)) = some '.')
    (entries d way).filter fun name =>
      (seesDots || decide (name.head? ≠ some '.')) && Pattern.holds (Pattern.items p) name

/-- the name in front of a pattern, the slashes after it, and the rest -/
def cut (p : List Pattern.Cell) : List Pattern.Cell × Raw × List Pattern.Cell :=
  let rest := p.dropWhile fun c => c.1 ≠ '/'
  (p.takeWhile fun c => c.1 ≠ '/', (rest.takeWhile fun c => c.1 = '/').map (·.1),
    rest.dropWhile fun c => c.1 = '/')

/-- the paths that match; `fuel` is more than the length of the pattern -/
def extend (d : Disk) : Nat → List Raw → List Pattern.Cell → List Raw
  | 0, fronts, _ => fronts
  | _, fronts, [] => fronts
  | fuel + 1, fronts, p =>
    let (name, slashes, rest) := cut p
    let fronts := fronts.flatMap fun front =>
      let here := if isPattern name then names d front name else [name.map (·.1)]
      here.map fun r => front ++ r ++ slashes
    extend d fuel fronts rest

def matching (d : Disk) (p : List Pattern.Cell) : List Raw :=
  ((extend d (p.length + 1) [[]] p).filter fun r => (d.find r).toOption.isSome).mergeSort Raw.isUpTo

def expand (d : Disk) (p : List Pattern.Cell) : List Raw :=
  if isPattern p then
    match matching d p with
    | [] => [p.map (·.1)]
    | rs => rs
  else [p.map (·.1)]

/-! ## small laws -/

end Rota.Shell.Paths
