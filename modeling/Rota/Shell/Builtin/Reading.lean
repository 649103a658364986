import Rota.Shell.Builtin.Letters
import Rota.Shell.Pattern

/-!
# Reading lines and arguments

* `Builtin.readLine`      a line of a text, in which backslashes may count;
* `Builtin.read`          gives the fields of a line to variables;
* `Builtin.getopts`       the next option of some arguments.
-/

namespace Rota.Shell

open Text Program

namespace Builtin

/-- a line: its bytes with a mark on those after a backslash, what follows it, and whether it had an
end; `fuel` is at least the length of the text -/
def readLine (isPlain : Bool) : Nat → Raw → List Pattern.Cell × Raw × Bool
  | 0, r => ([], r, false)
  | _, [] => ([], [], false)
  | fuel + 1, c :: r =>
    if c = '\n' then ([], r, true)
    else if c = '\x00' then readLine isPlain fuel r
    else if c = '\\' && !isPlain then
      match r with
      | [] => ([], [], false)
      | d :: r =>
        let (line, rest, hasEnd) := readLine isPlain fuel r
        if d = '\n' then (line, rest, hasEnd) else ((d, true) :: line, rest, hasEnd)
    else
      let (line, rest, hasEnd) := readLine isPlain fuel r
      ((c, false) :: line, rest, hasEnd)

def withoutBlanks (separators : Raw) (cs : List Pattern.Cell) : List Pattern.Cell :=
  cs.dropWhile fun c => !c.2 && separators.contains c.1 && Raw.isSpace c.1

def isSeparator (separators : Raw) (c : Pattern.Cell) : Bool := !c.2 && separators.contains c.1

def firstField (separators : Raw) (cs : List Pattern.Cell) : Raw × List Pattern.Cell :=
  let front := cs.takeWhile fun c => !isSeparator separators c
  let rest := withoutBlanks separators (cs.drop front.length)
  let rest := match rest with
    | c :: more =>
      if isSeparator separators c && !Raw.isSpace c.1 then withoutBlanks separators more else rest
    | [] => []
  (front.map (·.1), rest)

/-- the last field of a line: all of it, without the blanks at its end, and without a separator that
ends its only field -/
def lastField (separators : Raw) (cs : List Pattern.Cell) : Raw :=
  let (front, rest) := firstField separators cs
  if rest = [] then front
  else ((withoutBlanks separators cs.reverse).reverse).map (·.1)

def giveFields (separators : Raw) : List Raw → List Pattern.Cell → Act Unit
  | [], _ => return
  | [name], cs => Act.assign name (lastField separators cs) false
  | name :: next :: names, cs => do
    let (field, rest) := firstField separators cs
    Act.assign name field false
    giveFields separators (next :: names) rest

def read (args : List Raw) : Act Nat := do
  let (options, names) ← letters ['r'] ['p', 't'] args
  if names = [] then Act.fail (raw "arg count")
  let s ← get
  match s.channel? 0 with
  | none => return 1
  | some h =>
    match (s.world.source h).stream with
    | .error _ => return 1
    | .ok stream =>
      let isPlain := options.any fun o => o.1 = 'r'
      let (line, rest, hasEnd) := readLine isPlain (stream.text.length + 1) stream.text
      if !hasEnd && stream.tail ≠ .ends then throw .endless
      Act.world fun w => w.leave h { stream := { stream with text := rest }, sawEnd := !hasEnd }
      let separators := s.separators
      giveFields separators names (withoutBlanks separators line)
      return if hasEnd then 0 else 1

/-- where the options of `getopts` are read from: the argument, its place, and the next index -/
def getoptsWord (args : List Raw) (index place : Nat) : Option (Raw × Nat) :=
  let here := (args.getD (index - 2) []).drop place
  if 1 < index && 0 < place && here ≠ [] then some (here, index)
  else
    match args[index - 1]? with
    | some ('-' :: c :: r) => if c :: r = ['-'] then none else some (c :: r, index + 1)
    | _ => none

def getoptsEnd (args : List Raw) (index place : Nat) : Nat :=
  let here := (args.getD (index - 2) []).drop place
  if 1 < index && 0 < place && here ≠ [] then index
  else if args[index - 1]? = some ['-', '-'] then index + 1
  else index

def getopts (args : List Raw) : Act Nat := do
  match args with
  | known :: name :: rest =>
    let s ← get
    let words := if rest = [] then s.args else rest
    let index := max 1 (Numeral.value ((s.value? (raw "OPTIND")).getD ['1']))
    let optarg := raw "OPTARG"
    let finish (c : Char) (index place : Nat) (status : Nat) : Act Nat := do
      Act.assign (raw "OPTIND") (Numeral.text index) false
      Act.assign name [c] false
      modify fun s => { s with optionPlace := place }
      return status
    match getoptsWord words index s.optionPlace with
    | none => finish '?' (getoptsEnd words index s.optionPlace) 0 1
    | some ([], index) => finish '?' index 0 1
    | some (c :: r, index) =>
      let place := if r = [] then 0 else (words.getD (index - 2) []).length - r.length
      let isSilent := known.head? = some ':'
      let tell (text : Raw) : Act Unit := do
        let _ ← Act.emit (s.channel? 2) (text ++ ['\n'])
      match known.dropWhile (· ≠ c) with
      | _ :: more =>
        if c = ':' then finish '?' index place 0
        else if more.head? = some ':' then
          match r, words[index - 1]? with
          | [], none =>
            if isSilent then
              Act.assign optarg [c] false
              finish ':' index 0 0
            else
              tell (raw "No arg for -" ++ c :: raw " option")
              modify fun s => s.put optarg none
              finish '?' index 0 0
          | [], some v =>
            Act.assign optarg v false
            finish c (index + 1) 0 0
          | r, _ =>
            Act.assign optarg r false
            finish c index 0 0
        else
          Act.assign optarg [] false
          finish c index place 0
      | [] =>
        if isSilent then Act.assign optarg [c] false
        else
          tell (raw "Illegal option -" ++ [c])
          modify fun s => s.put optarg none
        finish '?' index place 0
  | _ => Act.fail (raw "Usage: getopts optstring var [arg]")

end Builtin

end Rota.Shell
