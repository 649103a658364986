import Rota.Shell.Arithmetic
import Rota.Shell.Paths
import Rota.Shell.Process

/-!
# What words stand for

A word stands for cells: bytes that are quoted or not, and the places where arguments meet.  Where
words are parted, bytes that a parameter or a command put there part them at the separators.

* `Cell`                what a word is made of once its parameters are known;
* `Expansion.cells`     the cells of a word;
* `Expansion.fields`    the words that cells are parted into;
* `Expansion.words`     the words that words stand for;
* `Expansion.text`      the text of a word that is not parted.
-/

namespace Rota.Shell

open Text Program

inductive Cell where
  | byte (c : Char) (isQuoted parts : Bool)
  /-- a quote: it keeps an empty word in being -/
  | quote
  | border
  /-- where all arguments would stand, but there are none -/
  | nobody
deriving DecidableEq, Repr

namespace Expansion

def given (isQuoted : Bool) (r : Raw) : List Cell := r.map fun c => .byte c isQuoted (!isQuoted)

def bytes (cs : List Cell) : Raw :=
  cs.filterMap fun c =>
    match c with
    | .byte c _ _ => some c
    | .border => some ' '
    | _ => none

/-- the bytes of cells with their quotes, for a pattern -/
def pattern (cs : List Cell) : List Pattern.Cell :=
  cs.filterMap fun c =>
    match c with
    | .byte c q _ => some (c, q)
    | .border => some (' ', true)
    | _ => none

/-- cells that part words where they are not quoted -/
def parting (cs : List Cell) : List Cell :=
  cs.map fun c =>
    match c with
    | .byte c q _ => .byte c q (!q)
    | c => c

/-! ## parts -/

structure Parting where
  done : List (List Pattern.Cell) := []
  word : Option (List Pattern.Cell) := none
  isBlank : Bool := false
  /-- whether the word under way could be nobody's -/
  isNobody : Bool := false

namespace Parting

def close (p : Parting) : Parting :=
  match p.word with
  | none => { p with isNobody := false }
  | some w =>
    if w = [] && p.isNobody then { p with word := none, isNobody := false }
    else { p with done := w.reverse :: p.done, word := none, isNobody := false }

def add (separators : Raw) (p : Parting) : Cell → Parting
  | .quote => { p with word := some (p.word.getD []) }
  | .nobody => { p with isNobody := true }
  | .border => { p.close with isBlank := false }
  | .byte c q parts =>
    if parts && separators.contains c then
      if Raw.isSpace c then
        match p.word with
        | none => p
        | some _ => { p.close with isBlank := true }
      else
        match p.word with
        | some _ => { p.close with isBlank := false }
        | none =>
          if p.isBlank then { p with isBlank := false } else { p with done := [] :: p.done }
    else { p with word := some ((c, q) :: p.word.getD []) }

end Parting

def fields (separators : Raw) (cs : List Cell) : List (List Pattern.Cell) :=
  (cs.foldl (Parting.add separators) {}).close.done.reverse

/-! ## parameters -/

def noValue {α : Type} (name : Raw) : Act α := Act.fail (name ++ raw ": parameter not set")

def value? (s : State) (name : Raw) : Option Raw :=
  match name with
  | ['?'] => some (Numeral.text s.status)
  | ['#'] => some (Numeral.text s.args.length)
  | ['$'] => some (Numeral.text s.mainProcess)
  | ['!'] => s.lastJob.map Numeral.text
  | ['-'] => some s.options
  | ['0'] => some s.name
  | name =>
    if Numeral.isNumeral name then
      let n := Numeral.value name
      if n = 0 then some s.name else s.args[n - 1]?
    else if name = raw "LINENO" then some (Numeral.text s.line)
    else s.value? name

def arguments : List Raw → List Cell
  | [] => [.nobody]
  | [a] => .quote :: given true a
  | a :: b :: rest => .quote :: given true a ++ .border :: arguments (b :: rest)

def looseArguments : List Raw → List Cell
  | [] => []
  | [a] => given false a
  | a :: b :: rest => given false a ++ .border :: looseArguments (b :: rest)

def between (s : State) : Raw :=
  match s.value? (raw "IFS") with
  | none => [' ']
  | some r => r.take 1

def all (s : State) (sign : Char) (isQuoted isParted : Bool) : List Cell :=
  if sign = '@' && isQuoted && isParted then arguments s.args
  else if isQuoted || !isParted then
    given true (Raw.joined (if sign = '@' then [' '] else between s) s.args)
  else looseArguments s.args

def isAll (name : Raw) : Bool := name = ['@'] || name = ['*']

def tilde (s : State) (w : Word) : Word :=
  match w with
  | .byte '~' false :: rest =>
    let isEnd := match rest with
      | [] => true
      | .byte c false :: _ => c = '/' || c = ':'
      | _ => false
    match isEnd, s.value? (raw "HOME") with
    | true, some home => Word.quoted home ++ rest
    | _, _ => w
  | w => w

def tildes (s : State) (w : Word) : Word :=
  let rec go (atStart : Bool) : Word → Word
    | [] => []
    | .byte c false :: w =>
      if atStart && c = '~' then
        let front := tilde s (.byte c false :: w)
        front.take (front.length - w.length) ++ go false w
      else .byte c false :: go (c = ':') w
    | p :: w => p :: go false w
  go true w

section
variable (run : Runner)

def output (body : Option Command) : Act Raw := do
  match body with
  | none =>
    modify fun s => { s with outputStatus := 0 }
    return []
  | some c =>
    let s ← get
    let (w, n) := s.world.addSink
    set { s with world := w }
    let (ending, _) ← asProcess (fun t => t.setChannel 1 (some (.writes n)))
      (finish run (run (.command { isLast := true } c)))
    let sink := (← get).world.sink n
    if ending = .endless || never ≤ sink.heldUntil then throw .endless
    Act.world fun w => w.waitFor sink.heldUntil
    modify fun s => { s with outputStatus := ending.status }
    let r := sink.text.filter (· ≠ '\x00')
    return (r.reverse.dropWhile (· = '\n')).reverse

def arithmetic (r : Raw) : Act Raw := do
  let s ← get
  match Arithmetic.value? (fun name => value? s name) r with
  | .error f => Act.fail (f.text r)
  | .ok (n, names) =>
    for (name, value) in names.reverse do
      Act.assign name (Numeral.integer value.toInt) false
    return Numeral.integer n.toInt

mutual

/-- the cells of a word; `fuel` bounds how deep words are inside of words -/
def cells (isParted : Bool) : Nat → Word → Act (List Cell)
  | 0, _ => throw (.killed 11)
  | _, [] => return []
  | fuel + 1, p :: w => do
    let here ← piece isParted fuel p
    return here ++ (← cells isParted fuel w)

def piece (isParted : Bool) : Nat → Piece → Act (List Cell)
  | 0, _ => throw (.killed 11)
  | fuel + 1, p => do
    match p with
    | .byte c q => return [.byte c q false]
    | .quote => return [.quote]
    | .output body q => return given q (← output run body)
    | .value text q => return given q (← arithmetic (bytes (← cells false fuel text)))
    | .parameter name use q => parameter isParted fuel name use q

def parameter (isParted : Bool) : Nat → Raw → Use → Bool → Act (List Cell)
  | 0, _, _, _ => throw (.killed 11)
  | fuel + 1, name, use, q => do
    let s ← get
    let value := if isAll name then
        if s.args = [] then none else some (Raw.joined [' '] s.args)
      else value? s name
    let whole : List Cell :=
      if isAll name then all s (name.headD '@') q isParted else given q (value.getD [])
    let refuses := s.has 'u' && !isAll name && value.isNone
    match use with
    | .bad => Act.fail (raw "Bad substitution")
    | .plain => if refuses then noValue name else return whole
    | .length =>
      if refuses then noValue name else return given q (Numeral.text (value.getD []).length)
    | .fallback f alsoEmpty word =>
      let isSet := value.isSome && !(alsoEmpty && value = some [])
      match f with
      | .word => if isSet then return whole else return parting (← cells isParted fuel word)
      | .alternative => if isSet then return parting (← cells isParted fuel word) else return []
      | .assigned =>
        if isSet then return whole
        else
          let r := bytes (← cells false fuel word)
          Act.assign name r false
          return given q r
      | .fault =>
        if isSet then return whole
        else if word.isEmpty then
          Act.fail (name ++ raw ": parameter not set" ++ raw (if alsoEmpty then " or null" else ""))
        else Act.fail (name ++ raw ": " ++ bytes (← cells false fuel word))
    | .trim atEnd isLongest p =>
      if refuses then noValue name
      else
        let cs := pattern (← cells false fuel p)
        return given q (Pattern.trimmed atEnd isLongest cs (value.getD []))

end

/-- words and parameters may be this deep -/
def depth : Nat := 100000

def ofWord (w : Word) : Act (List Raw) := do
  let cs ← cells run true depth (tilde (← get) w)
  let s ← get
  return (fields s.separators cs).flatMap fun p =>
    if s.has 'f' then [p.map (·.1)] else Paths.expand s.world.disk p

def words : List Word → Act (List Raw)
  | [] => return []
  | w :: ws => do
    let here ← ofWord run w
    return here ++ (← words ws)

def text (w : Word) : Act Raw := do return bytes (← cells run false depth (tilde (← get) w))

def valueText (w : Word) : Act Raw := do return bytes (← cells run false depth (tildes (← get) w))

def patternOf (w : Word) : Act (List Pattern.Cell) := do
  return pattern (← cells run false depth (tilde (← get) w))

end

/-! ## small laws -/

end Expansion

end Rota.Shell
