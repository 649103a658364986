import Rota.Program.Options
import Rota.Text.Numeral

/-!
# Cat

`cat` prints its input or files one after the other.  Options number the lines, leave out repeated
empty lines, and show ends of lines, tabs and what cannot be printed.

* `Cat.Display`     how the bytes are shown;
* `Cat.shownByte`   a byte shown with signs that can be printed;
* `Cat.Line`        where in a line the output stands;
* `Cat.run`         the tool.
-/

namespace Rota.Program.Cat

open Text

structure Display where
  numbersAll : Bool := false
  /-- numbers the lines that are not empty, and no others -/
  numbersFull : Bool := false
  squeezes : Bool := false
  showsEnds : Bool := false
  showsTabs : Bool := false
  showsControls : Bool := false
deriving DecidableEq, Repr

def options : OptionTable where
  letters := "AbeEnstTuv".toList.map fun c => (c, false)
  names :=
    [("number-nonblank", 'b'), ("number", 'n'), ("squeeze-blank", 's'), ("show-nonprinting", 'v'),
     ("show-ends", 'E'), ("show-tabs", 'T'), ("show-all", 'A'), ("help", 'h'), ("version", 'w')]

def Display.withOption (d : Display) (c : Char) : Display :=
  match c with
  | 'A' => { d with showsControls := true, showsEnds := true, showsTabs := true }
  | 'b' => { d with numbersFull := true }
  | 'e' => { d with showsControls := true, showsEnds := true }
  | 'E' => { d with showsEnds := true }
  | 'n' => { d with numbersAll := true }
  | 's' => { d with squeezes := true }
  | 't' => { d with showsControls := true, showsTabs := true }
  | 'T' => { d with showsTabs := true }
  | 'v' => { d with showsControls := true }
  | _ => d

def Display.isPlain (d : Display) : Bool := decide (d = {})

def shownLow (n : Nat) : Raw :=
  if n < 32 then ['^', Char.ofNat (n + 64)] else if n = 127 then ['^', '?'] else [Char.ofNat n]

def shownByte (c : Char) : Raw :=
  if c.toNat < 128 then shownLow c.toNat else 'M' :: '-' :: shownLow (c.toNat - 128)

def Display.shown (d : Display) (c : Char) (next : Option Char) : Raw :=
  if c = '\t' then if d.showsTabs then ['^', 'I'] else [c]
  else if d.showsControls then shownByte c
  else if c = '\r' ∧ next = some '\n' ∧ d.showsEnds then ['^', 'M']
  else [c]

structure Line where
  /-- how many lines have a number -/
  number : Nat := 0
  isAtStart : Bool := true
  followsEmpty : Bool := false
deriving DecidableEq, Repr

def numberText (n : Nat) : Raw :=
  let ds := Numeral.text n
  List.replicate (6 - ds.length) ' ' ++ ds ++ ['\t']

def step (d : Display) (l : Line) (done : Raw) (c : Char) (next : Option Char) : Line × Raw :=
  if c = '\n' then
    if l.isAtStart && l.followsEmpty && d.squeezes then (l, done)
    else
      let numbers := l.isAtStart && d.numbersAll && !d.numbersFull
      let front := if numbers then numberText (l.number + 1) else []
      let lineEnd := if d.showsEnds then ['\n', '$'] else ['\n']
      (⟨if numbers then l.number + 1 else l.number, true, l.isAtStart⟩,
        lineEnd ++ front.reverse ++ done)
  else
    let numbers := l.isAtStart && (d.numbersAll || d.numbersFull)
    let front := if numbers then numberText (l.number + 1) else []
    (⟨if numbers then l.number + 1 else l.number, false, false⟩,
      (d.shown c next).reverse ++ front.reverse ++ done)

def steps (d : Display) : Line → Raw → Raw → Line × Raw
  | l, done, [] => (l, done)
  | l, done, c :: r =>
    let (l, done) := step d l done c r.head?
    steps d l done r

def shownText (d : Display) (l : Line) (r : Raw) : Line × Raw :=
  if d.isPlain then (l, r)
  else
    let (l, done) := steps d l [] r
    (l, done.reverse)

/-- what is printed for a stream; of a tail that repeats it is enough to know that it goes on -/
def shownStream (d : Display) (l : Line) (s : Stream) : Line × Raw × Tail :=
  let (l, text) := shownText d l s.text
  match s.tail with
  | .repeats t => (l, text, .repeats (if d.isPlain then t else (shownText d l t).2))
  | t => (l, text, t)

structure Progress where
  line : Line := {}
  writes : List (Outlet × Raw) := []
  failed : Bool := false
  tail : Tail := .ends
  stdin : Except FileFault Stream
  readsStdin : Bool := false

def printFile (d : Display) (input : Input) (p : Progress) (name : Raw) : Progress :=
  if p.tail ≠ .ends then p
  else
    let isStdin := decide (name = ['-'])
    let opened := if isStdin then .ok p.stdin else input.file name
    match opened.bind id with
    | .error f =>
      { p with
        failed := true
        writes := p.writes ++
          [(.errors, rawLine [raw "cat: ", Quoted.needed name, raw ": ", raw f.text])] }
    | .ok s =>
      let (l, text, tail) := shownStream d p.line s
      { p with
        line := l
        writes := p.writes ++ [(.output, text)]
        tail := tail
        stdin := if isStdin then .ok ⟨[], s.tail⟩ else p.stdin
        readsStdin := p.readsStdin || isStdin }

def run (args : List Raw) (input : Input) : Outcome :=
  let o := options.read args
  match o.fault with
  | some f => misuse "cat" f.text
  | none =>
    let d := o.options.foldl (fun d option => d.withOption option.1) {}
    let names := if o.operands = [] then [['-']] else o.operands
    let p := names.foldl (printFile d input) { stdin := input.stdin }
    let isLost := names.contains ['-'] && input.isClosed
    { status := if p.failed then 1 else 0
      writes := p.writes ++
        (if isLost then
          [(.errors, rawLine [raw "cat: closing standard input: ", raw FileFault.closed.text])]
        else [])
      tail := p.tail
      left :=
        if p.readsStdin then p.stdin.toOption.map fun s => { stream := s, sawEnd := true }
        else none }

/-! ## small laws -/

end Rota.Program.Cat
