import Rota.Program.Options
import Rota.Text.Radix

/-!
# Head

`head` prints the beginning of its input or of files: lines, or bytes.  A count after a minus sign
says how many of them at the end are left out.  Where there are several files, each one has a header
line, and an empty line stands between two of them.

* `Head.Request`    what is asked for;
* `Head.request`    the request of some arguments;
* `Head.run`        the tool.
-/

namespace Rota.Program.Head

open Text

inductive Headers where
  | ifSeveral
  | always
  | never
deriving DecidableEq, Repr

structure Request where
  countsLines : Bool := true
  count : Nat := 10
  fromEnd : Bool := false
  headers : Headers := .ifSeveral
  lineEnd : Char := '\n'
deriving DecidableEq, Repr

/-! ## counts -/

def power? (c : Char) : Option Nat :=
  match c with
  | 'k' => some 1
  | 'K' => some 1
  | 'm' => some 2
  | 'M' => some 2
  | 'G' => some 3
  | 'T' => some 4
  | 'P' => some 5
  | 'E' => some 6
  | 'Z' => some 7
  | 'Y' => some 8
  | _ => none

def multiple? : Raw → Option Nat
  | [] => some 1
  | ['b'] => some 512
  | c :: r =>
    match power? c with
    | none => none
    | some p =>
      if r = [] ∨ r = ['i', 'B'] then some (Nat.pow 1024 p)
      else if r = ['B'] then some (Nat.pow 1000 p)
      else none

inductive CountFault where
  | invalid
  | tooLarge
deriving DecidableEq, Repr

def count? (r : Raw) : Except CountFault Nat :=
  let s := r.dropWhile Raw.isSpace
  let s := match s with
    | '+' :: s => s
    | s => s
  let ds := s.takeWhile Char.isDigit
  let unit := s.dropWhile Char.isDigit
  if ds = [] ∧ unit = [] then .error .invalid
  else
    let n := if ds = [] then 1 else Radix.value 10 ds
    match multiple? unit with
    | none => .error .invalid
    | some m => if Radix.wordCount ≤ n * m then .error .tooLarge else .ok (n * m)

def countText (countsLines : Bool) (r : Raw) (f : CountFault) : Raw :=
  raw (if countsLines then "head: invalid number of lines: " else "head: invalid number of bytes: ")
    ++ Quoted.plain r
    ++ (match f with
      | .invalid => []
      | .tooLarge => raw ": Value too large for defined data type")

/-! ## arguments -/

abbrev Reading := Except Outcome Request

def withCount (q : Request) (countsLines : Bool) (r : Raw) : Reading :=
  let (fromEnd, ds) := match r with
    | '-' :: ds => (true, ds)
    | ds => (false, ds)
  match count? ds with
  | .ok n => .ok { q with countsLines := countsLines, count := n, fromEnd := fromEnd }
  | .error f => .error (.complaint 1 (rawLine [countText countsLines ds f]))

def withOption (q : Request) (option : Char × Raw) : Reading :=
  match option with
  | ('c', r) => withCount q false r
  | ('n', r) => withCount q true r
  | ('q', _) => .ok { q with headers := .never }
  | ('v', _) => .ok { q with headers := .always }
  | ('z', _) => .ok { q with lineEnd := '\x00' }
  | (c, _) =>
    if c.isDigit then .error (misuse "head" (raw "invalid trailing option -- " ++ [c])) else .ok q

/-- the letters after the digits of an old option: the request, and the letter of a unit -/
def withLetters (q : Request) (unit : Raw) : Raw → Except Outcome (Request × Raw)
  | [] => .ok (q, unit)
  | c :: r =>
    match c with
    | 'c' => withLetters { q with countsLines := false } [] r
    | 'b' => withLetters { q with countsLines := false } [c] r
    | 'k' => withLetters { q with countsLines := false } [c] r
    | 'm' => withLetters { q with countsLines := false } [c] r
    | 'l' => withLetters { q with countsLines := true } unit r
    | 'q' => withLetters { q with headers := .never } unit r
    | 'v' => withLetters { q with headers := .always } unit r
    | 'z' => withLetters { q with lineEnd := '\x00' } unit r
    | c => .error (misuse "head" (raw "invalid trailing option -- " ++ [c]))

def oldOption (r : Raw) : Reading := do
  let (q, unit) ← withLetters {} [] (r.dropWhile Char.isDigit)
  withCount q q.countsLines (r.takeWhile Char.isDigit ++ unit)

/-- the options; a digit is known only to be refused -/
def options : OptionTable where
  letters :=
    [('c', true), ('n', true), ('q', false), ('v', false), ('z', false)]
      ++ (List.range 10).map fun k => (Char.ofNat (48 + k), false)
  names :=
    [("bytes", 'c'), ("lines", 'n'), ("quiet", 'q'), ("silent", 'q'), ("verbose", 'v'),
     ("zero-terminated", 'z'), ("help", 'h'), ("version", 'w')]

def request (args : List Raw) : Except Outcome (Request × List Raw) := do
  let (q, args) ← match args with
    | ('-' :: c :: r) :: rest =>
      if c.isDigit then do pure ((← oldOption (c :: r)), rest) else .ok ({}, args)
    | args => .ok ({}, args)
  let o := options.read args
  let q ← o.options.foldlM withOption q
  match o.fault with
  | some f => .error (misuse "head" f.text)
  | none => .ok (q, o.operands)

/-! ## cutting -/

/-- what is printed of a stream, what is left of it, and how the output goes on -/
structure Slice where
  text : Raw
  left : Leftover
  tail : Tail := .ends

def Slice.all (text : Raw) (tail : Tail) : Slice := ⟨text, ⟨⟨[], tail⟩, true, 0⟩, tail⟩

def blockSize : Nat := 8192

/-- how many bytes are read too much where `n` bytes are needed -/
def excess (n : Nat) : Nat := (n + blockSize - 1) / blockSize * blockSize - n

def withoutLines (c : Char) (n : Nat) (r : Raw) : Raw :=
  if n = 0 then r
  else
    let ends := (r.filter (· = c)).length
    let lines := if r.getLast? = some c ∨ r = [] then ends else ends + 1
    (Raw.cutLines c (lines - n) [] r).1

def firstLines (c : Char) (n : Nat) (s : Stream) : Slice :=
  let front := (Raw.cutLines c n [] s.text).1
  let seen := (front.filter (· = c)).length
  if seen = n then ⟨front, ⟨s.dropOf front.length, false, excess front.length⟩, .ends⟩
  else
    match s.tail with
    | .ends => .all front .ends
    | .hangs => .all front .hangs
    | .repeats t =>
      let perRound := (t.filter (· = c)).length
      if perRound = 0 then .all front (.repeats t)
      else
        let more := Stream.cycle t (t.length * ((n - seen) / perRound + 1))
        ⟨front ++ (Raw.cutLines c (n - seen) [] more).1, ⟨⟨[], .repeats t⟩, false, 0⟩, .ends⟩

def slice (q : Request) (s : Stream) : Slice :=
  if q.fromEnd then
    match s.tail with
    | .ends =>
      if q.countsLines then .all (withoutLines q.lineEnd q.count s.text) .ends
      else .all (s.text.take (s.text.length - q.count)) .ends
    | .hangs => .all [] .hangs
    | .repeats t => .all s.text (.repeats t)
  else if q.countsLines then
    if q.count = 0 then ⟨[], ⟨s, false, 0⟩, .ends⟩ else firstLines q.lineEnd q.count s
  else
    let (front, waits) := s.takeOf q.count
    ⟨front, ⟨s.dropOf q.count, decide (front.length < q.count), 0⟩, if waits then .hangs else .ends⟩

/-! ## the tool -/

/-- what was printed so far; errors are printed first, for the output is kept back until the end -/
structure Progress where
  stdout : Raw := []
  stderr : Raw := []
  hasHeader : Bool := false
  tail : Tail := .ends
  stdin : Except FileFault Stream
  left : Option Leftover := none

def shownName (name : Raw) : Raw := if name = ['-'] then raw "standard input" else name

def printFile (q : Request) (several : Bool) (input : Input) (p : Progress) (name : Raw) :
    Progress :=
  if p.tail ≠ .ends then p
  else
    let isStdin := decide (name = ['-'])
    let opened := if isStdin then .ok p.stdin else input.file name
    match opened with
    | .error f =>
      { p with
        stderr := p.stderr ++ rawLine
          [raw "head: cannot open ", Quoted.always name, raw " for reading: ", raw f.text] }
    | .ok s =>
      let hasHeader := q.headers = .always ∨ (q.headers = .ifSeveral ∧ several)
      let front :=
        if hasHeader then
          (if p.hasHeader then ['\n'] else []) ++ rawLine
            [raw "==> ", shownName name, raw " <=="]
        else []
      let p :=
        { p with
          stdout := p.stdout ++ front
          hasHeader := p.hasHeader || decide hasHeader }
      match s with
      | .error f =>
        { p with
          stderr := p.stderr ++ rawLine
            [raw "head: error reading ", Quoted.always (shownName name), raw ": ", raw f.text] }
      | .ok s =>
        let cut := slice q s
        { p with
          stdout := p.stdout ++ cut.text
          tail := cut.tail
          stdin :=
            if !isStdin then p.stdin
            else if input.takesBack then .ok cut.left.stream
            else .ok (cut.left.stream.dropOf cut.left.ahead)
          left := if isStdin then some cut.left else p.left }

def run (args : List Raw) (input : Input) : Outcome :=
  match request args with
  | .error o => o
  | .ok (q, names) =>
    let names := if names = [] then [['-']] else names
    let several := decide (1 < names.length)
    let p := names.foldl (printFile q several input) { stdin := input.stdin }
    let isLost := names.contains ['-'] && input.isClosed
    let stderr :=
      p.stderr ++ (if isLost then rawLine [raw "head: -: ", raw FileFault.closed.text] else [])
    { status := if stderr = [] then 0 else 1
      writes := (if stderr = [] then [] else [(.errors, stderr)]) ++ [(.output, p.stdout)]
      tail := p.tail
      left := p.left }

/-! ## small laws -/

end Rota.Program.Head
