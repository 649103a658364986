import Rota.Calendar.Date
import Rota.Text.Numeral
import Rota.Toml.Basic

/-!
# TOML scalars, read

Each function takes the text that is left and gives what it read and what is left then.

* `Scalar.string?`     a string in any of the four kinds of quotes;
* `Scalar.date?`       a date, a time, or both, as its text;
* `Scalar.float?`, `Scalar.int?`   numbers;
* `Scalar.key?`        one part of a key.

What follows a scalar is not looked at.
-/

namespace Rota.Toml.Scalar

open Text

/-! ## characters -/

def isSpace (c : Char) : Bool := c = ' ' || c = '\t'

def skip (cs : List Char) : List Char := cs.dropWhile isSpace

/-- a character of a comment or of a string in single quotes, whatever its end is -/
def isPrintable (c : Char) : Bool := c = '\t' || (decide (32 ≤ c.toNat) && c.toNat != 127)

def newline? : List Char → Option (List Char)
  | '\n' :: r => some r
  | '\r' :: '\n' :: r => some r
  | _ => none

def digit? (base : Nat) (c : Char) : Option Nat :=
  let n :=
    if c.isDigit then c.toNat - 48
    else if 'a' ≤ c ∧ c ≤ 'f' then c.toNat - 87
    else if 'A' ≤ c ∧ c ≤ 'F' then c.toNat - 55
    else base
  if n < base then some n else none

def valueOf? (base : Nat) : List Char → Nat → Option Nat
  | [], n => some n
  | c :: cs, n =>
    match digit? base c with
    | some d => valueOf? base cs (n * base + d)
    | none => none

/-! ## strings -/

def codePoint? (width : Nat) (cs : List Char) : Option (Char × List Char) :=
  let ds := cs.take width
  if ds.length = width then
    match valueOf? 16 ds 0 with
    | some n => if h : n.isValidChar then some (Char.ofNatAux n h, cs.drop width) else none
    | none => none
  else none

def escape? : List Char → Option (Char × List Char)
  | 'b' :: r => some ('\x08', r)
  | 't' :: r => some ('\t', r)
  | 'n' :: r => some ('\n', r)
  | 'f' :: r => some ('\x0c', r)
  | 'r' :: r => some ('\r', r)
  | '"' :: r => some ('"', r)
  | '\\' :: r => some ('\\', r)
  | 'u' :: r => codePoint? 4 r
  | 'U' :: r => codePoint? 8 r
  | _ => none

def basic? : Nat → List Char → Option (List Char × List Char)
  | 0, _ => none
  | fuel + 1, cs =>
    match cs with
    | '"' :: r => some ([], r)
    | '\\' :: r => do
      let (c, r) ← escape? r
      let (s, r) ← basic? fuel r
      some (c :: s, r)
    | c :: r =>
      if isPrintable c then do
        let (s, r) ← basic? fuel r
        some (c :: s, r)
      else none
    | [] => none

def literal? : List Char → Option (List Char × List Char)
  | [] => none
  | '\'' :: r => some ([], r)
  | c :: r =>
    if isPrintable c then (literal? r).map fun p => (c :: p.1, p.2) else none

def quotes (q : Char) (cs : List Char) : Nat := ((cs.take 5).takeWhile (· = q)).length

/-- after a backslash: what follows the blanks and line ends, if a line ends here -/
def continued? (cs : List Char) : Option (List Char) :=
  match newline? (skip cs) with
  | some r => some (r.dropWhile fun c => isSpace c || c = '\n' || c = '\r')
  | none => none

/-- the inside of a string of several lines between quotes `q`, and its end; escapes are read when
`escapes` is set -/
def lines? (q : Char) (escapes : Bool) : Nat → List Char → Option (List Char × List Char)
  | 0, _ => none
  | fuel + 1, cs =>
    match newline? cs with
    | some r => do
      let (s, r) ← lines? q escapes fuel r
      some ('\n' :: s, r)
    | none =>
      match cs with
      | [] => none
      | c :: r =>
        if c = q then
          let n := quotes q cs
          if 3 ≤ n then some (List.replicate (n - 3) q, cs.drop n)
          else do
            let (s, r) ← lines? q escapes fuel (cs.drop n)
            some (List.replicate n q ++ s, r)
        else if escapes ∧ c = '\\' then
          match continued? r with
          | some r => lines? q escapes fuel r
          | none => do
            let (k, r) ← escape? r
            let (s, r) ← lines? q escapes fuel r
            some (k :: s, r)
        else if isPrintable c then do
          let (s, r) ← lines? q escapes fuel r
          some (c :: s, r)
        else none

def dropNewline (cs : List Char) : List Char := (newline? cs).getD cs

def lineString? : List Char → Option (List Char × List Char)
  | '"' :: r => basic? (r.length + 1) r
  | '\'' :: r => literal? r
  | _ => none

def string? (cs : List Char) : Option (List Char × List Char) :=
  match cs with
  | '"' :: '"' :: '"' :: r => lines? '"' true (r.length + 1) (dropNewline r)
  | '\'' :: '\'' :: '\'' :: r => lines? '\'' false (r.length + 1) (dropNewline r)
  | _ => lineString? cs

/-! ## keys -/

def isBare (c : Char) : Bool := c.isAlphanum || c = '_' || c = '-'

def key? (cs : List Char) : Option (String × List Char) :=
  let bare := cs.takeWhile isBare
  if bare = [] then (lineString? cs).map fun p => (String.ofList p.1, p.2)
  else some (String.ofList bare, cs.dropWhile isBare)

/-! ## numbers -/

/-- further digits; single underscores may stand between digits -/
def moreDigits (isDigit : Char → Bool) : List Char → List Char × List Char
  | [] => ([], [])
  | '_' :: d :: r =>
    if isDigit d then let p := moreDigits isDigit r; (d :: p.1, p.2) else ([], '_' :: d :: r)
  | d :: r => if isDigit d then let p := moreDigits isDigit r; (d :: p.1, p.2) else ([], d :: r)

def digits? (isDigit : Char → Bool) : List Char → Option (List Char × List Char)
  | d :: r => if isDigit d then let p := moreDigits isDigit r; some (d :: p.1, p.2) else none
  | [] => none

def sign : List Char → Bool × List Char
  | '-' :: r => (true, r)
  | '+' :: r => (false, r)
  | cs => (false, cs)

def plainDigits? (cs : List Char) : Option (List Char × List Char) :=
  match digits? Char.isDigit cs with
  | some (ds, r) => if ds.head? = some '0' ∧ 1 < ds.length then none else some (ds, r)
  | none => none

def bounded? (negative : Bool) (base : Nat) (ds : List Char) : Option Int := do
  let n ← valueOf? base ds 0
  let n : Int := if negative then -(n : Int) else n
  if -(intBound : Int) ≤ n ∧ n < intBound then some n else none

def based? (base : Nat) (cs : List Char) : Option (Int × List Char) := do
  let (ds, r) ← digits? (fun c => (digit? base c).isSome) cs
  let n ← bounded? false base ds
  some (n, r)

def int? (cs : List Char) : Option (Int × List Char) :=
  match cs with
  | '0' :: 'x' :: r => based? 16 r
  | '0' :: 'o' :: r => based? 8 r
  | '0' :: 'b' :: r => based? 2 r
  | _ => do
    let (negative, r) := sign cs
    let (ds, r) ← plainDigits? r
    let n ← bounded? negative 10 ds
    some (n, r)

def fraction? : List Char → Option (List Char × List Char)
  | '.' :: r => digits? Char.isDigit r
  | cs => some ([], cs)

def exponent? : List Char → Option (Option Int × List Char)
  | c :: r =>
    if c = 'e' ∨ c = 'E' then do
      let (negative, r) := sign r
      let (ds, r) ← digits? Char.isDigit r
      let n : Int := Numeral.value ds
      some (some (if negative then -n else n), r)
    else some (none, c :: r)
  | [] => some (none, [])

/-- a number with a fraction or an exponent; one that is too large is refused unless it is
negative -/
def decimal? (cs : List Char) : Option (Binary64 × List Char) := do
  let (negative, r) := sign cs
  let (ds, r) ← plainDigits? r
  let (fs, r) ← fraction? r
  let (e, r) ← exponent? r
  if fs = [] ∧ e = none then none
  else
    let all := ds ++ fs
    let x :=
      Binary64.ofDecimal negative (Numeral.value all) all.length (e.getD 0 - (fs.length : Int))
    if x = .infinite false then none else some (x, r)

def float? (cs : List Char) : Option (Binary64 × List Char) :=
  match sign cs with
  | (negative, 'i' :: 'n' :: 'f' :: r) => some (.infinite negative, r)
  | (_, 'n' :: 'a' :: 'n' :: r) => some (.nan, r)
  | _ => decimal? cs

/-! ## dates and times -/

def fixed? (width : Nat) (cs : List Char) : Option (Nat × List Char) :=
  let ds := cs.take width
  if ds.length = width ∧ ds.all Char.isDigit then some (Numeral.value ds, cs.drop width) else none

def after? (c : Char) : List Char → Option (List Char)
  | d :: r => if d = c then some r else none
  | [] => none

def day? (cs : List Char) : Option (List Char × List Char) := do
  let (year, r) ← fixed? 4 cs
  let r ← after? '-' r
  let (month, r) ← fixed? 2 r
  let r ← after? '-' r
  let (day, r) ← fixed? 2 r
  if (Calendar.Date.mk year month day).isValid then some (cs.take 10, r) else none

/-- a fraction of a second, if one stands here: nine digits at most, without zeros at the end -/
def secondFraction? : List Char → Option (List Char × List Char)
  | '.' :: r =>
    let (ds, r) := Numeral.split r
    if ds = [] then none
    else
      let ds := ((ds.take 9).reverse.dropWhile (· = '0')).reverse
      some (if ds = [] then [] else '.' :: ds, r)
  | cs => some ([], cs)

def time? (cs : List Char) : Option (List Char × List Char) := do
  let (hour, r) ← fixed? 2 cs
  let r ← after? ':' r
  let (minute, r) ← fixed? 2 r
  let r ← after? ':' r
  let (second, r) ← fixed? 2 r
  let (fraction, r) ← secondFraction? r
  if hour < 24 ∧ minute < 60 ∧ second ≤ 60 then some (cs.take 8 ++ fraction, r) else none

def offset? (cs : List Char) : Option (List Char × List Char) :=
  match cs with
  | 'Z' :: r => some (['Z'], r)
  | 'z' :: r => some (['Z'], r)
  | s :: r =>
    if s = '+' ∨ s = '-' then do
      let (hour, r) ← fixed? 2 r
      let r ← after? ':' r
      let (minute, r) ← fixed? 2 r
      if hour < 24 ∧ minute < 60 then
        let s := if hour = 0 ∧ minute = 0 then '+' else s
        some (s :: (Numeral.padded 2 hour ++ ':' :: Numeral.padded 2 minute), r)
      else none
    else some ([], cs)
  | [] => some ([], [])

def timeOfDate? (cs : List Char) : Option (List Char × List Char) :=
  match cs with
  | c :: r =>
    if c = 'T' ∨ c = 't' ∨ c = ' ' then do
      let (time, r) ← time? r
      let (offset, r) ← offset? r
      some ('T' :: (time ++ offset), r)
    else none
  | [] => none

def date? (cs : List Char) : Option (List Char × List Char) :=
  match day? cs with
  | some (day, r) =>
    match timeOfDate? r with
    | some (time, r) => some (day ++ time, r)
    | none => some (day, r)
  | none => time? cs

def plain? (cs : List Char) : Option (Toml × List Char) :=
  match cs with
  | 't' :: 'r' :: 'u' :: 'e' :: r => some (.bool true, r)
  | 'f' :: 'a' :: 'l' :: 's' :: 'e' :: r => some (.bool false, r)
  | _ =>
    match date? cs with
    | some (s, r) => some (.text (String.ofList s), r)
    | none =>
      match float? cs with
      | some (x, r) => some (.float x, r)
      | none => (int? cs).map fun p => (.int p.1, p.2)

end Rota.Toml.Scalar
