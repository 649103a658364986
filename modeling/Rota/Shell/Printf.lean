import Rota.Program.Escape
import Rota.Program.Format
import Rota.Program.Sleep

/-!
# Printing by a format

A format holds bytes, escapes and conversions.  Each conversion takes an argument; a format is used
again as long as arguments are left, and missing arguments count as empty or zero.

* `Printf.Printed`   what was printed, the warnings, and the fault that ended it, if any;
* `Printf.run`       prints arguments by a format.
-/

namespace Rota.Shell.Printf

open Text Program

structure Printed where
  args : List Raw
  done : Raw := []
  warnings : List Raw := []
  fault : Option Raw := none
  isStopped : Bool := false

namespace Printed

def take (p : Printed) : Option Raw × Printed :=
  match p.args with
  | [] => (none, p)
  | r :: rest => (some r, { p with args := rest })

def put (p : Printed) (r : Raw) : Printed := { p with done := r.reverse ++ p.done }

def warn (p : Printed) (r : Raw) (text : String) : Printed :=
  { p with warnings := p.warnings ++ [r ++ raw text] }

/-- warns about a number that does not fill its argument, or is too large -/
def check (p : Printed) (r : Raw) (rest : Option Raw) (isTooLarge : Bool) : Printed :=
  match rest with
  | none => if r = [] then p else p.warn r ": expected numeric value"
  | some (_ :: _) => p.warn r ": not completely converted"
  | some [] => if isTooLarge then p.warn r ": Numerical result out of range" else p

def quotedByte? (r : Raw) : Option Nat :=
  match r with
  | c :: r => if c = '"' ∨ c = '\'' then some ((r.head?.map Char.toNat).getD 0) else none
  | [] => none

def takeSigned (p : Printed) : Int × Printed :=
  match p.take with
  | (none, p) => (0, p)
  | (some r, p) =>
    match quotedByte? r with
    | some n => (n, p)
    | none =>
      match Radix.read? none r with
      | none => (0, p.check r none false)
      | some (n, rest) =>
        let (n, isTooLarge) := Radix.clamped n
        (n, p.check r (some rest) isTooLarge)

def takeUnsigned (p : Printed) : Nat × Printed :=
  match p.take with
  | (none, p) => (0, p)
  | (some r, p) =>
    match quotedByte? r with
    | some n => (n, p)
    | none =>
      match Radix.read? none r with
      | none => (0, p.check r none false)
      | some (n, rest) =>
        let (n, isTooLarge) := Radix.wrapped n
        (n, p.check r (some rest) isTooLarge)

def binaryOf (isNegative : Bool) (x : Scientific) : Binary64 :=
  if x.power = 10 then .ofDecimal isNegative x.mantissa x.digits x.exponent
  else if 0 ≤ x.exponent then
    .nearest isNegative (x.mantissa * Nat.pow x.power (min x.exponent.toNat 2000)) 1
  else
    .nearest isNegative x.mantissa
      (Nat.pow x.power (min (-x.exponent).toNat (2000 + x.mantissa.log2)))

def isOutside : Binary64 → Bool
  | .finite _ m _ => decide (m < Nat.pow 2 (Binary64.precision - 1))
  | _ => true

def binary? (r : Raw) : Option (Binary64 × Bool × Raw) :=
  let r := r.dropWhile Raw.isSpace
  let (isNegative, r) := match r with
    | '-' :: r => (true, r)
    | '+' :: r => (false, r)
    | r => (false, r)
  match Sleep.endless? r with
  | some rest => some (.infinite isNegative, false, rest)
  | none =>
    if (r.take 3).map Char.toLower = "nan".toList then some (.nan, false, r.drop 3)
    else
      (Scientific.read? r).map fun n =>
        let x := binaryOf isNegative n.1
        (x, decide (n.1.mantissa ≠ 0) && isOutside x, n.2)

def takeBinary (p : Printed) : Binary64 × Printed :=
  match p.take with
  | (none, p) => (.zero false, p)
  | (some r, p) =>
    match quotedByte? r with
    | some n => (.ofNat n, p)
    | none =>
      match binary? r with
      | none => (.zero false, p.check r none false)
      | some (x, isOutside, rest) => (x, p.check r (some rest) isOutside)

end Printed

def size (format : Raw) (p : Printed) : Int × Raw × Printed :=
  match format with
  | '*' :: r => let (n, p) := p.takeSigned; (n, r, p)
  | r => (Numeral.value (r.takeWhile Char.isDigit), r.dropWhile Char.isDigit, p)

def conversion (format : Raw) (p : Printed) : Conversion × Raw × Printed :=
  let isFlag (c : Char) : Bool := "#-+ 0".toList.contains c
  let v := (format.takeWhile isFlag).foldl Conversion.setFlag ({} : Conversion)
  let (width, r, p) := size (format.dropWhile isFlag) p
  let v := { v with width := width.natAbs, left := v.left || decide (width < 0) }
  match r with
  | '.' :: r =>
    let (n, r, p) := size r p
    ({ v with precision := if n < 0 then none else some n.toNat }, r, p)
  | r => (v, r, p)

/-- prints an argument by a letter; there is no answer where the letter has no meaning -/
def convert (v : Conversion) (letter : Char) (p : Printed) : Option Printed :=
  let signed : Printed := let (n, p) := p.takeSigned; p.put (v.signed n)
  let unsigned (base : Nat) (isUpper : Bool) : Printed :=
    let (n, p) := p.takeUnsigned
    p.put (v.unsigned base isUpper n)
  let binary (style : Conversion.Style) (isUpper : Bool) : Printed :=
    let (x, p) := p.takeBinary
    p.put (v.binary style isUpper x)
  match letter with
  | 's' => let (r, p) := p.take; some (p.put (v.text (r.getD [])))
  | 'b' =>
    let (r, p) := p.take
    let (r, stops) := Escape.printed (r.getD [])
    some { p.put (v.text r) with isStopped := stops }
  | 'c' =>
    let (r, p) := p.take
    some (p.put (v.filled [((r.getD []).head?).getD '\x00']))
  | 'd' => some signed
  | 'i' => some signed
  | 'o' => some (unsigned 8 false)
  | 'u' => some (unsigned 10 false)
  | 'x' => some (unsigned 16 false)
  | 'X' => some (unsigned 16 true)
  | 'f' => some (binary .fixed false)
  | 'F' => some (binary .fixed true)
  | 'e' => some (binary .scientific false)
  | 'E' => some (binary .scientific true)
  | 'g' => some (binary .general false)
  | 'G' => some (binary .general true)
  | _ => none

/-- prints by a format once; `fuel` is at least its length -/
def pass : Nat → Raw → Printed → Printed
  | 0, _, p => p
  | _, [], p => p
  | fuel + 1, '\\' :: r, p =>
    let (c, rest) := Escape.one r
    pass fuel rest (p.put [c])
  | fuel + 1, '%' :: '%' :: r, p => pass fuel r (p.put ['%'])
  | fuel + 1, '%' :: r, p =>
    let (v, rest, q) := conversion r p
    match rest with
    | [] => { q with fault := some (raw "missing format character") }
    | c :: rest =>
      match convert v c q with
      | none =>
        let directive := '%' :: r.take (r.length - rest.length)
        { q with fault := some (directive ++ raw ": invalid directive") }
      | some q => if q.isStopped then q else pass fuel rest q
  | fuel + 1, c :: r, p => pass fuel r (p.put [c])

def passes (format : Raw) : Nat → Printed → Printed
  | 0, p => p
  | fuel + 1, p =>
    let q := pass (format.length + 1) format p
    if q.fault.isSome || q.isStopped || q.args = [] || q.args.length = p.args.length then q
    else passes format fuel q

def run (format : Raw) (args : List Raw) : Printed :=
  passes format (args.length + 1) { args := args }

/-! ## small laws -/

end Rota.Shell.Printf
