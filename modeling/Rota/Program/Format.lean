import Rota.Number.Shortest
import Rota.Text.Radix

/-!
# Formatted values

A conversion says how a value is written: its flags, its least width and its precision.

* `Conversion`              flags, width and precision;
* `Conversion.text`         a text, cut at the precision;
* `Conversion.signed`       a signed integer;
* `Conversion.unsigned`     an unsigned one in a base;
* `Conversion.Style`        as many places as the precision says, an exponent, or the shorter of
  the two without zeros at the end;
* `Conversion.binary`       a binary number in one of these styles.

Decimals of binary numbers are exact before they are rounded, and a tie goes to the even digit.
-/

namespace Rota.Program

open Text

structure Conversion where
  left : Bool := false
  plus : Bool := false
  space : Bool := false
  /-- the sign of the base is shown, and the zeros of a fraction are kept -/
  alternate : Bool := false
  zero : Bool := false
  width : Nat := 0
  precision : Option Nat := none
deriving DecidableEq, Repr

namespace Conversion

def setFlag (v : Conversion) (c : Char) : Conversion :=
  match c with
  | '-' => { v with left := true }
  | '+' => { v with plus := true }
  | ' ' => { v with space := true }
  | '#' => { v with alternate := true }
  | '0' => { v with zero := true }
  | _ => v

def filled (v : Conversion) (r : Raw) : Raw :=
  let blanks := List.replicate (v.width - r.length) ' '
  if v.left then r ++ blanks else blanks ++ r

/-- a sign and digits, filled with zeros between them where zeros fill the width -/
def joined (v : Conversion) (fillsZeros : Bool) (sign ds : Raw) : Raw :=
  if v.zero && fillsZeros && !v.left then
    sign ++ List.replicate (v.width - (sign.length + ds.length)) '0' ++ ds
  else v.filled (sign ++ ds)

def sign (v : Conversion) (isNegative : Bool) : Raw :=
  if isNegative then ['-'] else if v.plus then ['+'] else if v.space then [' '] else []

def text (v : Conversion) (r : Raw) : Raw :=
  v.filled (match v.precision with
    | some n => r.take n
    | none => r)

def precise (v : Conversion) (isZero : Bool) (ds : Raw) : Raw :=
  match v.precision with
  | none => ds
  | some n => if n = 0 ∧ isZero then [] else List.replicate (n - ds.length) '0' ++ ds

def signed (v : Conversion) (n : Int) : Raw :=
  v.joined v.precision.isNone (v.sign (decide (n < 0)))
    (v.precise (n = 0) (Numeral.text n.natAbs))

def unsigned (v : Conversion) (base : Nat) (isUpper : Bool) (n : Nat) : Raw :=
  let ds := v.precise (n = 0) (Radix.digits base isUpper n)
  let ds := if v.alternate ∧ base = 8 ∧ ds.head? ≠ some '0' then '0' :: ds else ds
  let front := if v.alternate ∧ base = 16 ∧ n ≠ 0 then ['0', if isUpper then 'X' else 'x'] else []
  v.joined v.precision.isNone front ds

def pointed (v : Conversion) (places : Nat) (ds : Raw) : Raw :=
  let ds := List.replicate (places + 1 - ds.length) '0' ++ ds
  let front := ds.take (ds.length - places)
  if places = 0 then if v.alternate then front ++ ['.'] else front
  else front ++ '.' :: ds.drop (ds.length - places)

/-- `num / den` in units of `10^e`, rounded -/
def roundedAt (num den : Nat) (e : Int) : Nat :=
  if 0 ≤ e then Binary64.roundEven num (den * Nat.pow 10 e.toNat)
  else Binary64.roundEven (num * Nat.pow 10 (-e).toNat) den

def scientificDigits (num den places : Nat) : Raw × Int :=
  if num = 0 then (List.replicate (places + 1) '0', 0)
  else
    let e := Binary64.decadeOf num den
    let ds := Numeral.text (roundedAt num den (e - (places : Int)))
    if ds.length = places + 2 then (ds.dropLast, e + 1) else (ds, e)

def exponentText (isUpper : Bool) (e : Int) : Raw :=
  (if isUpper then 'E' else 'e') :: (if e < 0 then '-' else '+') :: Numeral.padded 2 e.natAbs

def fixedDigits (v : Conversion) (num den places : Nat) : Raw :=
  v.pointed places (Numeral.text (roundedAt num den (-(places : Int))))

def scientificText (v : Conversion) (isUpper : Bool) (num den places : Nat) : Raw :=
  let (ds, e) := scientificDigits num den places
  v.pointed places ds ++ exponentText isUpper e

def stripped (ds : Raw) : Raw :=
  if ds.contains '.' then
    let ds := (ds.reverse.dropWhile (· = '0')).reverse
    if ds.getLast? = some '.' then ds.dropLast else ds
  else ds

def generalText (v : Conversion) (isUpper : Bool) (num den : Nat) (precision : Nat) : Raw :=
  let p := max precision 1
  let e := (scientificDigits num den (p - 1)).2
  if e < -4 ∨ (p : Int) ≤ e then
    let (ds, e) := scientificDigits num den (p - 1)
    let front := v.pointed (p - 1) ds
    (if v.alternate then front else stripped front) ++ exponentText isUpper e
  else
    let front := v.fixedDigits num den ((p : Int) - 1 - e).toNat
    if v.alternate then front else stripped front

inductive Style where
  | fixed
  | scientific
  | general
deriving DecidableEq, Repr

def binary (v : Conversion) (style : Style) (isUpper : Bool) (x : Binary64) : Raw :=
  let word (s : String) : Raw := if isUpper then (raw s).map Char.toUpper else raw s
  match x with
  | .nan => v.joined false (v.sign false) (word "nan")
  | .infinite isNegative => v.joined false (v.sign isNegative) (word "inf")
  | .finite isNegative m q =>
    let (num, den) := Binary64.scaled m q
    let p := v.precision.getD 6
    let ds := match style with
      | .fixed => v.fixedDigits num den p
      | .scientific => v.scientificText isUpper num den p
      | .general => v.generalText isUpper num den p
    v.joined true (v.sign isNegative) ds

/-! ## small laws -/

end Conversion

end Rota.Program
