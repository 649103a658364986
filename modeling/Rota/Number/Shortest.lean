import Rota.Number.Binary64
import Rota.Text.Numeral

/-!
# The shortest decimal of a binary number

A number is written with the fewest digits that read back as it; of several such decimals the
nearest one is taken, and of two equally near ones the upper one.  The digits are written in place,
without an exponent, and without a point when the number is an integer.

* `Binary64.shortest`   the digits and the power of ten;
* `Binary64.text`       the text.

The decimals that read back are those in an interval around the number; it holds its ends when the
number is even.  On the grid of the decimals with a given count of digits it is enough to look at
the two neighbours of the number.
-/

namespace Rota.Binary64

open Text

/-- the decimals that read back as a number, all over one denominator: the ends and the number -/
structure Interval where
  low : Nat
  value : Nat
  high : Nat
  den : Nat
  closed : Bool

def interval (m : Nat) (q : Int) : Interval :=
  let below := if m = Nat.pow 2 (precision - 1) ∧ minExponent < q then 1 else 2
  let (a, den) := scaled 1 (q - 2)
  ⟨(4 * m - below) * a, 4 * m * a, (4 * m + 2) * a, den, m % 2 = 0⟩

def Interval.holds (i : Interval) (num den : Nat) : Bool :=
  if i.closed then decide (i.low * den ≤ num * i.den ∧ num * i.den ≤ i.high * den)
  else decide (i.low * den < num * i.den ∧ num * i.den < i.high * den)

def decadeOf (num den : Nat) : Int :=
  if den ≤ num then ((Numeral.text (num / den)).length : Int) - 1
  else -((Numeral.text ((den + num - 1) / num - 1)).length : Int)

def tens (n : Nat) (e : Int) : Nat × Nat :=
  if 0 ≤ e then (n * Nat.pow 10 e.toNat, 1) else (n, Nat.pow 10 (-e).toNat)

/-- the neighbour of the number on the grid of the multiples of `10^e` that reads back -/
def Interval.onGrid? (i : Interval) (e : Int) : Option Nat :=
  let (a, b) := tens 1 e
  let num := i.value * b
  let den := i.den * a
  let d := num / den
  let holds (n : Nat) : Bool := let (a, b) := tens n e; i.holds a b
  if holds d then
    if holds (d + 1) ∧ den ≤ 2 * (num % den) then some (d + 1) else some d
  else if holds (d + 1) then some (d + 1)
  else none

/-- the first of the counts `n`, `n + 1`, … of digits that is enough -/
def Interval.digits (i : Interval) (decade : Int) : Nat → Nat → Nat × Int
  | 0, n =>
    let e := decade + 1 - (n : Int)
    ((i.onGrid? e).getD 0, e)
  | tries + 1, n =>
    let e := decade + 1 - (n : Int)
    match i.onGrid? e with
    | some d => (d, e)
    | none => i.digits decade tries (n + 1)

def mostDigits : Nat := 17

/-- the digits and the power of ten of `m · 2^q`, for a positive `m` -/
def shortest (m : Nat) (q : Int) : Nat × Int :=
  let i := interval m q
  i.digits (decadeOf i.value i.den) (mostDigits - 1) 1

def inPlace (d : Nat) (e : Int) : List Char :=
  let ds := Numeral.text d
  if 0 ≤ e then ds ++ List.replicate e.toNat '0'
  else
    let places := (-e).toNat
    let ds := List.replicate (places + 1 - ds.length) '0' ++ ds
    let whole := ds.take (ds.length - places)
    let fraction := ((ds.drop (ds.length - places)).reverse.dropWhile (· = '0')).reverse
    if fraction = [] then whole else whole ++ '.' :: fraction

def sign (negative : Bool) : List Char := if negative then ['-'] else []

def chars : Binary64 → List Char
  | .nan => ['N', 'a', 'N']
  | .infinite negative => sign negative ++ ['i', 'n', 'f']
  | .finite negative m q =>
    sign negative ++ (if m = 0 then ['0'] else let p := shortest m q; inPlace p.1 p.2)

def text (x : Binary64) : String := String.ofList x.chars

end Rota.Binary64
