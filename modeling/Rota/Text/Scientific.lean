import Rota.Text.Numeral
import Rota.Text.Radix

/-!
# Numbers with a point and an exponent

A number is decimal, or hexadecimal after `0x`.  It may have a point among its digits and an
exponent after them, which counts powers of ten after `e`, and powers of two after `p`.

* `Scientific`           a number `mantissa · power ^ exponent`;
* `Scientific.read?`     the number at the front of a text, and what follows it;
* `Scientific.ceiling`   a multiple of a number in whole numbers, rounded up.
-/

namespace Rota.Text

structure Scientific where
  mantissa : Nat
  digits : Nat
  power : Nat
  exponent : Int
deriving DecidableEq, Repr

namespace Scientific

/-- an exponent after its letter, and what follows; where there are no digits, the letter is none -/
def exponentOf (letter : Char) (r : Raw) : Int × Raw :=
  match r with
  | c :: rest =>
    if c.toLower = letter then
      let (isNegative, ds) := match rest with
        | '-' :: ds => (true, ds)
        | '+' :: ds => (false, ds)
        | ds => (false, ds)
      match Numeral.split ds with
      | ([], _) => (0, r)
      | (ds, rest) =>
        let n : Int := Numeral.value ds
        (if isNegative then -n else n, rest)
    else (0, r)
  | [] => (0, [])

structure Writing where
  base : Nat
  letter : Char
  power : Nat
  perDigit : Nat

def decimal : Writing := ⟨10, 'e', 10, 1⟩

def hexadecimal : Writing := ⟨16, 'p', 2, 4⟩

def digitsOf (w : Writing) (r : Raw) : Raw × Raw :=
  (r.takeWhile (Radix.isDigit w.base), r.dropWhile (Radix.isDigit w.base))

def unmarked? (w : Writing) (r : Raw) : Option (Scientific × Raw) :=
  let (whole, r) := digitsOf w r
  let (part, r) := match r with
    | '.' :: r => digitsOf w r
    | r => ([], r)
  let ds := whole ++ part
  if ds = [] then none
  else
    let (e, rest) := exponentOf w.letter r
    some
      (⟨Radix.value w.base ds, ds.length, w.power, e - (part.length * w.perDigit : Nat)⟩, rest)

/-- the number at the front of a text, and what follows it; where no number follows the mark of a
base, the nought before its letter is the number -/
def read? (r : Raw) : Option (Scientific × Raw) :=
  match r with
  | '0' :: c :: rest =>
    match if c.toLower = 'x' then unmarked? hexadecimal rest else none with
    | some n => some n
    | none => unmarked? decimal r
  | _ => unmarked? decimal r

def reach : Nat := 400

def ceiling (x : Scientific) (k : Nat) : Nat :=
  let n := x.mantissa * k
  if 0 ≤ x.exponent then n * Nat.pow x.power (min x.exponent.toNat reach)
  else
    let den := Nat.pow x.power (min (-x.exponent).toNat (reach + n.log2))
    (n + den - 1) / den

/-! ## small laws -/

end Scientific

end Rota.Text
