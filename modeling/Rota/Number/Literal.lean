import Rota.Number.Binary64
import Rota.Text.Numeral

/-!
# Binary numbers, read

A number is a sign or none, digits with at most one point among them, and an exponent or none; or it
is one of the words `inf`, `infinity` and `nan` in any case.  At least one digit is needed.

* `Binary64.parse?`   the number nearest to a text.
-/

namespace Rota.Binary64

open Text

def exponent? (cs : List Char) : Option Int :=
  let (negative, ds) := match cs with
    | '-' :: r => (true, r)
    | '+' :: r => (false, r)
    | r => (false, r)
  if Numeral.isNumeral ds then
    let n : Int := Numeral.value ds
    some (if negative then -n else n)
  else none

def magnitude? (negative : Bool) (cs : List Char) : Option Binary64 :=
  let (whole, r) := Numeral.split cs
  let (fraction, r) := match r with
    | '.' :: r => Numeral.split r
    | r => ([], r)
  let ds := whole ++ fraction
  let e := match r with
    | [] => some 0
    | c :: r => if c = 'e' ∨ c = 'E' then exponent? r else none
  if ds = [] then none
  else
    e.map fun e => ofDecimal negative (Numeral.value ds) ds.length (e - (fraction.length : Int))

def word? (negative : Bool) (cs : List Char) : Option Binary64 :=
  let s := String.ofList (cs.map Char.toLower)
  if s = "inf" ∨ s = "infinity" then some (.infinite negative)
  else if s = "nan" then some .nan
  else none

def parse? (s : String) : Option Binary64 :=
  let (negative, cs) := match s.toList with
    | '-' :: r => (true, r)
    | '+' :: r => (false, r)
    | r => (false, r)
  match word? negative cs with
  | some x => some x
  | none => magnitude? negative cs

end Rota.Binary64
