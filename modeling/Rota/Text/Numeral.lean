/-!
# Decimal numerals

Numerals are runs of the ten ASCII digits.  This file gives

* `Numeral.text`      the numeral of a number, without leading zeros;
* `Numeral.padded`    the same, filled with zeros to a width;
* `Numeral.value`     the number a run of digits stands for;
* `Numeral.below?`    that number, if it is below a bound;
* `Numeral.unsigned?` a whole text as an unsigned number (one plus sign allowed);
* `Numeral.signed?`   a whole text as a signed number.

`value_text`: reading what was written gives the number back.
-/

namespace Rota.Text.Numeral

def text (n : Nat) : List Char := Nat.toDigits 10 n

def padded (width n : Nat) : List Char :=
  List.replicate (width - (text n).length) '0' ++ text n

def value (ds : List Char) : Nat := Nat.ofDigitChars 10 ds 0

def split (cs : List Char) : List Char × List Char :=
  (cs.takeWhile Char.isDigit, cs.dropWhile Char.isDigit)

def below? (bound : Nat) (ds : List Char) : Option Nat :=
  if value ds < bound then some (value ds) else none

def isNumeral (cs : List Char) : Bool := !cs.isEmpty && cs.all Char.isDigit

/-- a whole text as an unsigned number below `bound`: digits, with at most one plus sign before -/
def unsigned? (bound : Nat) (cs : List Char) : Option Nat :=
  let ds := match cs with
    | '+' :: r => r
    | _ => cs
  if isNumeral ds then below? bound ds else none

/-- a whole text as a signed number in `-bound ≤ n < bound`: digits, with at most one sign before -/
def signed? (bound : Nat) (cs : List Char) : Option Int :=
  match cs with
  | '-' :: ds =>
    if isNumeral ds && decide (value ds ≤ bound) then some (-(value ds : Int)) else none
  | _ => (unsigned? bound cs).map Int.ofNat

def integer (n : Int) : List Char :=
  if n < 0 then '-' :: text n.natAbs else text n.natAbs

/-! ## small laws -/

theorem value_text (n : Nat) : value (text n) = n := Nat.ofDigitChars_ten_toDigits

theorem text_ne_nil (n : Nat) : text n ≠ [] := Nat.toDigits_ne_nil

theorem isDigit_of_mem_text {n : Nat} {c : Char} (h : c ∈ text n) : c.isDigit = true :=
  Nat.isDigit_of_mem_toDigits (by decide) (by decide) h

theorem split_append (cs : List Char) : (split cs).1 ++ (split cs).2 = cs :=
  List.takeWhile_append_dropWhile

end Rota.Text.Numeral
