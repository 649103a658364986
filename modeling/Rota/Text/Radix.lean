import Rota.Text.Raw

/-!
# Integers in several bases

An integer may have blanks and one sign before its digits.  Where the base is open, `0x` begins
hexadecimal digits, another `0` octal ones, and everything else is decimal.

* `Radix.digits`     the digits of a number in a base;
* `Radix.read?`      the integer at the front of a text, and what follows it;
* `Radix.clamped`    an integer kept within 64 bits;
* `Radix.wrapped`    the same without a sign: a minus sign counts down from the largest number.
-/

namespace Rota.Text.Radix

def digit? (c : Char) : Option Nat :=
  if c.isDigit then some (c.toNat - 48)
  else if decide ('a' ≤ c) && decide (c ≤ 'z') then some (c.toNat - 87)
  else if decide ('A' ≤ c) && decide (c ≤ 'Z') then some (c.toNat - 55)
  else none

def isDigit (base : Nat) (c : Char) : Bool :=
  match digit? c with
  | some d => decide (d < base)
  | none => false

def value (base : Nat) (ds : Raw) : Nat :=
  ds.foldl (fun n c => n * base + (digit? c).getD 0) 0

def digits (base : Nat) (isUpper : Bool) (n : Nat) : Raw :=
  let ds := Nat.toDigits base n
  if isUpper then ds.map Char.toUpper else ds

def openBase : Raw → Nat × Raw
  | '0' :: c :: d :: r =>
    if (c = 'x' || c = 'X') && isDigit 16 d then (16, d :: r) else (8, '0' :: c :: d :: r)
  | '0' :: r => (8, '0' :: r)
  | r => (10, r)

/-- the integer at the front of a text, and what follows it; without a base it is open -/
def read? (base : Option Nat) (r : Raw) : Option (Int × Raw) :=
  let r := r.dropWhile Raw.isSpace
  let (isNegative, r) := match r with
    | '-' :: r => (true, r)
    | '+' :: r => (false, r)
    | r => (false, r)
  let (b, r) := match base with
    | some b => (b, r)
    | none => openBase r
  let ds := r.takeWhile (isDigit b)
  if ds = [] then none
  else
    let n : Int := value b ds
    some (if isNegative then -n else n, r.dropWhile (isDigit b))

def maxSigned : Int := 9223372036854775807

def wordCount : Nat := 18446744073709551616

def clamped (n : Int) : Int × Bool :=
  if maxSigned < n then (maxSigned, true)
  else if n < -maxSigned - 1 then (-maxSigned - 1, true)
  else (n, false)

def wrapped (n : Int) : Nat × Bool :=
  if wordCount ≤ n.natAbs then (wordCount - 1, true) else ((n % wordCount).toNat, false)

end Rota.Text.Radix
