/-!
# Binary floating point numbers of 64 bits

* `Binary64`            a number `±m · 2^q` with `m < 2^53`, an infinity, or not a number;
* `Binary64.nearest`    the number nearest to a quotient, a tie going to the even `m`;
* `Binary64.add`        the sum, rounded once;
* `Binary64.ofDecimal`  the number nearest to a decimal `n · 10^e`;
* `Binary64.toNat`      the nearest unsigned integer, a half going up, kept inside a bound.

Everything is computed exactly on integers and rounded at the end.
-/

namespace Rota

inductive Binary64 where
  /-- `m · 2^q`, negative or not; `m` has 53 bits unless `q` is the least exponent -/
  | finite (negative : Bool) (m : Nat) (q : Int)
  | infinite (negative : Bool)
  | nan
deriving DecidableEq, Repr

namespace Binary64

def minExponent : Int := -1074

def maxExponent : Int := 971

def precision : Nat := 53

def zero (negative : Bool) : Binary64 := .finite negative 0 minExponent

/-- a quotient rounded to an integer, a tie going to the even one -/
def roundEven (num den : Nat) : Nat :=
  let d := num / den
  let r := num % den
  if 2 * r < den then d
  else if den < 2 * r then d + 1
  else if d % 2 = 0 then d else d + 1

def scaled (n : Nat) (q : Int) : Nat × Nat :=
  if 0 ≤ q then (n * Nat.pow 2 q.toNat, 1) else (n, Nat.pow 2 (-q).toNat)

def exponentOf (num den : Nat) : Int :=
  let e : Int := (num.log2 : Int) - (den.log2 : Int)
  let (a, b) := scaled den e
  if a ≤ num * b then e else e - 1

/-- the number nearest to `num / den` -/
def nearest (negative : Bool) (num den : Nat) : Binary64 :=
  if num = 0 then zero negative
  else
    let q := max (exponentOf num den - (precision - 1 : Nat)) minExponent
    let (a, b) := scaled den q
    let m := roundEven (num * b) a
    let (m, q) := if m = Nat.pow 2 precision then (Nat.pow 2 (precision - 1), q + 1) else (m, q)
    if maxExponent < q then .infinite negative else .finite negative m q

def ofNat (n : Nat) : Binary64 := nearest false n 1

def ofInt (n : Int) : Binary64 := nearest (decide (n < 0)) n.natAbs 1

/-- decimals of more than this many digits before or after the point are out of reach -/
def decimalReach : Int := 400

def ofDecimal (negative : Bool) (n : Nat) (digits : Nat) (e : Int) : Binary64 :=
  if n = 0 then zero negative
  else if decimalReach < e + (digits : Int) then .infinite negative
  else if e + (digits : Int) < -decimalReach then zero negative
  else if 0 ≤ e then nearest negative (n * Nat.pow 10 e.toNat) 1
  else nearest negative n (Nat.pow 10 (-e).toNat)

def units (negative : Bool) (m : Nat) (q base : Int) : Int :=
  let n : Int := (m * Nat.pow 2 (q - base).toNat : Nat)
  if negative then -n else n

/-- the sum, rounded once; it is `-0` only for two negative zeros -/
def add : Binary64 → Binary64 → Binary64
  | .nan, _ => .nan
  | _, .nan => .nan
  | .infinite s, .infinite t => if s = t then .infinite s else .nan
  | .infinite s, _ => .infinite s
  | _, .infinite t => .infinite t
  | .finite s m q, .finite t n p =>
    let base := min q p
    let sum := units s m q base + units t n p base
    let (a, b) := scaled sum.natAbs base
    if sum = 0 then zero (s && t) else nearest (decide (sum < 0)) a b

def isNonZero : Binary64 → Bool
  | .finite _ m _ => decide (m ≠ 0)
  | _ => true

def toNat (bound : Nat) : Binary64 → Nat
  | .nan => 0
  | .infinite true => 0
  | .infinite false => bound - 1
  | .finite true _ _ => 0
  | .finite false m q =>
    let (a, b) := scaled m q
    min ((2 * a + b) / (2 * b)) (bound - 1)

end Binary64

end Rota
