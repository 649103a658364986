import Rota.Text.Numeral
import Rota.Text.Radix

/-!
# Arithmetic expressions

Expressions are integers of 64 bits, names, and operators.  Numbers may be hexadecimal or octal; a
name stands for the number in its value, and nothing counts as zero.

* `Arithmetic.tokens`     the tokens of a text;
* `Arithmetic.value?`     the value of a text, and the names that were given values.

An expression is computed while it is read.  What a condition passes over is read, but has no
effect.
-/

namespace Rota.Shell.Arithmetic

open Text

inductive Operator where
  | times
  | divide
  | remainder
  | plus
  | minus
  | left
  | right
  | less
  | lessEqual
  | greater
  | greaterEqual
  | equal
  | different
  | and
  | xor
  | or
deriving DecidableEq, Repr

namespace Operator

/-- how weakly an operator binds -/
def rank : Operator → Nat
  | .times => 0
  | .divide => 0
  | .remainder => 0
  | .plus => 1
  | .minus => 1
  | .left => 2
  | .right => 2
  | .less => 3
  | .lessEqual => 3
  | .greater => 3
  | .greaterEqual => 3
  | .equal => 4
  | .different => 4
  | .and => 5
  | .xor => 6
  | .or => 7

def ranks : Nat := 8

end Operator

inductive Token where
  | number (n : Int64)
  | name (r : Raw)
  | binary (o : Operator)
  | assign (o : Option Operator)
  | andAnd
  | orOr
  | bang
  | tilde
  | question
  | colon
  | openParen
  | closeParen
  | bad
deriving DecidableEq, Repr

inductive Fault where
  | noPrimary
  | noEnd
  | noParen
  | noColon
  | byZero
  | noNumber (text : Raw)
deriving DecidableEq, Repr

def Fault.text (expression : Raw) : Fault → Raw
  | .noNumber r => raw "Illegal number: " ++ r
  | f =>
    let what := match f with
      | .noPrimary => "expecting primary"
      | .noEnd => "expecting EOF"
      | .noParen => "expecting ')'"
      | .noColon => "expecting ':'"
      | _ => "division by zero"
    raw "arithmetic expression: " ++ raw what ++ raw ": \"" ++ expression ++ ['"']

def clamp (n : Int) : Int64 := Int64.ofInt (Radix.clamped n).1

def sign? : Raw → Option (Token × Raw)
  | '<' :: '<' :: '=' :: r => some (.assign (some .left), r)
  | '<' :: '<' :: r => some (.binary .left, r)
  | '<' :: '=' :: r => some (.binary .lessEqual, r)
  | '<' :: r => some (.binary .less, r)
  | '>' :: '>' :: '=' :: r => some (.assign (some .right), r)
  | '>' :: '>' :: r => some (.binary .right, r)
  | '>' :: '=' :: r => some (.binary .greaterEqual, r)
  | '>' :: r => some (.binary .greater, r)
  | '=' :: '=' :: r => some (.binary .equal, r)
  | '=' :: r => some (.assign none, r)
  | '!' :: '=' :: r => some (.binary .different, r)
  | '!' :: r => some (.bang, r)
  | '&' :: '&' :: r => some (.andAnd, r)
  | '&' :: '=' :: r => some (.assign (some .and), r)
  | '&' :: r => some (.binary .and, r)
  | '|' :: '|' :: r => some (.orOr, r)
  | '|' :: '=' :: r => some (.assign (some .or), r)
  | '|' :: r => some (.binary .or, r)
  | '*' :: '=' :: r => some (.assign (some .times), r)
  | '*' :: r => some (.binary .times, r)
  | '/' :: '=' :: r => some (.assign (some .divide), r)
  | '/' :: r => some (.binary .divide, r)
  | '%' :: '=' :: r => some (.assign (some .remainder), r)
  | '%' :: r => some (.binary .remainder, r)
  | '+' :: '=' :: r => some (.assign (some .plus), r)
  | '+' :: r => some (.binary .plus, r)
  | '-' :: '=' :: r => some (.assign (some .minus), r)
  | '-' :: r => some (.binary .minus, r)
  | '^' :: '=' :: r => some (.assign (some .xor), r)
  | '^' :: r => some (.binary .xor, r)
  | '~' :: r => some (.tilde, r)
  | '?' :: r => some (.question, r)
  | ':' :: r => some (.colon, r)
  | '(' :: r => some (.openParen, r)
  | ')' :: r => some (.closeParen, r)
  | _ => none

def tokensFrom : Nat → Raw → List Token
  | 0, _ => []
  | _, [] => []
  | fuel + 1, c :: r =>
    if c = ' ' ∨ c = '\t' ∨ c = '\n' then tokensFrom fuel r
    else if c.isDigit then
      match Radix.read? none (c :: r) with
      | some (n, rest) => .number (clamp n) :: tokensFrom fuel rest
      | none => [.bad]
    else if Raw.isNameStart c then
      .name ((c :: r).takeWhile Raw.isNameChar)
        :: tokensFrom fuel ((c :: r).dropWhile Raw.isNameChar)
    else
      match sign? (c :: r) with
      | some (t, rest) => t :: tokensFrom fuel rest
      | none => [.bad]

def tokens (r : Raw) : List Token := tokensFrom r.length r

/-- what is left of an expression, and the names that were given values, the last one first -/
structure State where
  rest : List Token
  given : List (Raw × Int64) := []

abbrev Step := StateT State (Except Fault)

section
variable (lookup : Raw → Option Raw)

def fail {α : Type} (f : Fault) : Step α := fun _ => .error f

def peek : Step (Option Token) := return (← get).rest.head?

def skip : Step Unit := modify fun s => { s with rest := s.rest.tail }

def number? (r : Raw) : Except Fault Int64 :=
  match Radix.read? none r with
  | none => if r.all Raw.isSpace then .ok 0 else .error (.noNumber r)
  | some (n, rest) =>
    if (Radix.clamped n).2 ∨ !rest.all Raw.isSpace then .error (.noNumber r) else .ok (clamp n)

def valueOf (name : Raw) : Step Int64 := do
  match (← get).given.lookup name with
  | some n => return n
  | none =>
    match number? ((lookup name).getD []) with
    | .ok n => return n
    | .error f => fail f

def ofBool (b : Bool) : Int64 := if b then 1 else 0

def apply (o : Operator) (a b : Int64) : Step Int64 :=
  match o with
  | .times => return a * b
  | .divide => if b = 0 then fail .byZero else return a / b
  | .remainder => if b = 0 then fail .byZero else return a % b
  | .plus => return a + b
  | .minus => return a - b
  | .left => return a <<< b
  | .right => return a >>> b
  | .less => return ofBool (decide (a < b))
  | .lessEqual => return ofBool (decide (a ≤ b))
  | .greater => return ofBool (decide (b < a))
  | .greaterEqual => return ofBool (decide (b ≤ a))
  | .equal => return ofBool (a == b)
  | .different => return ofBool (a != b)
  | .and => return a &&& b
  | .xor => return a ^^^ b
  | .or => return a ||| b

mutual

def primary : Nat → Bool → Step Int64
  | 0, _ => fail .noPrimary
  | fuel + 1, isIdle => do
    let t ← peek
    skip
    match t with
    | some (.number n) => return n
    | some (.name r) => if isIdle then return 0 else valueOf lookup r
    | some (.binary .plus) => primary fuel isIdle
    | some (.binary .minus) => return -(← primary fuel isIdle)
    | some .bang => return ofBool ((← primary fuel isIdle) == 0)
    | some .tilde => return ~~~(← primary fuel isIdle)
    | some .openParen =>
      let n ← assignment fuel isIdle
      match ← peek with
      | some .closeParen => skip; return n
      | _ => fail .noParen
    | _ => fail .noPrimary

/-- operators that bind more strongly than a rank, after a number -/
def operators : Nat → Bool → Nat → Int64 → Step Int64
  | 0, _, _, _ => fail .noPrimary
  | fuel + 1, isIdle, rank, a => do
    match ← peek with
    | some (.binary o) =>
      if o.rank < rank then
        skip
        let b ← primary fuel isIdle
        let b ← operators fuel isIdle o.rank b
        let n ← if isIdle then pure b else apply o a b
        operators fuel isIdle rank n
      else return a
    | _ => return a

def binary : Nat → Bool → Step Int64
  | 0, _ => fail .noPrimary
  | fuel + 1, isIdle => do operators fuel isIdle Operator.ranks (← primary fuel isIdle)

def conjunction : Nat → Bool → Step Int64
  | 0, _ => fail .noPrimary
  | fuel + 1, isIdle => do
    let a ← binary fuel isIdle
    match ← peek with
    | some .andAnd =>
      skip
      let b ← conjunction fuel (isIdle || a == 0)
      return ofBool (a != 0 && b != 0)
    | _ => return a

def disjunction : Nat → Bool → Step Int64
  | 0, _ => fail .noPrimary
  | fuel + 1, isIdle => do
    let a ← conjunction fuel isIdle
    match ← peek with
    | some .orOr =>
      skip
      let b ← disjunction fuel (isIdle || a != 0)
      return ofBool (a != 0 || b != 0)
    | _ => return a

def choice : Nat → Bool → Step Int64
  | 0, _ => fail .noPrimary
  | fuel + 1, isIdle => do
    let a ← disjunction fuel isIdle
    match ← peek with
    | some .question =>
      skip
      let b ← assignment fuel (isIdle || a == 0)
      match ← peek with
      | some .colon =>
        skip
        let c ← choice fuel (isIdle || a != 0)
        return if a != 0 then b else c
      | _ => fail .noColon
    | _ => return a

def assignment : Nat → Bool → Step Int64
  | 0, _ => fail .noPrimary
  | fuel + 1, isIdle => do
    match (← get).rest with
    | .name r :: .assign o :: _ =>
      skip
      skip
      let b ← assignment fuel isIdle
      if isIdle then return b
      else
        let n ← match o with
          | none => pure b
          | some o => do apply o (← valueOf lookup r) b
        modify fun s => { s with given := (r, n) :: s.given }
        return n
    | _ => choice fuel isIdle

end

def value? (r : Raw) : Except Fault (Int64 × List (Raw × Int64)) := do
  let ts := tokens r
  let (n, s) ← (assignment lookup (8 * ts.length + 16) false).run { rest := ts }
  if s.rest = [] then return (n, s.given) else throw .noEnd

end

end Rota.Shell.Arithmetic
