import Rota.Program.Options
import Rota.Text.Scientific

/-!
# Sleep

`sleep` rests for its intervals together.  An interval is a number, decimal or hexadecimal, with an
exponent or without, and perhaps a unit: seconds, minutes, hours or days.

* `Sleep.interval?`   an interval in microseconds; there is none to an interval without end;
* `Sleep.run`         the tool.
-/

namespace Rota.Program.Sleep

open Text

inductive Interval where
  | micros (n : Nat)
  | endless
deriving DecidableEq, Repr

def unit? : Raw → Option Nat
  | [] => some 1
  | ['s'] => some 1
  | ['m'] => some 60
  | ['h'] => some 3600
  | ['d'] => some 86400
  | _ => none

/-- the words for an interval without end, and what follows -/
def endless? (r : Raw) : Option Raw :=
  let low := r.map Char.toLower
  if "infinity".toList.isPrefixOf low then some (r.drop 8)
  else if "inf".toList.isPrefixOf low then some (r.drop 3)
  else none

def interval? (r : Raw) : Option Interval :=
  let (isNegative, r) := match r.dropWhile Raw.isSpace with
    | '+' :: r => (false, r)
    | '-' :: r => (true, r)
    | r => (false, r)
  match endless? r with
  | some unit => if isNegative then none else (unit? unit).map fun _ => .endless
  | none =>
    match Scientific.read? r with
    | none => none
    | some (x, unit) =>
      match unit? unit with
      | none => none
      | some k =>
        if isNegative ∧ x.mantissa ≠ 0 then none else some (.micros (x.ceiling (k * 1000000)))

def total (ns : List Interval) : Interval :=
  ns.foldl
    (fun sum n =>
      match sum, n with
      | .micros a, .micros b => .micros (a + b)
      | _, _ => .endless)
    (.micros 0)

def options : OptionTable := ⟨[], [("help", 'h'), ("version", 'v')], true⟩

def run (args : List Raw) : Outcome :=
  let o := options.read args
  match o.fault with
  | some f => misuse "sleep" f.text
  | none =>
    if o.options ≠ [] then {}
    else if o.operands = [] then misuse "sleep" (raw "missing operand")
    else
      match o.operands.filter fun r => (interval? r).isNone with
      | [] =>
        match total (o.operands.filterMap interval?) with
        | .micros n => { micros := n }
        | .endless => { tail := .hangs }
      | faults =>
        .complaint 1
          ((faults.flatMap fun r =>
              rawLine [raw "sleep: invalid time interval ", Quoted.plain r])
            ++ tryHelp "sleep")

/-! ## small laws -/

end Rota.Program.Sleep
