import Rota.Program.Disk

/-!
# Conditions

A condition compares texts and integers and asks about files.  Its arguments are operands and
operators; what an argument is depends on how many there are, and on what follows it.

* `Condition.Operator`   the operators;
* `Condition.holds?`     whether a condition holds.
-/

namespace Rota.Shell.Condition

open Text Program

inductive Query where
  | isEmpty
  | isNotEmpty
  | isTerminal
  | file (letter : Char)
deriving DecidableEq, Repr

inductive Relation where
  | same
  | different
  | before
  | after
  | equal
  | notEqual
  | greater
  | greaterEqual
  | less
  | lessEqual
  | newer
  | older
  | sameFile
deriving DecidableEq, Repr

inductive Operator where
  | query (q : Query)
  | relation (r : Relation)
  | not
  | and
  | or
  | openParen
  | closeParen
deriving DecidableEq, Repr

def operators : List (String × Operator) :=
  ("rwxefdcbpugkhLOGS".toList.map fun c => (String.ofList ['-', c], .query (.file c)))
    ++ [("-s", .query (.file 's')), ("-t", .query .isTerminal), ("-z", .query .isEmpty),
        ("-n", .query .isNotEmpty), ("=", .relation .same), ("!=", .relation .different),
        ("<", .relation .before), (">", .relation .after), ("-eq", .relation .equal),
        ("-ne", .relation .notEqual), ("-ge", .relation .greaterEqual),
        ("-gt", .relation .greater), ("-le", .relation .lessEqual), ("-lt", .relation .less),
        ("-nt", .relation .newer), ("-ot", .relation .older), ("-ef", .relation .sameFile),
        ("!", .not), ("-a", .and), ("-o", .or), ("(", .openParen), (")", .closeParen)]

def operator? (r : Raw) : Option Operator := (operators.find? fun o => o.1.toList = r).map (·.2)

def isRelation (r : Raw) : Bool :=
  match operator? r with
  | some (.relation _) => true
  | _ => false

inductive Fault where
  | noNumber (r : Raw)
  | noArgument (operator : Raw)
  | noCloser
  | extra (r : Raw)
deriving DecidableEq, Repr

def Fault.text : Fault → Raw
  | .noNumber r => raw "Illegal number: " ++ r
  | .noArgument r => r ++ raw ": argument expected"
  | .noCloser => raw "closing paren expected"
  | .extra [] => raw "unexpected operator"
  | .extra r => r ++ raw ": unexpected operator"

/-- what an argument is: an operator, or nothing but an operand.  A query that nothing follows is an
operand, and so is one before a relation that has two operands. -/
def kind? : List Raw → Option Operator
  | [] => none
  | r :: rest =>
    match operator? r, rest with
    | some (.query _), [] => none
    | some (.query q), [_] => some (.query q)
    | some (.query q), s :: _ :: _ => if isRelation s then none else some (.query q)
    | some .openParen, [] => none
    | o, _ => o

def integer? (r : Raw) : Except Fault Int :=
  match Radix.read? (some 10) r with
  | none => .error (.noNumber r)
  | some (n, rest) =>
    if (Radix.clamped n).2 ∨ !rest.all Raw.isSpace then .error (.noNumber r) else .ok n

section
variable (disk : Disk)

structure Sizes where
  size : Nat → Nat

variable (sizes : Sizes)

def isFile (letter : Char) (path : Raw) : Bool :=
  match disk.find path with
  | .error _ => false
  | .ok n =>
    let isPlain := match n with
      | .file => true
      | .program _ => true
      | .written _ => true
      | _ => false
    match letter with
    | 'e' => true
    | 'r' => true
    | 'w' => true
    | 'O' => true
    | 'G' => true
    | 'd' => n = .directory
    | 'f' => isPlain
    | 'c' => !isPlain && n ≠ .directory
    | 'x' =>
      match n with
      | .directory => true
      | .program _ => true
      | _ => false
    | 's' =>
      match n with
      | .written k => decide (0 < sizes.size k)
      | .null => false
      | n => isPlain || n = .directory
    | _ => false

def ask (q : Query) (r : Raw) : Except Fault Bool :=
  match q with
  | .isEmpty => .ok r.isEmpty
  | .isNotEmpty => .ok !r.isEmpty
  | .isTerminal => (integer? r).map fun _ => false
  | .file c => .ok (isFile disk sizes c r)

def compare (p : Int → Int → Bool) (a b : Raw) : Except Fault Bool := do
  let m ← integer? a
  let n ← integer? b
  return p m n

def relate (q : Relation) (a b : Raw) : Except Fault Bool :=
  match q with
  | .same => .ok (a = b)
  | .different => .ok (a ≠ b)
  | .before => .ok (decide (a < b))
  | .after => .ok (decide (b < a))
  | .equal => compare (· == ·) a b
  | .notEqual => compare (· != ·) a b
  | .greater => compare (fun m n => decide (n < m)) a b
  | .greaterEqual => compare (fun m n => decide (n ≤ m)) a b
  | .less => compare (fun m n => decide (m < n)) a b
  | .lessEqual => compare (fun m n => decide (m ≤ n)) a b
  | .sameFile =>
    match disk.resolve a, disk.resolve b with
    | .ok (m, _), .ok (n, _) => .ok (m = n)
    | _, _ => .ok false
  | _ => .ok false

/-- the arguments from the one that was used last -/
abbrev Rest := List Raw

mutual

def primary : Nat → Rest → Except Fault (Bool × Rest)
  | 0, rest => .ok (false, rest)
  | _, [] => .ok (false, [])
  | fuel + 1, r :: rest =>
    match kind? (r :: rest) with
    | some .not =>
      match rest with
      | [] => .ok (true, [r])
      | _ => (primary fuel rest).map fun p => (!p.1, p.2)
    | some .openParen =>
      match kind? rest with
      | some .closeParen => .ok (false, rest)
      | _ => do
        let (b, last) ← alternatives fuel rest
        match last.tail with
        | s :: more =>
          if kind? (s :: more) = some .closeParen then return (b, s :: more) else throw .noCloser
        | [] => throw .noCloser
    | some (.query q) =>
      match rest with
      | [] => .error (.noArgument r)
      | s :: more => (ask disk sizes q s).map fun b => (b, s :: more)
    | _ =>
      match rest with
      | s :: more =>
        match kind? (s :: more), more with
        | some (.relation _), [] => .error (.noArgument s)
        | some (.relation q), t :: more => (relate disk q r t).map fun b => (b, t :: more)
        | _, _ => .ok (!r.isEmpty, r :: rest)
      | [] => .ok (!r.isEmpty, [r])

def conjunction : Nat → Rest → Except Fault (Bool × Rest)
  | 0, rest => .ok (false, rest)
  | fuel + 1, rest => do
    let (b, last) ← primary fuel rest
    match kind? last.tail with
    | some .and =>
      let (c, last) ← conjunction fuel last.tail.tail
      return (b && c, last)
    | _ => return (b, last)

def alternatives : Nat → Rest → Except Fault (Bool × Rest)
  | 0, rest => .ok (false, rest)
  | fuel + 1, rest => do
    let (b, last) ← conjunction fuel rest
    match kind? last.tail with
    | some .or =>
      let (c, last) ← alternatives fuel last.tail.tail
      return (b || c, last)
    | _ => return (b, last)

end

def whole (args : List Raw) : Except Fault Bool := do
  let (b, last) ← alternatives disk sizes (4 * args.length + 8) args
  match last with
  | r :: _ :: _ => throw (.extra r)
  | _ => return b

def related (a q b : Raw) : Except Fault Bool :=
  match operator? q with
  | some (.relation q) => relate disk q a b
  | _ => .ok false

/-- whether a condition holds; three and four arguments are looked at before anything else -/
def holds? (args : List Raw) : Except Fault Bool :=
  match args with
  | [] => .ok false
  | [a, q, b] =>
    if isRelation q then related disk a q b
    else if a = ['('] ∧ b = [')'] then whole disk sizes [q]
    else if a = ['!'] then (whole disk sizes [q, b]).map (!·)
    else whole disk sizes args
  | [a, b, c, d] =>
    if a = ['('] ∧ d = [')'] then whole disk sizes [b, c]
    else if a = ['!'] then (whole disk sizes [b, c, d]).map (!·)
    else whole disk sizes args
  | args => whole disk sizes args

end

end Rota.Shell.Condition
