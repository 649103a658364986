import Rota.Shell.Command
import Rota.Shell.World

/-!
# The state of a shell

* `State`    variables, arguments, functions, options, channels, jobs and traps of a shell;
* `Stop`     why the commands that follow are not run;
* `Act`      steps that change the state, and may stop;
* `Act.fail` a fault, told on the error channel.
-/

namespace Rota.Shell

open Text Program

structure Variable where
  /-- there is none if it was only marked -/
  value : Option Raw := none
  isExported : Bool := false
  isReadOnly : Bool := false

structure Job where
  process : Nat
  endsAt : Nat
  ending : Ending

structure State where
  name : Raw := raw "sh"
  args : List Raw := []
  vars : List (Raw × Variable) := []
  /-- what the local variables of the functions under way hid, the innermost function first -/
  hidden : List (List (Raw × Option Variable)) := []
  functions : List (Raw × Command) := []
  aliases : List (Raw × Raw) := []
  options : List Char := []
  status : Nat := 0
  /-- the status of the last command whose output went into a word -/
  outputStatus : Nat := 0
  process : Nat := 1
  mainProcess : Nat := 1
  lastJob : Option Nat := none
  mask : Nat := 18
  jobs : List Job := []
  /-- the actions of signals; the end of the shell counts as signal 0 -/
  traps : List (Nat × Raw) := []
  channels : List (Nat × Handle) := []
  line : Nat := 0
  command : Option Raw := none
  loops : Nat := 0
  calls : Nat := 0
  documents : Array Word := #[]
  /-- the place inside an argument that options are read from -/
  optionPlace : Nat := 0
  hasLost : Bool := false
  world : World := {}

/-- why the commands that follow are not run -/
inductive Stop where
  | breaks (loops : Nat)
  /-- so many loops end but the last, which begins its next round -/
  | continues (loops : Nat)
  | returns (status : Nat)
  | exits (status : Nat)
  | fails
  | replaced (status : Nat)
  | killed (signal : Nat)
  | endless
deriving DecidableEq, Repr

abbrev Act := EStateM Stop State

namespace State

def has (s : State) (option : Char) : Bool := s.options.contains option

def named? (s : State) (name : Raw) : Option Variable := s.vars.lookup name

def value? (s : State) (name : Raw) : Option Raw := (s.named? name).bind (·.value)

def put (s : State) (name : Raw) (v : Option Variable) : State :=
  let rest := s.vars.filter fun x => x.1 != name
  { s with
    vars := match v with
      | some v => (name, v) :: rest
      | none => rest }

def separators (s : State) : Raw := (s.value? (raw "IFS")).getD [' ', '\t', '\n']

def program (s : State) (name : Raw) : Except FileFault Tool :=
  s.world.disk.program ((s.value? (raw "PATH")).getD []) name

def channel? (s : State) (n : Nat) : Option Handle := s.channels.lookup n

def setChannel (s : State) (n : Nat) (h : Option Handle) : State :=
  let rest := s.channels.filter fun x => x.1 != n
  { s with
    channels := match h with
      | some h => (n, h) :: rest
      | none => rest }

/-! ## small laws -/

private theorem lookup_filter_same {α β : Type} [BEq α] [LawfulBEq α] (k : α)
    (l : List (α × β)) : (l.filter fun x => x.1 != k).lookup k = none := by
  induction l with
  | nil => rfl
  | cons x l ih =>
    obtain ⟨a, b⟩ := x
    by_cases h : a = k
    · simpa [h] using ih
    · have hk : (k == a) = false := by simpa using Ne.symm h
      simp [h, List.lookup_cons, hk, ih]

end State

namespace Act

def world (f : World → World) : Act Unit := modify fun s => { s with world := f s.world }

def emit (h : Option Handle) (r : Raw) : Act (Option FileFault) := do
  let s ← get
  match h with
  | none => return some .closed
  | some h =>
    match s.world.write s.process h r with
    | .ok w =>
      set { s with world := w }
      return none
    | .error f => return some f

def print (r : Raw) : Act Unit := do
  if r = [] then return
  let f ← emit ((← get).channel? 1) r
  if f.isSome then modify fun s => { s with hasLost := true }

def label (s : State) : Raw :=
  s.name ++ raw ": " ++ raw (toString s.line) ++ raw ": "
    ++ (match s.command with
      | some c => c ++ raw ": "
      | none => [])

def warn (text : Raw) : Act Unit := do
  let s ← get
  let _ ← emit (s.channel? 2) (label s ++ text ++ ['\n'])

def fail {α : Type} (text : Raw) : Act α := do
  warn text
  throw .fails

def assign (name value : Raw) (isExported : Bool) : Act Unit := do
  if !Raw.isName name then fail (name ++ raw ": bad variable name")
  let s ← get
  let old := (s.named? name).getD {}
  if old.isReadOnly then fail (name ++ raw ": is read only")
  let isExported := isExported || old.isExported || s.has 'a'
  set (s.put name (some { old with value := some value, isExported := isExported }))

def byteOf (n : Nat) : Nat := n % 256

def number (r : Raw) : Act Nat :=
  let illegal : Act Nat := fail (raw "Illegal number: " ++ r)
  match Radix.read? (some 10) r with
  | none => illegal
  | some (n, rest) =>
    if n < 0 ∨ 2147483647 < n ∨ !rest.all Raw.isSpace then illegal else pure n.toNat

end Act

end Rota.Shell
