import Rota.Program.Outcome
import Rota.Program.Quoted

/-!
# Options of tools

An argument that begins with a dash holds options: letters, of which the last may take a value, or
after two dashes a long name, of which the beginning is enough where it is clear.  A value stands in
the same argument or in the next one.  Two dashes alone end the options.

* `OptionTable`          the options of a tool;
* `OptionTable.read`     the options of some arguments in order, the fault that ends them if there
                         is one, and the other arguments.
-/

namespace Rota.Program

open Text

structure OptionTable where
  letters : List (Char × Bool)
  names : List (String × Char)
  /-- whether options may follow other arguments -/
  mixes : Bool := true

inductive OptionFault where
  | unknown (letter : Char)
  | unknownName (argument : Raw)
  | ambiguous (argument : Raw) (candidates : List String)
  | withoutValue (letter : Char)
  | nameWithoutValue (name : String)
  | nameWithValue (name : String)

namespace OptionFault

def text : OptionFault → Raw
  | .unknown c => raw "invalid option -- '" ++ [c, '\'']
  | .unknownName r => raw "unrecognized option '" ++ r ++ ['\'']
  | .ambiguous r names =>
    raw "option '" ++ r ++ raw "' is ambiguous; possibilities:"
      ++ names.flatMap fun n => raw (" '--" ++ n ++ "'")
  | .withoutValue c => raw "option requires an argument -- '" ++ [c, '\'']
  | .nameWithoutValue n => raw ("option '--" ++ n ++ "' requires an argument")
  | .nameWithValue n => raw ("option '--" ++ n ++ "' doesn't allow an argument")

end OptionFault

structure ReadOptions where
  options : List (Char × Raw) := []
  fault : Option OptionFault := none
  operands : List Raw := []

namespace OptionTable

/-- the letters of an argument: the options among them, the value that the last one still needs, and
a letter that is none -/
def readLetters (t : OptionTable) : Raw → List (Char × Raw) × Option Char × Option Char
  | [] => ([], none, none)
  | c :: r =>
    match t.letters.lookup c with
    | none => ([], none, some c)
    | some true => if r = [] then ([], some c, none) else ([(c, r)], none, none)
    | some false =>
      let (options, needs, unknown) := t.readLetters r
      ((c, []) :: options, needs, unknown)

/-- the long names that begin with a text; one that is equal to it stands alone -/
def candidates (t : OptionTable) (front : Raw) : List (String × Char) :=
  match t.names.filter fun n => n.1.toList = front with
  | [] => t.names.filter fun n => front.isPrefixOf n.1.toList
  | exact => exact

def readName (t : OptionTable) (r : Raw) : Except OptionFault ((Char × Raw) × Bool) :=
  let (front, value) := Raw.upTo (· = '=') r
  let found := t.candidates front
  match found with
  | [] => .error (.unknownName (raw "--" ++ r))
  | (name, c) :: more =>
    if more.any fun n => n.2 ≠ c then .error (.ambiguous (raw "--" ++ r) (found.map (·.1)))
    else
      match value, t.letters.lookup c with
      | [], some true => .ok ((c, []), true)
      | _ :: v, some true => .ok ((c, v), false)
      | [], _ => .ok ((c, []), false)
      | _ :: _, _ => .error (.nameWithValue name)

def nameOf (t : OptionTable) (r : Raw) : String := ((t.candidates r).head?.map (·.1)).getD ""

def read (t : OptionTable) : List Raw → ReadOptions
  | [] => {}
  | ['-', '-'] :: rest => { operands := rest }
  | ('-' :: '-' :: r) :: rest =>
    match t.readName r, rest with
    | .error f, _ => { fault := some f }
    | .ok (option, false), rest => let o := t.read rest; { o with options := option :: o.options }
    | .ok (_, true), [] => { fault := some (.nameWithoutValue (t.nameOf r)) }
    | .ok ((c, _), true), v :: rest =>
      let o := t.read rest
      { o with options := (c, v) :: o.options }
  | ('-' :: c :: r) :: rest =>
    let (options, needs, unknown) := t.readLetters (c :: r)
    match unknown, needs, rest with
    | some u, _, _ => { options := options, fault := some (.unknown u) }
    | none, some c, [] => { options := options, fault := some (.withoutValue c) }
    | none, some c, v :: rest =>
      let o := t.read rest
      { o with options := options ++ (c, v) :: o.options }
    | none, none, rest => let o := t.read rest; { o with options := options ++ o.options }
  | r :: rest =>
    if t.mixes then let o := t.read rest; { o with operands := r :: o.operands }
    else { operands := r :: rest }

end OptionTable

def misuse (tool : String) (text : Raw) : Outcome :=
  .complaint 1 (rawLine [raw (tool ++ ": "), text] ++ tryHelp tool)

end Rota.Program
