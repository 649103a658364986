import Rota.Assoc
import Rota.Number.Literal
import Rota.Toml.Basic

/-!
# Layers of settings

Settings come in layers, and a later layer covers the ones before it.

* `mergeFields`      tables are merged key by key, everything else is replaced;
* `pathOf`           the path that a key means;
* `setAt`            lays a value over the place at the end of a path;
* `layerOf`          the layer of a file, whose outermost keys are paths;
* `variableLayer`    the layer of the environment.

Keys are compared in lower case, down to the first array.  A path names a place in tables inside
tables, its parts set off by points, or in an array, by an index in brackets.
-/

namespace Rota

open Assoc

namespace Layers

/-- a character in lower case.  Beyond ASCII only the Kelvin sign turns into an ASCII letter; all
others stay as they are, for no key that is looked up holds one. -/
def lowerChar (c : Char) : Char := if c = '\u212a' then 'k' else c.toLower

def lower (key : String) : String := String.ofList (key.toList.map lowerChar)

def fieldsOf : Toml → Toml.Fields
  | .table fields => fields
  | _ => []

mutual

def merge (base : Option Toml) : Toml → Toml
  | .table fields => mergeFields (base.getD (.table [])) fields
  | v => v

/-- fields laid over a value; when there are any, the result is a table -/
def mergeFields (base : Toml) : List (String × Toml) → Toml
  | [] => base
  | (key, v) :: rest =>
    let fields := fieldsOf base
    mergeFields (.table (put (lower key) (merge (fields.lookup (lower key)) v) fields)) rest

end

/-! ## paths -/

inductive Step where
  | field (key : String)
  | item (index : Int)
deriving DecidableEq, Repr

def isPathChar (c : Char) : Bool := c.isAlphanum || c = '_' || c = '-' || c = ' '

def indexBound : Nat := 9223372036854775808

def isPad (c : Char) : Bool := c = ' ' || c = '\t'

def index? (cs : List Char) : Option (Int × List Char) :=
  let cs := cs.dropWhile isPad
  let (isNegative, cs) := match cs with
    | '-' :: r => (true, r)
    | r => (false, r)
  let (ds, r) := Text.Numeral.split cs
  let n : Int := Text.Numeral.value ds
  let n := if isNegative then -n else n
  match r.dropWhile isPad with
  | ']' :: r =>
    if ds ≠ [] ∧ -(indexBound : Int) ≤ n ∧ n < indexBound then some (n, r) else none
  | _ => none

def steps? : Nat → List Char → Option (List Step)
  | _, [] => some []
  | 0, _ => none
  | fuel + 1, '.' :: r =>
    let name := r.takeWhile isPathChar
    if name = [] then none
    else (steps? fuel (r.dropWhile isPathChar)).map (.field (String.ofList name) :: ·)
  | fuel + 1, '[' :: r => do
    let (n, r) ← index? r
    return .item n :: (← steps? fuel r)
  | _, _ => none

/-- the path that a key means; a key that is no path is its own only step -/
def pathOf (key : List Char) : List Step :=
  let name := key.takeWhile isPathChar
  match steps? key.length (key.dropWhile isPathChar) with
  | some steps =>
    if name = [] then [.field (String.ofList key)] else .field (String.ofList name) :: steps
  | none => [.field (String.ofList key)]

def itemsOf : Toml → List Toml
  | .list items => items
  | _ => []

/-- changes the item at an index.  An array that is too short is filled up with `Toml.null`, at its
front when the index counts from the end. -/
def changeItem (index : Int) (f : Toml → Toml) (items : List Toml) : List Toml :=
  if 0 ≤ index then
    (items ++ List.replicate (index.toNat + 1 - items.length) Toml.null).modify index.toNat f
  else
    let back := (-index).toNat
    (List.replicate (back - items.length) Toml.null ++ items).modify (items.length - back) f

/-- lays a value over the place at the end of a path.  Tables and arrays on the way take the place
of what is none. -/
def setAt (v : Toml) : List Step → Toml → Toml
  | [], _ => v
  | [.field key], base => mergeFields base [(key, v)]
  | .field key :: steps, base =>
    let fields := fieldsOf base
    .table (put key (setAt v steps ((fields.lookup key).getD .null)) fields)
  | .item index :: steps, base => .list (changeItem index (setAt v steps) (itemsOf base))

def setPath (base : Toml) (key : List Char) (v : Toml) : Toml := setAt v (pathOf key) base

def layerOf (base : Toml) (fields : Toml.Fields) : Toml :=
  fields.foldl (fun base f => setPath base f.1.toList f.2) base

/-! ## the environment -/

def variableMark : List Char := ['a', 'g', 'e', 'n', 't', '_', '_']

/-- two underscores stand for a point -/
def points : List Char → List Char
  | '_' :: '_' :: cs => '.' :: points cs
  | c :: cs => c :: points cs
  | [] => []

def variableKey? (name : String) : Option (List Char) :=
  let cs := name.toList.map lowerChar
  if variableMark.isPrefixOf cs then some (points (cs.drop variableMark.length)) else none

/-- the value of a variable: a truth value, an integer, a number, or the text itself -/
def variableValue (text : String) : Toml :=
  if lower text = "true" then .bool true
  else if lower text = "false" then .bool false
  else
    match Text.Numeral.signed? Toml.intBound text.toList with
    | some n => .int n
    | none =>
      match Binary64.parse? text with
      | some x => .float x
      | none => .text text

def variableLayer (base : Toml) (environment : List (String × String)) : Toml :=
  environment.foldl
    (fun base v =>
      match variableKey? v.1 with
      | some key => setPath base key (variableValue v.2)
      | none => base)
    base

end Layers

end Rota
