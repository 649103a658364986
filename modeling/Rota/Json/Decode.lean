import Rota.Json.Basic
import Rota.Schedule.Error

/-!
# Decoding records

* `Json.Fault`        a value of the wrong shape, or a value that is refused for its content;
* `Json.optional`     a field that may be missing or `null`;
* `Json.orDefault`    a field that may be missing, but not `null`;
* `Json.required`     a field that has to be there;
* `Json.present`      a field that, if it is there, is no `null`; whether it is there is for the caller;
* `Json.distinct`     whether no field of a record stands twice.

Unknown fields are passed over.
-/

namespace Rota.Json

/-- why a JSON value is no value of a type -/
inductive Fault where
  | shape
  | content (error : ScheduleError)
deriving DecidableEq, Repr

def Fault.message? : Fault → Option String
  | .shape => none
  | .content e => some e.message

def shaped {α : Type} (f : Json → Option α) (j : Json) : Except Fault α :=
  match f j with
  | some a => .ok a
  | none => .error .shape

def optional {α : Type} (key : String) (decode : Json → Except Fault α)
    (fields : List (String × Json)) : Except Fault (Option α) :=
  match lookup? key fields with
  | none | some .null => .ok none
  | some v => (decode v).map some

def orDefault {α : Type} (key : String) (default : α) (decode : Json → Except Fault α)
    (fields : List (String × Json)) : Except Fault α :=
  match lookup? key fields with
  | none => .ok default
  | some v => decode v

def required {α : Type} (key : String) (decode : Json → Except Fault α)
    (fields : List (String × Json)) : Except Fault α :=
  match lookup? key fields with
  | none => .error .shape
  | some v => decode v

def present {α : Type} (key : String) (decode : Json → Except Fault α)
    (fields : List (String × Json)) : Except Fault (Option α) :=
  match lookup? key fields with
  | none => .ok none
  | some v => (decode v).map some

def distinct (keys : List String) (fields : List (String × Json)) : Bool :=
  keys.all fun key => decide ((fields.filter fun f => f.1 == key).length ≤ 1)

def each {α : Type} (decode : Json → Except Fault α) : List Json → Except Fault (List α)
  | [] => .ok []
  | v :: vs => do
    let a ← decode v
    let as ← each decode vs
    return a :: as

def list {α : Type} (decode : Json → Except Fault α) (j : Json) : Except Fault (List α) := do
  each decode (← shaped arr? j)

def fieldOf {α : Type} (key : String) (encode : α → Json) : Option α → List (String × Json)
  | none => []
  | some a => [(key, encode a)]

end Rota.Json
