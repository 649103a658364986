/-!
# JSON values

* `Json`             a JSON value; integers are exact, whatever their size;
* `Json.lookup?`     the value of a key in a list of fields (the last one counts);
* `Json.nat?`, `Json.str?`, `Json.bool?`, `Json.arr?`   the value as one of a kind;
* `Json.fields?`     the fields of an object, or of an array that lists them by position.

A number with a fraction or an exponent is a `decimal`: mantissa times a power of ten.  It never
counts as an integer.
-/

namespace Rota

inductive Json where
  | null
  | bool (b : Bool)
  | int (n : Int)
  | decimal (mantissa exponent : Int)
  | str (s : String)
  | arr (items : List Json)
  | obj (fields : List (String × Json))
deriving Inhabited

namespace Json

/-- the value of a key; of several, the last one -/
def lookup? (key : String) : List (String × Json) → Option Json
  | [] => none
  | (k, v) :: fields =>
    match lookup? key fields with
    | some w => some w
    | none => if k == key then some v else none

def nat? (bound : Nat) : Json → Option Nat
  | .int n => if 0 ≤ n ∧ n < bound then some n.toNat else none
  | _ => none

def int? : Json → Option Int
  | .int n => some n
  | _ => none

def str? : Json → Option String
  | .str s => some s
  | _ => none

def bool? : Json → Option Bool
  | .bool b => some b
  | _ => none

def arr? : Json → Option (List Json)
  | .arr items => some items
  | _ => none

/-- the fields of a record with these keys: an object, or an array of at most so many values, which
belong to the keys in their order -/
def fields? (keys : List String) : Json → Option (List (String × Json))
  | .obj fields => some fields
  | .arr items => if items.length ≤ keys.length then some (keys.zip items) else none
  | _ => none

def ofNat (n : Nat) : Json := .int n

def ofOption {α : Type} (f : α → Json) : Option α → Json
  | none => .null
  | some a => f a

/-! ## small laws -/

theorem lookup?_nil (key : String) : lookup? key [] = none := rfl

theorem nat?_ofNat {bound n : Nat} (h : n < bound) : (ofNat n).nat? bound = some n := by
  simp only [ofNat, nat?]
  rw [if_pos ⟨Int.natCast_nonneg n, by omega⟩]
  simp

end Json

end Rota
