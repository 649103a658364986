import Rota.Number.Binary64

/-!
# TOML values

* `Toml`            a value; a date or a time counts as its text, and a place that nothing fills as
  `Toml.null`;
* `Toml.Fields`     the fields of a table.
-/

namespace Rota

inductive Toml where
  /-- what stands in the places of an array that only later places made; no document holds it -/
  | null
  | text (s : String)
  | int (n : Int)
  | float (x : Binary64)
  | bool (b : Bool)
  | list (items : List Toml)
  | table (fields : List (String × Toml))
deriving Inhabited

namespace Toml

abbrev Fields := List (String × Toml)

def intBound : Nat := 9223372036854775808

end Toml

end Rota
