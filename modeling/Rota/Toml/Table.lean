import Rota.Assoc
import Rota.Toml.Basic

/-!
# TOML tables, put together

A table is put together from headers and fields.  Each part may be written once: no key is set
twice, no table is opened twice, and a table that dotted keys made is not opened by a header.

* `Node`            a value, a table that may still grow, or an array of tables;
* `setKey`          sets a field, with a dotted key;
* `openTable`       `[a.b]`: makes a table, or takes one that was only implied;
* `pushTable`       `[[a.b]]`: adds a table to an array of tables;
* `Nodes.fields`    the finished table.
-/

namespace Rota.Toml

inductive Node where
  | leaf (value : Toml)
  /-- a table; `implied` when no header opened it, `dotted` when a dotted key made it -/
  | table (implied dotted : Bool) (entries : List (String × Node))
  /-- an array of tables, the last one first -/
  | tables (items : List (List (String × Node)))

abbrev Nodes := List (String × Node)

open Assoc

namespace Nodes

/-- changes the table at a path by `f`, which is told whether dotted keys made that table.  Tables
that are missing on the way are made.  In an array of tables the way goes on in the last one; a
dotted key (`dotted`) does not go on into a table that a header opened. -/
def within (dotted : Bool) (f : Bool → Nodes → Option Nodes) :
    List String → Bool → Nodes → Option Nodes
  | [], made, nodes => f made nodes
  | key :: path, _, nodes =>
    match nodes.lookup key with
    | none => do
      let inner ← within dotted f path dotted []
      some (put key (.table true dotted inner) nodes)
    | some (.table implied made entries) =>
      if dotted && !implied then none
      else do
        let inner ← within dotted f path made entries
        some (put key (.table implied made inner) nodes)
    | some (.tables (last :: others)) => do
      let inner ← within dotted f path false last
      some (put key (.tables (inner :: others)) nodes)
    | some (.tables []) => none
    | some (.leaf _) => none

def setKey (path : List String) (key : String) (v : Toml) (nodes : Nodes) : Option Nodes :=
  within true
    (fun made inner =>
      if made == path.isEmpty then none
      else if (inner.lookup key).isSome then none
      else some (inner ++ [(key, .leaf v)]))
    path false nodes

def openTable (path : List String) (key : String) (nodes : Nodes) : Option Nodes :=
  within false
    (fun _ inner =>
      match inner.lookup key with
      | none => some (put key (.table false false []) inner)
      | some (.table true false entries) => some (put key (.table false false entries) inner)
      | some _ => none)
    path false nodes

def pushTable (path : List String) (key : String) (nodes : Nodes) : Option Nodes :=
  within false
    (fun _ inner =>
      match inner.lookup key with
      | none => some (put key (.tables [[]]) inner)
      | some (.tables items) => some (put key (.tables ([] :: items)) inner)
      | some _ => none)
    path false nodes

end Nodes

mutual

def Node.toToml : Node → Toml
  | .leaf v => v
  | .table _ _ entries => .table (fieldsOf entries)
  | .tables items => .list (tablesOf items [])

/-- the finished fields of a table -/
def fieldsOf : List (String × Node) → Fields
  | [] => []
  | (key, n) :: rest => (key, n.toToml) :: fieldsOf rest

/-- the finished tables of an array, put in front of `done` from the last one on -/
def tablesOf : List (List (String × Node)) → List Toml → List Toml
  | [], done => done
  | entries :: rest, done => tablesOf rest (.table (fieldsOf entries) :: done)

end

def Nodes.fields (nodes : Nodes) : Fields := fieldsOf nodes

end Rota.Toml
