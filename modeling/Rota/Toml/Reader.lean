import Rota.Toml.Scalar
import Rota.Toml.Table

/-!
# TOML documents, read

* `Reader.value?`      a value: a scalar, an array, or a table in one line;
* `Reader.document?`   the lines of a document;
* `Toml.parse?`        a whole document.

A mistake anywhere refuses the whole document.  Arrays and tables in values nest at most `maxDepth`
deep, and a key has at most as many parts.
-/

namespace Rota.Toml

namespace Reader

open Scalar

def filler (comment : Bool) : List Char → Option (List Char)
  | [] => some []
  | '\r' :: '\n' :: r => filler false r
  | c :: r =>
    if c = '\n' then filler false r
    else if comment then (if isPrintable c then filler true r else none)
    else if isSpace c then filler false r
    else if c = '#' then filler true r
    else some (c :: r)

def lineEnd? (cs : List Char) : Option (List Char) :=
  let rest := match skip cs with
    | '#' :: r => r.dropWhile fun c => isPrintable c
    | r => r
  if rest = [] then some [] else newline? rest

def keyParts? : Nat → List Char → Option (List String × List Char)
  | 0, _ => none
  | fuel + 1, cs =>
    match skip cs with
    | '.' :: r => do
      let (k, r) ← key? (skip r)
      let (ks, r) ← keyParts? fuel r
      some (k :: ks, r)
    | r => some ([], r)

def maxDepth : Nat := 79

def dottedKey? (cs : List Char) : Option ((List String × String) × List Char) := do
  let (k, r) ← key? (skip cs)
  let (ks, r) ← keyParts? (r.length + 1) r
  let parts := k :: ks
  if parts.length ≤ maxDepth then some ((parts.dropLast, parts.getLast?.getD k), r) else none

mutual

/-- a value; `fuel` bounds how long it is, and `room` how deep arrays and tables nest in it -/
def value? (fuel room : Nat) (cs : List Char) : Option (Toml × List Char) :=
  match fuel with
  | 0 => none
  | fuel + 1 =>
    match cs with
    | '[' :: r =>
      match room with
      | 0 => none
      | room + 1 => do
        let (items, r) ← items? fuel room r
        some (.list items, r)
    | '{' :: r =>
      match room with
      | 0 => none
      | room + 1 =>
        match skip r with
        | '}' :: r => some (.table [], r)
        | r => do
          let (nodes, r) ← inline? fuel room [] r
          some (.table nodes.fields, r)
    | '"' :: _ => (string? cs).map fun p => (.text (String.ofList p.1), p.2)
    | '\'' :: _ => (string? cs).map fun p => (.text (String.ofList p.1), p.2)
    | _ => plain? cs

def items? (fuel room : Nat) (cs : List Char) : Option (List Toml × List Char) :=
  match fuel with
  | 0 => none
  | fuel + 1 =>
    match filler false cs with
    | none => none
    | some (']' :: r) => some ([], r)
    | some r => do
      let (v, r) ← value? fuel room r
      match ← filler false r with
      | ',' :: r => do
        let (vs, r) ← items? fuel room r
        some (v :: vs, r)
      | ']' :: r => some ([v], r)
      | _ => none

/-- the fields of a table in one line from here on, added to `nodes`, and its end -/
def inline? (fuel room : Nat) (nodes : Nodes) (cs : List Char) : Option (Nodes × List Char) :=
  match fuel with
  | 0 => none
  | fuel + 1 => do
    let ((path, key), r) ← dottedKey? cs
    match skip r with
    | '=' :: r => do
      let (v, r) ← value? fuel room (skip r)
      let nodes ← nodes.setKey path key v
      match skip r with
      | ',' :: r => inline? fuel room nodes r
      | '}' :: r => some (nodes, r)
      | _ => none
    | _ => none

end

def header? (cs : List Char) : Option ((List String × String) × List Char) := do
  let (k, r) ← dottedKey? cs
  let r ← after? ']' (skip r)
  some (k, r)

/-- the lines from here on, added to `nodes`; fields go to the table at `current` -/
def document? : Nat → List String → Nodes → List Char → Option Nodes
  | 0, _, _, _ => none
  | fuel + 1, current, nodes, cs =>
    match skip cs with
    | [] => some nodes
    | '[' :: '[' :: r => do
      let ((path, key), r) ← header? r
      let r ← after? ']' r
      let r ← lineEnd? r
      let nodes ← nodes.pushTable path key
      document? fuel (path ++ [key]) nodes r
    | '[' :: r => do
      let ((path, key), r) ← header? r
      let r ← lineEnd? r
      let nodes ← nodes.openTable path key
      document? fuel (path ++ [key]) nodes r
    | c :: r =>
      if c = '#' ∨ c = '\n' ∨ c = '\r' then do
        let r ← lineEnd? (c :: r)
        document? fuel current nodes r
      else do
        let ((path, key), r) ← dottedKey? (c :: r)
        let r ← after? '=' (skip r)
        let (v, r) ← value? (2 * r.length + 2) maxDepth (skip r)
        let r ← lineEnd? r
        let nodes ← Nodes.within false (fun _ inner => inner.setKey path key v) current false nodes
        document? fuel current nodes r

end Reader

def parse? (text : String) : Option Fields :=
  let cs := match text.toList with
    | '\ufeff' :: r => r
    | cs => cs
  (Reader.document? (cs.length + 1) [] [] cs).map Nodes.fields

end Rota.Toml
