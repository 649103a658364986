import Rota.Program.Tr

/-!
# Patterns

A pattern is made of bytes of which some are quoted.  Outside quotes a star stands for any text, a
question mark for any byte, and brackets for one of the bytes in them.

* `Pattern.items`     the parts of a pattern;
* `Pattern.holds`     whether a text matches;
* `Pattern.trimmed`   a text without what matches at one of its ends.
-/

namespace Rota.Shell.Pattern

open Text Program

abbrev Cell := Char × Bool

inductive Member where
  | range (first last : Char)
  | classOf (k : Tr.ByteClass)
deriving DecidableEq, Repr

inductive Item where
  | star
  | any
  | byte (c : Char)
  | set (isNegated : Bool) (members : List Member)
deriving DecidableEq, Repr

def Member.holds (c : Char) : Member → Bool
  | .range a b => decide (a ≤ c) && decide (c ≤ b)
  | .classOf k => k.holds c

def className? : List Cell → Option (Raw × List Cell)
  | (':', false) :: (']', false) :: r => some ([], r)
  | (c, _) :: r => if c.isAlpha then (className? r).map fun p => (c :: p.1, p.2) else none
  | [] => none

/-- the members of a set up to its bracket, and what follows; a bracket that comes first is one -/
def members? : Nat → Bool → List Cell → Option (List Member × List Cell)
  | 0, _, _ => none
  | _, _, [] => none
  | fuel + 1, isFirst, (c, q) :: r =>
    if c = ']' && !q && !isFirst then some ([], r)
    else
      let named := match c, q, r with
        | '[', false, (':', false) :: r =>
          (className? r).bind fun p => (Tr.ByteClass.ofName? p.1).map fun k => (k, p.2)
        | _, _, _ => none
      match named with
      | some (k, rest) => (members? fuel false rest).map fun p => (.classOf k :: p.1, p.2)
      | none =>
        match r with
        | ('-', false) :: (d, p) :: rest =>
          if d = ']' && !p then
            (members? fuel false r).map fun p => (.range c c :: p.1, p.2)
          else (members? fuel false rest).map fun p => (.range c d :: p.1, p.2)
        | _ => (members? fuel false r).map fun p => (.range c c :: p.1, p.2)

def set? (r : List Cell) : Option (Item × List Cell) :=
  match r with
  | ('!', false) :: rest =>
    (members? (rest.length + 1) true rest).map fun p => (.set true p.1, p.2)
  | r => (members? (r.length + 1) true r).map fun p => (.set false p.1, p.2)

def itemsFrom : Nat → List Cell → List Item
  | 0, _ => []
  | _, [] => []
  | fuel + 1, (c, true) :: r => .byte c :: itemsFrom fuel r
  | fuel + 1, (c, false) :: r =>
    if c = '*' then .star :: itemsFrom fuel r
    else if c = '?' then .any :: itemsFrom fuel r
    else if c = '\\' then
      match r with
      | (d, _) :: r => .byte d :: itemsFrom fuel r
      | [] => [.byte c]
    else if c = '[' then
      match set? r with
      | some (i, rest) => i :: itemsFrom fuel rest
      | none => .byte c :: itemsFrom fuel r
    else .byte c :: itemsFrom fuel r

def items (r : List Cell) : List Item := itemsFrom r.length r

def ends : Raw → List Raw
  | [] => [[]]
  | c :: r => (c :: r) :: ends r

def holds : List Item → Raw → Bool
  | [], r => r.isEmpty
  | .star :: is, r => (ends r).any (holds is)
  | .any :: is, _ :: r => holds is r
  | .byte d :: is, c :: r => c = d && holds is r
  | .set isNegated ms :: is, c :: r => (ms.any (Member.holds c) != isNegated) && holds is r
  | _ :: _, [] => false

def trimmed (atEnd isLongest : Bool) (p : List Cell) (r : Raw) : Raw :=
  let is := items p
  let sizes := List.range (r.length + 1)
  let sizes := if isLongest then sizes.reverse else sizes
  let fits (n : Nat) : Bool :=
    if atEnd then holds is (r.drop (r.length - n)) else holds is (r.take n)
  match sizes.find? fits with
  | some n => if atEnd then r.take (r.length - n) else r.drop n
  | none => r

/-! ## small laws -/

end Rota.Shell.Pattern
