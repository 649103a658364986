import Rota.Text.Radix

/-!
# Quoted names in messages

Tools name what they could not use.  Three ways of doing so are

* `Quoted.always`   in quotes, so that a shell reads the name back;
* `Quoted.needed`   the same, but without quotes where a shell needs none;
* `Quoted.plain`    in single quotes, with backslash escapes.
-/

namespace Rota.Program.Quoted

open Text

def isPrintable (c : Char) : Bool := decide (32 ≤ c.toNat) && decide (c.toNat < 127)

def octalEscape (c : Char) : Raw :=
  let ds := Radix.digits 8 false c.toNat
  '\\' :: List.replicate (3 - ds.length) '0' ++ ds

def letter? (c : Char) : Option Char :=
  match c.toNat with
  | 7 => some 'a'
  | 8 => some 'b'
  | 9 => some 't'
  | 10 => some 'n'
  | 11 => some 'v'
  | 12 => some 'f'
  | 13 => some 'r'
  | _ => none

def escape (c : Char) : Raw :=
  match letter? c with
  | some l => ['\\', l]
  | none => octalEscape c

/-- whether a shell gives a byte a meaning; a few have one in front only -/
def isSpecial (isFirst : Bool) (c : Char) : Bool :=
  !isPrintable c || c.toNat = 96 || (isFirst && (c = '#' || c = '~'))
    || " !\"$&'()*;<=>?[\\^|".toList.contains c

def needsQuotes : Raw → Bool
  | [] => true
  | [c] => isSpecial true c || c.toNat = 123 || c.toNat = 125
  | c :: r => isSpecial true c || r.any (isSpecial false)

/-- the inside of single quotes; what they cannot hold stands outside of them -/
def inside : Bool → Raw → Raw
  | _, [] => ['\'']
  | isEscaping, c :: r =>
    if isPrintable c then
      let front := if isEscaping then raw "''" else []
      if c = '\'' then front ++ raw "'\\''" ++ inside false r else front ++ c :: inside false r
    else
      let front := if isEscaping then [] else raw "'$'"
      front ++ escape c ++ inside true r

def fitsDouble (r : Raw) : Bool :=
  r.all fun c =>
    isPrintable c && c.toNat ≠ 96 && c.toNat ≠ 123 && c.toNat ≠ 125
      && !"!\"$&()*;<=>?[\\^|".toList.contains c

def always (r : Raw) : Raw :=
  if r.contains '\'' && fitsDouble r then '"' :: r ++ ['"'] else '\'' :: inside false r

def needed (r : Raw) : Raw := if needsQuotes r then always r else r

def plain (r : Raw) : Raw :=
  let inner := r.flatMap fun c =>
    if c = '\'' ∨ c = '\\' then ['\\', c] else if isPrintable c then [c] else escape c
  '\'' :: inner ++ ['\'']

/-! ## small laws -/

end Rota.Program.Quoted
