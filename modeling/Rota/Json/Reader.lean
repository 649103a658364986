import Rota.Json.Basic
import Rota.Text.Numeral
import Rota.Text.Utf8

/-!
# JSON text, read

The reader takes the grammar of JSON as it stands: no comments, no trailing commas, no leading
zeros, no raw control characters in strings, and escapes of surrogates only in pairs.  A value that
nobody looks at is read loosely: there a surrogate may stand alone.  Every function takes the text
that is left and gives back what it read and what is left then.

* `Json.Reader.string?`   the inside of a string and its closing quote;
* `Json.Reader.number?`   a number;
* `Json.Reader.value?`    any value;
* `Json.parse?`           a whole text;
* `Json.parseRecord?`     a whole text of which only some fields are looked at;
* `Json.textOf`           the text of bytes, as far as it counts for `parseRecord?`.

An object keeps all its fields, in order, repeated keys included.
-/

namespace Rota.Json

open Text

namespace Reader

def isSpace (c : Char) : Bool := c = ' ' || c = '\n' || c = '\t' || c = '\r'

def skip (cs : List Char) : List Char := cs.dropWhile isSpace

def hex? (c : Char) : Option Nat :=
  if c.isDigit then some (c.toNat - 48)
  else if 'a' ≤ c ∧ c ≤ 'f' then some (c.toNat - 87)
  else if 'A' ≤ c ∧ c ≤ 'F' then some (c.toNat - 55)
  else none

def hexFour? : List Char → Option (Nat × List Char)
  | a :: b :: c :: d :: r => do
    let a ← hex? a
    let b ← hex? b
    let c ← hex? c
    let d ← hex? d
    some (((a * 16 + b) * 16 + c) * 16 + d, r)
  | _ => none

/-- the character after `\u`: four digits, or two groups of four that make up a surrogate pair -/
def unicode? (cs : List Char) : Option (Char × List Char) := do
  let (n, cs) ← hexFour? cs
  if n < 0xD800 ∨ 0xDFFF < n then some (Char.ofNat n, cs)
  else if 0xDBFF < n then none
  else
    match cs with
    | '\\' :: 'u' :: cs => do
      let (m, cs) ← hexFour? cs
      if 0xDC00 ≤ m ∧ m ≤ 0xDFFF then
        some (Char.ofNat (0x10000 + (n - 0xD800) * 0x400 + (m - 0xDC00)), cs)
      else none
    | _ => none

/-- the character after `\u` where a surrogate may stand alone; it counts as U+FFFD -/
def looseUnicode? (cs : List Char) : Option (Char × List Char) :=
  (hexFour? cs).map fun p =>
    (if p.1 < 0xD800 ∨ 0xDFFF < p.1 then Char.ofNat p.1 else '\ufffd', p.2)

def escaped? (loose : Bool) : List Char → Option (Char × List Char)
  | '"' :: r => some ('"', r)
  | '\\' :: r => some ('\\', r)
  | '/' :: r => some ('/', r)
  | 'b' :: r => some (Char.ofNat 8, r)
  | 'f' :: r => some (Char.ofNat 12, r)
  | 'n' :: r => some ('\n', r)
  | 'r' :: r => some ('\r', r)
  | 't' :: r => some ('\t', r)
  | 'u' :: r => if loose then looseUnicode? r else unicode? r
  | _ => none

def string? (loose : Bool) (fuel : Nat) (cs : List Char) : Option (List Char × List Char) :=
  match fuel with
  | 0 => none
  | fuel + 1 =>
    match cs with
    | [] => none
    | c :: r =>
      if c = '"' then some ([], r)
      else if c = '\\' then do
        let (d, r) ← escaped? loose r
        let (s, r) ← string? loose fuel r
        some (d :: s, r)
      else if c.toNat < 32 then none
      else do
        let (s, r) ← string? loose fuel r
        some (c :: s, r)

def digits? (cs : List Char) : Option (List Char × List Char) :=
  let parts := Numeral.split cs
  if parts.1.isEmpty then none else some parts

def fraction? : List Char → Option (List Char × List Char)
  | '.' :: r => digits? r
  | cs => some ([], cs)

def exponent? : List Char → Option (Option Int × List Char)
  | c :: r =>
    if c = 'e' ∨ c = 'E' then
      match r with
      | '-' :: r => (digits? r).map fun p => (some (-(Numeral.value p.1 : Int)), p.2)
      | '+' :: r => (digits? r).map fun p => (some (Numeral.value p.1 : Int), p.2)
      | r => (digits? r).map fun p => (some (Numeral.value p.1 : Int), p.2)
    else some (none, c :: r)
  | [] => some (none, [])

def unsigned? (negative : Bool) (cs : List Char) : Option (Json × List Char) := do
  let (ds, cs) ← digits? cs
  if ds.head? = some '0' ∧ 1 < ds.length then none
  else
    let (fs, cs) ← fraction? cs
    let (e, cs) ← exponent? cs
    let sign (n : Nat) : Int := if negative then -(n : Int) else n
    if fs = [] ∧ e = none then
      if negative ∧ Numeral.value ds = 0 then some (.decimal 0 0, cs)
      else some (.int (sign (Numeral.value ds)), cs)
    else some (.decimal (sign (Numeral.value (ds ++ fs))) (e.getD 0 - (fs.length : Int)), cs)

def number? : List Char → Option (Json × List Char)
  | '-' :: r => unsigned? true r
  | cs => unsigned? false cs

mutual

/-- a value; `fuel` bounds how deep and how long it is -/
def value? (loose : Bool) (fuel : Nat) (cs : List Char) : Option (Json × List Char) :=
  match fuel with
  | 0 => none
  | fuel + 1 =>
    match skip cs with
    | '"' :: r => do
      let (s, r) ← string? loose (r.length + 1) r
      some (.str (String.ofList s), r)
    | '[' :: r =>
      match skip r with
      | ']' :: r => some (.arr [], r)
      | r => do
        let (v, r) ← value? loose fuel r
        let (vs, r) ← items? loose fuel r
        some (.arr (v :: vs), r)
    | '{' :: r =>
      match skip r with
      | '}' :: r => some (.obj [], r)
      | r => do
        let (f, r) ← field? loose (fun _ => loose) fuel r
        let (fs, r) ← fields? loose (fun _ => loose) fuel r
        some (.obj (f :: fs), r)
    | 'n' :: 'u' :: 'l' :: 'l' :: r => some (.null, r)
    | 't' :: 'r' :: 'u' :: 'e' :: r => some (.bool true, r)
    | 'f' :: 'a' :: 'l' :: 's' :: 'e' :: r => some (.bool false, r)
    | r => number? r

def items? (loose : Bool) (fuel : Nat) (cs : List Char) : Option (List Json × List Char) :=
  match fuel with
  | 0 => none
  | fuel + 1 =>
    match skip cs with
    | ']' :: r => some ([], r)
    | ',' :: r => do
      let (v, r) ← value? loose fuel r
      let (vs, r) ← items? loose fuel r
      some (v :: vs, r)
    | _ => none

def field? (looseKey : Bool) (looseUnder : String → Bool) (fuel : Nat) (cs : List Char) :
    Option ((String × Json) × List Char) :=
  match fuel with
  | 0 => none
  | fuel + 1 =>
    match skip cs with
    | '"' :: r => do
      let (k, r) ← string? looseKey (r.length + 1) r
      match skip r with
      | ':' :: r => do
        let key := String.ofList k
        let (v, r) ← value? (looseUnder key) fuel r
        some ((key, v), r)
      | _ => none
    | _ => none

def fields? (looseKey : Bool) (looseUnder : String → Bool) (fuel : Nat) (cs : List Char) :
    Option (List (String × Json) × List Char) :=
  match fuel with
  | 0 => none
  | fuel + 1 =>
    match skip cs with
    | '}' :: r => some ([], r)
    | ',' :: r => do
      let (f, r) ← field? looseKey looseUnder fuel r
      let (fs, r) ← fields? looseKey looseUnder fuel r
      some (f :: fs, r)
    | _ => none

end

def whole? : Option (Json × List Char) → Option Json
  | some (j, r) => if skip r = [] then some j else none
  | none => none

/-- an object whose values are read loosely but for those under the keys `known` -/
def record? (known : List String) (cs : List Char) : Option (Json × List Char) :=
  let fuel := 2 * cs.length + 2
  match skip cs with
  | '}' :: r => some (.obj [], r)
  | r => do
    let (f, r) ← field? false (fun key => key ∉ known) fuel r
    let (fs, r) ← fields? false (fun key => key ∉ known) fuel r
    some (.obj (f :: fs), r)

end Reader

def parseChars? (cs : List Char) : Option Json :=
  Reader.whole? (Reader.value? false (2 * cs.length + 2) cs)

def parse? (s : String) : Option Json := parseChars? s.toList

/-- the value of a whole text; if it is an object, only the fields `known` are looked at -/
def parseRecord? (known : List String) (s : String) : Option Json :=
  match Reader.skip s.toList with
  | '{' :: r => Reader.whole? (Reader.record? known r)
  | cs => parseChars? cs

/-! ## bytes -/

/-- stands for bytes that are no UTF-8.  In a value that nobody looks at such bytes do no harm, and
neither do surrogates; anywhere else both are refused.  It is two of them, so that a surrogate before
it cannot take it for its other half. -/
def stray : List Char := ['\\', 'u', 'd', 'f', 'f', 'f', '\\', 'u', 'd', 'f', 'f', 'f']

/-- fills the gaps between characters.  Behind a backslash (`escape`) a gap is refused everywhere, as a
control character is. -/
def fillGaps (escape : Bool) : List (Option Char) → List Char
  | [] => []
  | some c :: cs => c :: fillGaps (c = '\\' && !escape) cs
  | none :: cs => (if escape then ['\x00'] else stray) ++ fillGaps false cs

theorem fillGaps_map_some (escape : Bool) (cs : List Char) : fillGaps escape (cs.map some) = cs := by
  induction cs generalizing escape with
  | nil => rfl
  | cons c cs ih => exact congrArg (c :: ·) (ih _)

def textOf (bytes : List UInt8) : String := String.ofList (fillGaps false (Utf8.decode bytes))

end Rota.Json
