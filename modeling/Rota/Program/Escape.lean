import Rota.Text.Radix

/-!
# Backslash escapes

* `Escape.control?`   the control character of a letter;
* `Escape.one`        the escape after a backslash, with up to three octal digits;
* `Escape.printed`    a text in which an octal escape may begin with a zero, and `\c` stops all;
* `Escape.verbose`    the same, with `\e` and hexadecimal escapes, and with a zero before an octal
                      number that is not counted among its digits.

What is no escape stands for itself, its backslash included.
-/

namespace Rota.Program.Escape

open Text

def control? (c : Char) : Option Char :=
  match c with
  | 'a' => some '\x07'
  | 'b' => some '\x08'
  | 'f' => some '\x0c'
  | 'n' => some '\n'
  | 'r' => some '\r'
  | 't' => some '\t'
  | 'v' => some '\x0b'
  | '\\' => some '\\'
  | _ => none

def isOctal (c : Char) : Bool := Radix.isDigit 8 c

def octals (n : Nat) (r : Raw) : Raw := (r.take n).takeWhile isOctal

def octal (ds : Raw) : Char := Raw.ofNat (Radix.value 8 ds)

def one : Raw → Char × Raw
  | [] => ('\\', [])
  | c :: r =>
    match control? c with
    | some d => (d, r)
    | none =>
      match octals 3 (c :: r) with
      | [] => ('\\', c :: r)
      | d :: ds => (octal (d :: ds), (c :: r).drop (ds.length + 1))

/-- a text without its escapes, and whether `\c` stopped it; `fuel` is at least its length -/
def printedFrom : Nat → Raw → Raw × Bool
  | 0, r => (r, false)
  | _, [] => ([], false)
  | _ + 1, '\\' :: 'c' :: _ => ([], true)
  | fuel + 1, '\\' :: r =>
    let r := match r with
      | '0' :: d :: r => if isOctal d then d :: r else '0' :: d :: r
      | r => r
    let (c, r) := one r
    let (rest, stops) := printedFrom fuel r
    (c :: rest, stops)
  | fuel + 1, c :: r =>
    let (rest, stops) := printedFrom fuel r
    (c :: rest, stops)

def printed (r : Raw) : Raw × Bool := printedFrom r.length r

def longOne : Raw → Char × Raw
  | 'e' :: r => ('\x1b', r)
  | 'x' :: r =>
    match (r.take 2).takeWhile (Radix.isDigit 16) with
    | [] => ('\\', 'x' :: r)
    | d :: ds => (Raw.ofNat (Radix.value 16 (d :: ds)), r.drop (ds.length + 1))
  | '0' :: r => (octal (octals 3 r), r.drop (octals 3 r).length)
  | r => one r

def verboseFrom : Nat → Raw → Raw × Bool
  | 0, r => (r, false)
  | _, [] => ([], false)
  | _ + 1, '\\' :: 'c' :: _ => ([], true)
  | fuel + 1, '\\' :: r =>
    let (c, r) := longOne r
    let (rest, stops) := verboseFrom fuel r
    (c :: rest, stops)
  | fuel + 1, c :: r =>
    let (rest, stops) := verboseFrom fuel r
    (c :: rest, stops)

def verbose (r : Raw) : Raw × Bool := verboseFrom r.length r

/-! ## small laws -/

end Rota.Program.Escape
